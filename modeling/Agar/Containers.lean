import Agar.Sights
import Agar.Removals

/-! The containers between ticks: where the cells are stored, that no ID occurs twice, and that the
replay of the removal events at the end of a tick finds nothing to remove. -/

namespace Agar
open Trace

namespace Game

/-- The pointers in all blocks, in the players' vectors and in `DynamicMap`. -/
def stored {K : Type} (g : Game K) : List CellPtr :=
  blockGrid.flatMap g.staticMap ++ (g.players.flatMap Player.cells ++ g.dynamicMap)

/-- Every container holds what it is for, in its place, and no ID twice. -/
structure Contained (g : Game ℝ) : Prop where
  block : ∀ b, ∀ p ∈ g.staticMap b, indexFromCoord (g.heap p).position = b
  static : ∀ b, ∀ p ∈ g.staticMap b, (g.heap p).flag = foodFlag
  dynamic : ∀ p ∈ g.dynamicMap, (g.heap p).flag = foodFlag ∨ (g.heap p).flag = virusFlag
  cells : ∀ q ∈ g.players, ∀ p ∈ q.cells, (g.heap p).flag = playerFlag
  ids : g.allocated ≤ 2 ^ 32 → (g.stored.map fun p => (g.heap p).id).Nodup

/-- The coordinates of the blocks along one side. -/
def gridLine : List ℤ := (List.range numBlocks).map fun n : ℕ => (n : ℤ)

theorem gridLine_nodup : gridLine.Nodup :=
  List.nodup_range.map fun _ _ h => Int.ofNat_inj.mp h

theorem blockGrid_eq :
    blockGrid = gridLine.flatMap fun x => gridLine.map fun y => (⟨x, y⟩ : Vec2i) := by
  unfold gridLine
  rw [List.map_eq_flatMap]
  rfl

theorem blockGrid_nodup : blockGrid.Nodup := by
  rw [blockGrid_eq]
  refine List.nodup_flatMap.mpr ⟨fun x _ => ?_, ?_⟩
  · exact gridLine_nodup.map fun y y' h => congrArg Vec2i.y h
  · refine gridLine_nodup.imp fun {x x'} hne => ?_
    intro b hb hb'
    obtain ⟨y, -, rfl⟩ := List.mem_map.mp hb
    obtain ⟨y', -, h⟩ := List.mem_map.mp hb'
    exact hne (congrArg Vec2i.x h).symm

theorem WellFormed.stored_nodup {g : Game ℝ} (hw : WellFormed g) : g.stored.Nodup := by
  refine List.nodup_append.mpr ⟨List.nodup_flatMap.mpr ⟨fun b _ => hw.static_nodup b, ?_⟩,
    hw.moved_nodup, ?_⟩
  · refine blockGrid_nodup.imp fun {b b'} hne => ?_
    intro p hp hp'
    exact hne ((hw.static b p hp).2.2.symm.trans (hw.static b' p hp').2.2)
  · rintro p hp q hq rfl
    obtain ⟨b, -, hb⟩ := List.mem_flatMap.mp hp
    obtain ⟨hdynamic, hcells⟩ := hw.static_only hb
    rcases List.mem_append.mp hq with hq | hq
    · obtain ⟨i, hi⟩ := mem_playerCells.mp hq
      exact hcells i hi
    · exact hdynamic hq

theorem WellFormed.stored_lt {g : Game ℝ} (hw : WellFormed g) {p : CellPtr} (h : p ∈ g.stored) :
    p < g.allocated := by
  rcases List.mem_append.mp h with h | h
  · obtain ⟨b, -, hb⟩ := List.mem_flatMap.mp h
    exact hw.static_lt hb
  · rcases List.mem_append.mp h with h | h
    · obtain ⟨i, hi⟩ := mem_playerCells.mp h
      exact (hw.owned i p hi).1
    · exact (hw.dynamic p h).2.1

theorem WellFormed.id_inj {g : Game ℝ} (hw : WellFormed g) {p q : CellPtr} (hp : p < g.allocated)
    (hq : q < g.allocated) (hp' : p < 2 ^ 32) (hq' : q < 2 ^ 32)
    (h : (g.heap p).id = (g.heap q).id) : p = q := by
  rw [hw.id p hp, hw.id q hq] at h
  have hnat := congrArg BitVec.toNat h
  rwa [BitVec.toNat_ofNat, BitVec.toNat_ofNat, Nat.mod_eq_of_lt hp', Nat.mod_eq_of_lt hq'] at hnat

theorem WellFormed.contained {g : Game ℝ} (hw : WellFormed g) : Contained g where
  block := fun b p hp => (hw.static b p hp).2.2
  static := fun b p hp => (hw.static b p hp).2.1
  dynamic := fun p hp => (hw.dynamic p hp).2.2
  cells := fun q hq p hp => by
    obtain ⟨i, hi⟩ := mem_playerCells.mp (List.mem_flatMap.mpr ⟨q, hq, hp⟩)
    exact (hw.owned i p hi).2
  ids := fun hle => by
    refine hw.stored_nodup.map_on fun p hp q hq h => ?_
    have hp' := hw.stored_lt hp
    have hq' := hw.stored_lt hq
    exact hw.id_inj hp' hq' (hp'.trans_le hle) (hq'.trans_le hle) h

/-- A cell that was reported as removed is not in the map. -/
structure Gone (g : Game ℝ) : Prop where
  static : ∀ p ∈ g.cellEvents.removeStatic, p < maxFood ∧ ∀ b, p ∉ g.staticMap b
  dynamic : ∀ p ∈ g.cellEvents.removeDynamic, p < g.allocated ∧ p ∉ g.dynamicMap

variable {g g' : Game ℝ}

theorem Effect.gone (h : Effect g g') (hw : WellFormed g) (hg : Gone g) : Gone g' := by
  cases h with
  | note c hs hc hstay hleft => exact ⟨hg.static, hg.dynamic⟩
  | draw => exact ⟨hg.static, hg.dynamic⟩
  | change p c howned hid hcolor hflag hradius hpos hpositive => exact ⟨hg.static, hg.dynamic⟩
  | spawn i c hi hcap hid hflag hradius hpositive =>
    exact ⟨hg.static, fun p hp => ⟨(hg.dynamic p hp).1.trans (Nat.lt_succ_self _),
      (hg.dynamic p hp).2⟩⟩
  | eject c hid hflag hradius =>
    refine ⟨hg.static, fun p hp => ?_⟩
    obtain ⟨hlt, hnot⟩ := hg.dynamic p hp
    refine ⟨hlt.trans (Nat.lt_succ_self _), fun hmem => ?_⟩
    rcases List.mem_append.mp hmem with hmem | hmem
    · exact hnot hmem
    · exact hlt.ne (List.mem_singleton.mp hmem)
  | killStatic b loop p h =>
    have hsub := removeStaticAt_sublist (g.pushRemoveStatic p) b loop
    have hp := List.mem_of_getElem? h
    refine ⟨fun q hq => ?_, hg.dynamic⟩
    rcases List.mem_append.mp hq with hq | hq
    · obtain ⟨hlt, hnot⟩ := hg.static q hq
      exact ⟨hlt, fun b' hb' => hnot b' ((hsub b').subset hb')⟩
    · obtain rfl := List.mem_singleton.mp hq
      refine ⟨(hw.static b q hp).1, fun b' hb' => ?_⟩
      have hin := (hsub b').subset hb'
      have hbb : b' = b := (hw.static b' q hin).2.2.symm.trans (hw.static b q hp).2.2
      subst hbb
      have herased : q ∈ (g.staticMap b').eraseIdx loop := by
        have hmem : q ∈ if b' = b' then (g.staticMap b').eraseIdx loop else g.staticMap b' := hb'
        rwa [if_pos rfl] at hmem
      exact ((mem_eraseIdx_of_nodup (hw.static_nodup b') h q).mp herased).2 rfl
  | killDynamic loop p h =>
    refine ⟨hg.static, fun q hq => ?_⟩
    rcases List.mem_append.mp hq with hq | hq
    · obtain ⟨hlt, hnot⟩ := hg.dynamic q hq
      exact ⟨hlt, fun hmem => hnot ((List.eraseIdx_sublist _ _).subset hmem)⟩
    · obtain rfl := List.mem_singleton.mp hq
      refine ⟨(hw.dynamic q (List.mem_of_getElem? h)).2.1, fun hmem => ?_⟩
      exact ((mem_eraseIdx_of_nodup hw.dynamic_nodup h q).mp hmem).2 rfl
  | kill i loop p h =>
    refine ⟨hg.static, fun q hq => ?_⟩
    rcases List.mem_append.mp hq with hq | hq
    · exact hg.dynamic q hq
    · obtain rfl := List.mem_singleton.mp hq
      have hin := List.mem_of_getElem? h
      exact ⟨(hw.owned i q hin).1, fun hmem => (hw.dynamic_only hmem).2 i hin⟩
  | stray i myLoop p slot hp hslot =>
    obtain ⟨h1, -, h3, h4, h5, -, -⟩ :=
      eraseCellAt_frame ((g.note (.absorb p slot)).pushRemoveDynamic p) i myLoop
    refine ⟨?_, ?_⟩
    · rw [h5, h3]
      exact hg.static
    · rw [h5, h4, h1]
      intro q hq
      rcases List.mem_append.mp hq with hq | hq
      · exact hg.dynamic q hq
      · rw [List.mem_singleton.mp hq]
        exact hg.dynamic p hp
  | pour p size count slots s howned hempties hcap hsum => exact ⟨hg.static, hg.dynamic⟩

theorem gone_of_effects (h : Relation.ReflTransGen Effect g g') (hw : WellFormed g)
    (hg : Gone g) : Gone g' := by
  induction h with
  | refl => exact hg
  | tail h he ih => exact he.gone (wellFormed_of_effects h hw) ih

theorem Gone.of_events (hg : Gone g) (hallocated : g.allocated ≤ g'.allocated)
    (hevents : g'.cellEvents.removeStatic = g.cellEvents.removeStatic ∧
      g'.cellEvents.removeDynamic = g.cellEvents.removeDynamic)
    (hstatic : ∀ b, (g'.staticMap b) ⊆ (g.staticMap b))
    (hdynamic : ∀ p < g.allocated, p ∈ g'.dynamicMap → p ∈ g.dynamicMap) : Gone g' := by
  refine ⟨?_, ?_⟩
  · rw [hevents.1]
    exact fun p hp => ⟨(hg.static p hp).1, fun b hb => (hg.static p hp).2 b (hstatic b hb)⟩
  · rw [hevents.2]
    intro p hp
    obtain ⟨hlt, hnot⟩ := hg.dynamic p hp
    exact ⟨hlt.trans_le hallocated, fun hmem => hnot (hdynamic p hlt hmem)⟩

theorem Gone.commands (hg : Gone g) (hw : WellFormed g) {i : ℕ} {p : Player ℝ}
    (hp : g.players[i]? = some p) : (g.commands i p).Gone := by
  have hd := (commands_spec hw hp).2.1
  have hgrows := commands_grows g i p
  exact hg.of_events hd.allocated (by rw [hgrows.events]; exact ⟨rfl, rfl⟩)
    (fun b => (hd.static b).subset) hd.dynamic

theorem Gone.parseEvents (hg : Gone g) (hw : WellFormed g) (hadditions : NoAdditions g) :
    g.parseEvents = g := by
  have hstatic : ∀ ps ⊆ g.cellEvents.removeStatic, ps.foldl removeStatic g = g := by
    intro ps
    induction ps with
    | nil => exact fun _ => rfl
    | cons p ps ih =>
      intro hsub
      obtain ⟨hlt, hnot⟩ := hg.static p (hsub List.mem_cons_self)
      have hsame : g.removeStatic p = g := by
        have hnone : ((g.staticMap (indexFromCoord (g.heap p).position)).findIdx? fun q =>
            (g.heap p).id = (g.heap q).id) = none := by
          refine List.findIdx?_eq_none_iff.mpr fun q hq => decide_eq_false fun hid => ?_
          have hqlt := (hw.static _ q hq).1
          have hpq := hw.id_inj (hlt.trans_le hw.food_le) (hw.static_lt hq)
            (hlt.trans (by decide)) (hqlt.trans (by decide)) hid
          rw [← hpq] at hq
          exact hnot _ hq
        unfold removeStatic
        dsimp only
        rw [hnone]
      rw [List.foldl_cons, hsame]
      exact ih fun q hq => hsub (List.mem_cons_of_mem p hq)
  have hdynamic : ∀ ps ⊆ g.cellEvents.removeDynamic, ps.foldl removeDynamic g = g := by
    intro ps
    induction ps with
    | nil => exact fun _ => rfl
    | cons p ps ih =>
      intro hsub
      have hnot := (hg.dynamic p (hsub List.mem_cons_self)).2
      have hsame : g.removeDynamic p = g := by
        unfold removeDynamic
        rw [List.erase_of_not_mem (by simpa using hnot), List.reverse_reverse]
      rw [List.foldl_cons, hsame]
      exact ih fun q hq => hsub (List.mem_cons_of_mem p hq)
  unfold Game.parseEvents
  dsimp only
  rw [hadditions.1, hadditions.2, List.foldl_nil, List.foldl_nil,
    hstatic _ (List.Subset.refl _), hdynamic _ (List.Subset.refl _)]

end Game

theorem Move.gone {a b : Stage} {s s' : Sys ℝ} (h : Move (a, s) (b, s')) (hi : Invariant a s)
    (hg : s.game.Gone) : s'.game.Gone := by
  have hw := hi.wellFormed
  have hstill : Game.Still s.game s'.game → s'.game.Gone := fun hs =>
    hg.of_events hs.allocated (by rw [hs.events]; exact ⟨rfl, rfl⟩)
      (fun b => by rw [hs.static]; exact List.Subset.refl _)
      (fun p _ hp => by rwa [hs.dynamic] at hp)
  cases h with
  | begin _ clock =>
    have hevents := Game.updateDynamic_events (s.game.beginTick clock) (clock - s.game.currentTime)
    refine ⟨?_, ?_⟩
    · show ∀ p ∈ ((s.game.beginTick clock).updateDynamic _).cellEvents.removeStatic, _
      rw [hevents]
      intro p hp
      cases hp
    · show ∀ p ∈ ((s.game.beginTick clock).updateDynamic _).cellEvents.removeDynamic, _
      rw [hevents]
      intro p hp
      cases hp
  | kick _ x hx => exact hstill ((Move.kick s x hx).still hi)
  | collide _ => exact Game.gone_of_effects (Game.collisionPhase_leads s.game hw) hw hg
  | drive _ dt =>
    have hm := Game.drive_motion s.game dt
    exact hg.of_events hm.allocated.ge ⟨hm.removeStatic, hm.removeDynamic⟩
      (fun b => by rw [hm.static]; exact List.Subset.refl _) (fun p _ hp => by rwa [hm.dynamic] at hp)
  | update _ n p hp =>
    unfold Sys.updateAt
    rw [hp]
    have hcommands := hg.commands hw hp
    exact ⟨hcommands.static, hcommands.dynamic⟩
  | replay _ n hn =>
    have hsame := hg.parseEvents hw hi.additions
    show s.game.parseEvents.Gone
    rw [hsame]
    exact hg
  | send _ clock accepts i => exact hstill ((Move.send s clock accepts i).still hi)
  | join _ w grown hnew => exact hstill ((Move.join s w grown hnew).still hi)
  | receive _ w packet beyond => exact hstill ((Move.receive s w packet beyond).still hi)
  | close _ x hx => exact hstill ((Move.close s x hx).still hi)

theorem init_gone (rand : ℕ → Fin (randMax + 1)) (stale : CellPtr → ℝ) :
    (Sys.init rand stale).game.Gone := by
  have hevents : (Sys.init rand stale).game.cellEvents = {} :=
    (Game.mapInit_started rand stale).events
  refine ⟨?_, ?_⟩
  · rw [hevents]
    intro p hp
    cases hp
  · rw [hevents]
    intro p hp
    cases hp

theorem Run.gone (r : Run ℝ) : r.final.game.Gone :=
  Run.induction (P := fun _ s => s.game.Gone) init_gone (fun _ _ _ _ hi hm hg => hm.gone hi hg) r

/-- Where `CollideDynamic` stands: at the head of its outer or of its inner loop. -/
inductive DynamicPoint (K : Type)
  | outer (g : Game K) (myLoop : ℕ)
  | inner (g : Game K) (cell : CellPtr) (myLoop loop : ℕ)

namespace DynamicPoint

def game {K : Type} : DynamicPoint K → Game K
  | .outer g _ => g
  | .inner g _ _ _ => g

section Next
variable {K : Type} [Field K] [LinearOrder K] [FloorRing K] [Arith K]

/-- The next round, none at the end of the outer loop. -/
def next (i : ℕ) : DynamicPoint K → Option (DynamicPoint K)
  | .outer g myLoop =>
    match (g.cellsOf i)[myLoop]? with
    | none => none
    | some cell => some (.inner g cell myLoop 0)
  | .inner g cell myLoop loop =>
    match g.dynamicMap[loop]? with
    | none => some (.outer g (myLoop + 1))
    | some dynamicCell =>
      let flag := (g.heap dynamicCell).flag
      let result := (g.heap cell).collide (g.heap dynamicCell)
      if result = .bigger then
        let g' := (g.noteCollide cell dynamicCell).eatDynamic cell dynamicCell loop
        if flag.isVirus ∧ (g'.cellsOf i).length < 16 then
          some (.outer (g'.popVirus i cell dynamicCell) myLoop)
        else some (.inner g' cell myLoop loop)
      else if result = .smaller ∧ ¬ (flag.isFood ∨ flag.isVirus) then
        some (.outer ((g.noteCollide cell dynamicCell).absorbDynamic i cell dynamicCell myLoop)
          myLoop)
      else some (.inner (g.noteCollide cell dynamicCell) cell myLoop (loop + 1))

/-- The round in which a cell of the map absorbs the player's cell. -/
def Absorbs : DynamicPoint K → Prop
  | .outer _ _ => False
  | .inner g cell _ loop => ∃ dynamicCell, g.dynamicMap[loop]? = some dynamicCell ∧
      (g.heap cell).collide (g.heap dynamicCell) = .smaller ∧
      ¬ ((g.heap dynamicCell).flag.isFood ∨ (g.heap dynamicCell).flag.isVirus)

end Next

/-- From one point to another in some rounds. -/
abbrev Leads (i : ℕ) : DynamicPoint ℝ → DynamicPoint ℝ → Prop :=
  Relation.ReflTransGen fun a b => a.next i = some b

theorem inner_leads (g : Game ℝ) (i : ℕ) (cell : CellPtr) (myLoop loop : ℕ) :
    Leads i (.inner g cell myLoop loop) (.outer (g.collideDynamicWith i cell myLoop loop).1
      (if (g.collideDynamicWith i cell myLoop loop).2 then myLoop else myLoop + 1)) := by
  fun_induction Game.collideDynamicWith g i cell myLoop loop with
  | case1 g loop hnone => exact .single (by simp [next, hnone])
  | case2 g loop d hd flag result hbig g' hpop =>
    refine .single ?_
    simp only [next, hd]
    rw [if_pos hbig, if_pos hpop, if_pos trivial]
  | case3 g loop d hd flag result hbig g' hpop ih =>
    refine .head ?_ ih
    simp only [next, hd]
    rw [if_pos hbig, if_neg hpop]
  | case4 g loop d hd flag result hbig hsmall =>
    refine .single ?_
    simp only [next, hd]
    rw [if_neg hbig, if_pos hsmall, if_pos trivial]
  | case5 g loop d hd flag result hbig hsmall ih =>
    refine .head ?_ ih
    simp only [next, hd]
    rw [if_neg hbig, if_neg hsmall]

theorem outer_leads (g : Game ℝ) (i myLoop : ℕ) : ∃ n,
    Leads i (.outer g myLoop) (.outer (g.collideDynamicFrom i myLoop) n) ∧
      (outer (g.collideDynamicFrom i myLoop) n).next i = none := by
  fun_induction Game.collideDynamicFrom g i myLoop with
  | case1 g myLoop hnone => exact ⟨myLoop, .refl, by simp only [next, hnone]⟩
  | case2 g myLoop cell hcell hback ih =>
    obtain ⟨n, hleads, hend⟩ := ih
    have hinner := inner_leads g i cell myLoop 0
    rw [if_pos hback] at hinner
    exact ⟨n, .head (by simp only [next, hcell]) (hinner.trans hleads), hend⟩
  | case3 g myLoop cell hcell hback ih =>
    obtain ⟨n, hleads, hend⟩ := ih
    have hinner := inner_leads g i cell myLoop 0
    rw [if_neg hback] at hinner
    exact ⟨n, .head (by simp only [next, hcell]) (hinner.trans hleads), hend⟩

/-- What holds at every point of a pass. -/
structure Steady (i : ℕ) (pt : DynamicPoint ℝ) : Prop where
  wellFormed : pt.game.WellFormed
  index : i < pt.game.players.length
  owned : ∀ g cell myLoop loop, pt = .inner g cell myLoop loop → g.Owned cell

theorem Steady.not_absorbs {i : ℕ} {pt : DynamicPoint ℝ} (h : Steady i pt) : ¬ pt.Absorbs := by
  cases pt with
  | outer g myLoop => exact id
  | inner g cell myLoop loop =>
    rintro ⟨d, hd, -, hflag⟩
    refine hflag ?_
    rcases (h.wellFormed.dynamic d (List.mem_of_getElem? hd)).2.2 with hf | hf
    · exact Or.inl (congrArg CellFlag.isFood hf)
    · exact Or.inr (congrArg CellFlag.isVirus hf)

theorem Steady.step {i : ℕ} {pt pt' : DynamicPoint ℝ} (h : Steady i pt)
    (hn : pt.next i = some pt') : pt.game.Leads pt'.game ∧
      ∀ g cell myLoop loop, pt' = .inner g cell myLoop loop → g.Owned cell := by
  have hw := h.wellFormed
  have habsorbs := h.not_absorbs
  cases pt with
  | outer g myLoop =>
    unfold DynamicPoint.next at hn
    dsimp only at hn
    rcases hcell : (g.cellsOf i)[myLoop]? with - | cell
    · simp [hcell] at hn
    · simp only [hcell, Option.some.injEq] at hn
      subst hn
      refine ⟨.refl g, ?_⟩
      rintro g' cell' myLoop' loop' ⟨⟩
      exact hw.owned i cell (List.mem_of_getElem? hcell)
  | inner g cell myLoop loop =>
    have ho := h.owned g cell myLoop loop rfl
    unfold DynamicPoint.next at hn
    dsimp only at hn
    rcases hd : g.dynamicMap[loop]? with - | d
    · simp only [hd, Option.some.injEq] at hn
      subst hn
      exact ⟨.refl g, fun _ _ _ _ hc => by cases hc⟩
    · simp only [hd] at hn
      have heat := Game.eatDynamic_leads ho hd
      have hdlt := (hw.dynamic d (List.mem_of_getElem? hd)).2.1
      by_cases hbig : (g.heap cell).collide (g.heap d) = .bigger
      · rw [if_pos hbig] at hn
        split_ifs at hn with hpop
        · rw [Option.some.injEq] at hn
          subst hn
          exact ⟨heat.next fun hf => Game.popVirus_leads (d := d) (ho.mono hf) h.index,
            fun _ _ _ _ hc => by cases hc⟩
        · rw [Option.some.injEq] at hn
          subst hn
          refine ⟨heat, ?_⟩
          rintro g' cell' myLoop' loop' ⟨⟩
          exact ho.mono (heat.frame hw)
      · rw [if_neg hbig, if_neg fun hs => habsorbs ⟨d, hd, hs⟩, Option.some.injEq] at hn
        subst hn
        have hnote := Game.leads_noteCollide ho.1 hdlt
        refine ⟨hnote, ?_⟩
        rintro g' cell' myLoop' loop' ⟨⟩
        exact ho.mono (hnote.frame hw)

theorem Steady.next {i : ℕ} {pt pt' : DynamicPoint ℝ} (h : Steady i pt)
    (hn : pt.next i = some pt') : Steady i pt' := by
  obtain ⟨hleads, howned⟩ := h.step hn
  refine ⟨hleads.wellFormed h.wellFormed, ?_, howned⟩
  rw [Game.players_length (hleads.frame h.wellFormed)]
  exact h.index

theorem Steady.leads {i : ℕ} {pt pt' : DynamicPoint ℝ} (h : Steady i pt)
    (hl : Leads i pt pt') : Steady i pt' ∧ pt.game.calls <+: pt'.game.calls := by
  induction hl with
  | refl => exact ⟨h, List.prefix_rfl⟩
  | tail _ hn ih =>
    obtain ⟨hsteady, hcalls⟩ := ih
    exact ⟨hsteady.next hn,
      hcalls.trans ((hsteady.step hn).1.frame hsteady.wellFormed).calls⟩

end DynamicPoint

/-- The state in which `CollideDynamic` of player `n` starts. -/
def Game.beforeDynamic {K : Type} [Field K] [LinearOrder K] [FloorRing K] [Arith K] (g : Game K)
    (n : ℕ) : Game K := ((List.range n).foldl Game.collideOwn g).collideStatic n

theorem Game.beforeDynamic_steady {g : Game ℝ} (hw : g.WellFormed) {n : ℕ}
    (hn : n < g.players.length) : DynamicPoint.Steady n (.outer (g.beforeDynamic n) 0) := by
  have hleads : Game.Leads g (g.beforeDynamic n) := by
    refine (Game.collideOwns_leads _ _ fun i hi => ?_).trans (Game.collideStatic_leads _ n)
    exact (List.mem_range.mp hi).trans hn
  refine ⟨hleads.wellFormed hw, ?_, ?_⟩
  · show n < (g.beforeDynamic n).players.length
    rw [Game.players_length (hleads.frame hw)]
    exact hn
  · rintro g cell myLoop loop ⟨⟩

theorem Sys.replay_nothing {s : Sys ℝ} (hi : Invariant .idle s) (hg : s.game.Gone) (clock : ℝ) :
    (s.tickMoved clock).updateAll.game.parseEvents = (s.tickMoved clock).updateAll.game := by
  have hi₁ := Moves.invariant (Sys.tickMoved_moves s clock) hi
  have hmoves := (Sys.tickMoved_moves s clock).trans (Sys.updateAll_moves hi₁).1
  have hgone := (Moves.keeps (P := fun _ s => s.game.Gone) (fun a s b s' hi hm hg =>
    hm.gone hi hg) hmoves hi hg).2
  have hi₂ := Moves.invariant hmoves hi
  exact hgone.parseEvents hi₂.wellFormed hi₂.additions

/-- The containers between ticks, and what follows for the next tick: its replay of the removals
changes nothing, and no cell of the map absorbs a player's cell. -/
structure ContainersHold (r : Run ℝ) : Prop where
  contained : r.final.game.Contained
  replay : ∀ clock, (r.final.tickMoved clock).updateAll.game.parseEvents =
    (r.final.tickMoved clock).updateAll.game
  absorbs : ∀ clock n, n < (r.final.tickStart clock).game.players.length → ∀ pt,
    DynamicPoint.Leads n (.outer ((r.final.tickStart clock).game.beforeDynamic n) 0) pt →
    ¬ pt.Absorbs

theorem containers (r : Run ℝ) : ContainersHold r := by
  have hi := r.invariant
  refine ⟨hi.wellFormed.contained, Sys.replay_nothing hi r.gone, fun clock n hn pt hpt => ?_⟩
  have hw := (Moves.invariant (Sys.tickStart_moves r.final clock) hi).wellFormed
  exact ((Game.beforeDynamic_steady hw hn).leads hpt).1.not_absorbs

end Agar
