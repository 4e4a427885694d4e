import Agar.Containers
import Agar.Refresh

/-! The food of the map over whole runs: it stays where it was strewn, and every piece is in its
block until one collision phase reports it as eaten. -/

namespace Agar
open Trace

namespace Game
variable {g g' : Game ℝ} {c : CellPtr}

/-- No food and no cell of `DynamicMap` goes without a report. -/
structure Accounts (g g' : Game ℝ) : Prop where
  food : ∀ c, g'.Food c ↔ g.Food c
  once : g.cellEvents.removeStatic.Nodup → g'.cellEvents.removeStatic.Nodup
  herd : ∀ c, c ∈ g.dynamicMap ∨ c ∈ g.cellEvents.removeDynamic →
    c ∈ g'.dynamicMap ∨ c ∈ g'.cellEvents.removeDynamic

theorem Accounts.refl (g : Game ℝ) : Accounts g g := ⟨fun _ => Iff.rfl, id, fun _ => id⟩

theorem Accounts.trans {g'' : Game ℝ} (h : Accounts g g') (h' : Accounts g' g'') :
    Accounts g g'' :=
  ⟨fun c => (h'.food c).trans (h.food c), fun hn => h'.once (h.once hn),
    fun c hc => h'.herd c (h.herd c hc)⟩

theorem Accounts.of_static (hstatic : g'.staticMap = g.staticMap)
    (heaten : g'.cellEvents.removeStatic = g.cellEvents.removeStatic)
    (hdynamic : g.dynamicMap ⊆ g'.dynamicMap)
    (hdead : g.cellEvents.removeDynamic ⊆ g'.cellEvents.removeDynamic) : Accounts g g' := by
  refine ⟨fun c => ?_, fun hn => ?_, fun c hc => ?_⟩
  · unfold Food
    rw [hstatic, heaten]
  · rwa [heaten]
  · exact hc.imp (fun h => hdynamic h) fun h => hdead h

theorem killStatic_accounts (hw : WellFormed g) (hg : Gone g) {b : Vec2i} {loop : ℕ} {p : CellPtr}
    (h : (g.staticMap b)[loop]? = some p) :
    Accounts g ((g.pushRemoveStatic p).removeStaticAt b loop) := by
  have hp := List.mem_of_getElem? h
  have hfresh : p ∉ g.cellEvents.removeStatic := fun hmem => (hg.static p hmem).2 b hp
  have hmem : ∀ c b', c ∈ ((g.pushRemoveStatic p).removeStaticAt b loop).staticMap b' ↔
      c ∈ g.staticMap b' ∧ c ≠ p := by
    intro c b'
    show c ∈ (if b' = b then (g.staticMap b).eraseIdx loop else g.staticMap b') ↔ _
    split_ifs with hb
    · rw [hb]
      exact mem_eraseIdx_of_nodup (hw.static_nodup b) h c
    · refine ⟨fun hc => ⟨hc, ?_⟩, And.left⟩
      rintro rfl
      exact hb ((hw.static b' c hc).2.2.symm.trans (hw.static b c hp).2.2)
  refine ⟨fun c => ?_, fun hn => ?_, fun c hc => hc⟩
  · show (c ∈ g.cellEvents.removeStatic ++ [p] ∨ _) ↔ _
    simp only [hmem, List.mem_append, List.mem_singleton, Food]
    constructor
    · rintro ((heaten | rfl) | ⟨b', hc, -⟩)
      · exact Or.inl heaten
      · exact Or.inr ⟨b, hp⟩
      · exact Or.inr ⟨b', hc⟩
    · rintro (heaten | ⟨b', hc⟩)
      · exact Or.inl (Or.inl heaten)
      · by_cases hcp : c = p
        · exact Or.inl (Or.inr hcp)
        · exact Or.inr ⟨b', hc, hcp⟩
  · exact List.nodup_append.mpr ⟨hn, List.nodup_singleton p, fun c hc d hd hcd =>
      hfresh (List.mem_singleton.mp hd ▸ hcd ▸ hc)⟩

theorem Effect.keepsAccount (h : Effect g g') (hw : WellFormed g) (hg : Gone g) : Accounts g g' := by
  cases h with
  | killStatic b loop p h => exact killStatic_accounts hw hg h
  | killDynamic loop p h =>
    refine ⟨fun c => Iff.rfl, id, fun c hc => ?_⟩
    rcases hc with hc | hc
    · by_cases hcp : c = p
      · subst hcp
        exact Or.inr (List.mem_append_right _ (List.mem_singleton_self c))
      · exact Or.inl ((mem_eraseIdx_of_nodup hw.dynamic_nodup h c).mpr ⟨hc, hcp⟩)
    · exact Or.inr (List.mem_append_left _ hc)
  | eject c => exact .of_static rfl rfl (List.subset_append_left _ _) (List.Subset.refl _)
  | kill i loop p h => exact .of_static rfl rfl (List.Subset.refl _) (List.subset_append_left _ _)
  | stray i myLoop p slot hp hslot =>
    obtain ⟨-, -, h3, h4, h5, -, -⟩ :=
      eraseCellAt_frame ((g.note (.absorb p slot)).pushRemoveDynamic p) i myLoop
    refine .of_static h3 (by rw [h5]; rfl) (by rw [h4]; exact List.Subset.refl _) ?_
    rw [h5]
    exact List.subset_append_left _ _
  | _ => exact .of_static rfl rfl (List.Subset.refl _) (List.Subset.refl _)

theorem accounts_of_effects (h : Relation.ReflTransGen Effect g g') (hw : WellFormed g)
    (hg : Gone g) : Accounts g g' := by
  induction h with
  | refl => exact Accounts.refl g
  | tail h he ih =>
    exact ih.trans (he.keepsAccount (wellFormed_of_effects h hw) (gone_of_effects h hw hg))

theorem WellFormed.food_not_player (hw : WellFormed g) (hc : c < maxFood) :
    (g.heap c).flag ≠ playerFlag := fun hflag =>
  absurd (hw.owned_food c ⟨hc.trans_le hw.food_le, hflag⟩) (not_le.mpr hc)

theorem food_iff_of_none (h : g.cellEvents.removeStatic = []) (c : CellPtr) :
    g.Food c ↔ ∃ b, c ∈ g.staticMap b := by
  unfold Food
  rw [h]
  exact or_iff_right List.not_mem_nil

end Game

theorem Sys.updateAt_frame {s : Sys ℝ} (hw : s.game.WellFormed) {n : ℕ} {p : Player ℝ}
    (hp : s.game.players[n]? = some p) :
    Game.Drift s.game (s.game.commands n p) ∧ Game.Grows s.game (s.game.commands n p) ∧
    (s.updateAt n).game.allocated = (s.game.commands n p).allocated ∧
    (s.updateAt n).game.heap = (s.game.commands n p).heap ∧
    (s.updateAt n).game.staticMap = (s.game.commands n p).staticMap ∧
    (s.updateAt n).game.dynamicMap = (s.game.commands n p).dynamicMap ∧
    (s.updateAt n).game.cellEvents = (s.game.commands n p).cellEvents := by
  unfold Sys.updateAt
  rw [hp]
  exact ⟨(Game.commands_spec hw hp).2.1, Game.commands_grows s.game n p, rfl, rfl, rfl, rfl, rfl⟩

theorem Move.heap_food {a b : Stage} {s s' : Sys ℝ} (h : Move (a, s) (b, s')) (hi : Invariant a s)
    (hg : s.game.Gone) {c : CellPtr} (hc : c < maxFood) : s'.game.heap c = s.game.heap c := by
  have hw := hi.wellFormed
  have hlt : c < s.game.allocated := hc.trans_le hw.food_le
  have hflag := hw.food_not_player hc
  have hstill : Game.Still s.game s'.game → s'.game.heap c = s.game.heap c :=
    fun hs => hs.others c hlt hflag
  cases h with
  | begin _ clock =>
    have hm := Game.updateDynamic_motion (s.game.beginTick clock) (clock - s.game.currentTime)
    exact hm.others c fun hd => absurd hc (not_lt.mpr (hw.dynamic c hd).1)
  | kick _ x hx => exact hstill ((Move.kick s x hx).still hi)
  | collide _ => exact ((Game.collisionPhase_leads s.game).frame hw).others c hlt hflag
  | drive _ dt =>
    refine (Game.drive_motion s.game dt).others c fun hd => ?_
    obtain ⟨i, hd⟩ := Game.mem_playerCells.mp hd
    exact absurd hc (not_lt.mpr (hw.owned_food c (hw.owned i c hd)))
  | update _ n p hp =>
    obtain ⟨hd, -, -, hheap, -⟩ := Sys.updateAt_frame hw hp
    rw [hheap]
    exact hd.others c hlt hflag
  | replay _ n hn =>
    show s.game.parseEvents.heap c = _
    rw [hg.parseEvents hw hi.additions]
  | send _ clock accepts i => exact hstill ((Move.send s clock accepts i).still hi)
  | join _ w grown hnew => exact hstill ((Move.join s w grown hnew).still hi)
  | receive _ w packet beyond => exact hstill ((Move.receive s w packet beyond).still hi)
  | close _ x hx => exact hstill ((Move.close s x hx).still hi)

namespace Game

theorem addFood_stored {g : Game ℝ} {n : ℕ} (h : Seeded g n) (hn : n < 2 ^ 32)
    (hall : ∀ c < n, ∃ b, c ∈ g.staticMap b) : ∀ c < n + 1, ∃ b, c ∈ g.addFood.staticMap b := by
  -- the state before `AddStatic`
  let g1 := (g.randomPosition.2.randomColor.2.newCell foodRadius g.randomPosition.1
    g.randomPosition.2.randomColor.1).2.setFlag g.allocated fun f => { f with isFood := true }
  have hg1 : g.addFood = g1.addStatic g.allocated := rfl
  have hold : ∀ q, q ≠ g.allocated → g1.heap q = g.heap q := fun q hq => by
    simp [g1, newCell, randomPosition, randomColor, nextRand, setFlag, setCell, hq]
  have hnew : (g1.heap g.allocated).id = BitVec.ofNat 32 g.allocated := by
    simp [g1, newCell, randomPosition, randomColor, nextRand, setFlag, setCell]
  have hfree : ((g1.staticMap (indexFromCoord (g1.heap g.allocated).position)).any fun q =>
      decide ((g1.heap g.allocated).id = (g1.heap q).id)) = false := by
    refine List.any_eq_false.mpr fun q hq hid => ?_
    have hlt : q < n := (h.static _ q hq).1
    have heq := of_decide_eq_true hid
    rw [hnew, hold q (by rw [h.allocated]; exact hlt.ne), (h.cell q hlt).1, h.allocated] at heq
    have hnat := congrArg BitVec.toNat heq
    rw [BitVec.toNat_ofNat, BitVec.toNat_ofNat, Nat.mod_eq_of_lt hn,
      Nat.mod_eq_of_lt (hlt.trans hn)] at hnat
    exact hlt.ne hnat.symm
  have hadd : g.addFood.staticMap = fun b' =>
      if b' = indexFromCoord (g1.heap g.allocated).position then
        g1.staticMap (indexFromCoord (g1.heap g.allocated).position) ++ [g.allocated]
      else g1.staticMap b' := by
    rw [hg1]
    unfold addStatic
    dsimp only
    rw [if_neg (by rw [hfree]; decide)]
  intro c hc
  rw [hadd]
  rcases Nat.lt_or_eq_of_le (Nat.lt_succ_iff.mp hc) with hlt | rfl
  · obtain ⟨b, hb⟩ := hall c hlt
    refine ⟨b, ?_⟩
    dsimp only
    split_ifs with heq
    · exact List.mem_append_left _ (heq ▸ hb)
    · exact hb
  · refine ⟨indexFromCoord (g1.heap g.allocated).position, ?_⟩
    dsimp only
    rw [if_pos rfl, h.allocated]
    exact List.mem_append_right _ (List.mem_singleton_self c)

theorem iterate_seeded (rand : ℕ → Fin (randMax + 1)) (stale : CellPtr → ℝ) (n : ℕ) :
    Seeded (addFood^[n] (empty rand stale)) n := by
  induction n with
  | zero =>
    exact ⟨rfl, fun _ h => absurd h (Nat.not_lt_zero _), fun _ _ h => by simp [empty] at h,
      fun _ => List.nodup_nil, rfl, rfl, rfl, rfl⟩
  | succ n ih =>
    rw [Function.iterate_succ_apply']
    exact addFood_seeded ih

theorem mapInit_stored (rand : ℕ → Fin (randMax + 1)) (stale : CellPtr → ℝ) :
    ∀ c < maxFood, ∃ b, c ∈ ((empty rand stale).mapInit).staticMap b := by
  have hfood : ∀ n ≤ maxFood, ∀ c < n, ∃ b, c ∈ (addFood^[n] (empty rand stale)).staticMap b := by
    intro n hn
    induction n with
    | zero => exact fun c hc => absurd hc (Nat.not_lt_zero c)
    | succ n ih =>
      rw [Function.iterate_succ_apply']
      exact addFood_stored (iterate_seeded rand stale n) (hn.trans (by decide)) (ih (by omega))
  have hvirus : ∀ n (g : Game ℝ), (addVirus^[n] g).staticMap = g.staticMap := by
    intro n
    induction n with
    | zero => exact fun g => rfl
    | succ n ih =>
      intro g
      rw [Function.iterate_succ_apply, ih]
      rfl
  unfold mapInit
  rw [hvirus]
  exact hfood maxFood le_rfl

end Game

/-- The food that the collision phase here reports as eaten. -/
def Obs.eaten {K : Type} : Obs K → List CellPtr
  | .collided _ after => after.cellEvents.removeStatic
  | _ => []

/-- The food eaten in the trace, in the order of the reports. -/
def eaten {K : Type} (tr : List (Obs K)) : List CellPtr := tr.flatMap Obs.eaten

theorem eaten_append_of_none {tr os : List (Obs ℝ)} (h : ∀ o ∈ os, o.eaten = []) :
    eaten (tr ++ os) = eaten tr := by
  unfold eaten
  rw [List.flatMap_append, List.flatMap_eq_nil_iff.mpr h, List.append_nil]

/-- The food in the blocks. -/
def Game.larder {K : Type} (g : Game K) : List CellPtr := blockGrid.flatMap g.staticMap

namespace Game
variable {g : Game ℝ}

theorem mem_blockGrid {b : Vec2i} (hx : 0 ≤ b.x ∧ b.x < numBlocks)
    (hy : 0 ≤ b.y ∧ b.y < numBlocks) : b ∈ blockGrid := by
  have hline : ∀ n : ℤ, 0 ≤ n ∧ n < numBlocks → n ∈ gridLine := fun n hn =>
    List.mem_map.mpr ⟨n.toNat, List.mem_range.mpr (by omega), by omega⟩
  rw [blockGrid_eq]
  exact List.mem_flatMap.mpr ⟨b.x, hline _ hx, List.mem_map.mpr ⟨b.y, hline _ hy, rfl⟩⟩

theorem WellFormed.mem_larder (hw : WellFormed g) {c : CellPtr} :
    c ∈ g.larder ↔ ∃ b, c ∈ g.staticMap b := by
  unfold larder
  rw [List.mem_flatMap]
  constructor
  · exact fun ⟨b, _, hc⟩ => ⟨b, hc⟩
  · rintro ⟨b, hc⟩
    refine ⟨b, ?_, hc⟩
    rw [← (hw.static b c hc).2.2]
    exact mem_blockGrid (indexFromCoord_bounds _).1 (indexFromCoord_bounds _).2

theorem WellFormed.larder_nodup (hw : WellFormed g) : g.larder.Nodup :=
  (List.nodup_append.mp hw.stored_nodup).1

end Game

/-- Every food of the start is in the map or has been eaten once. -/
structure Stocked (s : Sys ℝ) : Prop where
  gone : s.game.Gone
  all : ∀ c, c < maxFood ↔ (∃ b, c ∈ s.game.staticMap b) ∨ c ∈ eaten s.trace
  off : ∀ c ∈ eaten s.trace, ∀ b, c ∉ s.game.staticMap b
  once : (eaten s.trace).Nodup

theorem Stocked.keep {s s' : Sys ℝ} (h : Stocked s) (hgone : s'.game.Gone)
    (hstatic : s'.game.staticMap = s.game.staticMap) {l : List (Obs ℝ)}
    (htrace : s'.trace = s.trace ++ l) (hos : ∀ o ∈ l, o.eaten = []) : Stocked s' := by
  have heaten : eaten s'.trace = eaten s.trace := by rw [htrace, eaten_append_of_none hos]
  refine ⟨hgone, fun c => ?_, ?_, ?_⟩
  · rw [hstatic, heaten]
    exact h.all c
  · rw [hstatic, heaten]
    exact h.off
  · rw [heaten]
    exact h.once

theorem Stocked.collide {s : Sys ℝ} (h : Stocked s) (hi : Invariant .started s)
    (hgone : s.collide.game.Gone) : Stocked s.collide := by
  have hevents : s.game.cellEvents = {} := hi.tidy
  have hacc := Game.accounts_of_effects (Game.collisionPhase_leads s.game hi.wellFormed)
    hi.wellFormed h.gone
  have heaten : eaten s.collide.trace =
      eaten s.trace ++ s.collide.game.cellEvents.removeStatic := by
    unfold eaten
    show (s.trace ++ [Obs.collided s.game s.game.collisionPhase]).flatMap Obs.eaten = _
    rw [List.flatMap_append, List.flatMap_singleton]
    rfl
  have hfood : ∀ c, s.collide.game.Food c ↔ ∃ b, c ∈ s.game.staticMap b := fun c =>
    (hacc.food c).trans (Game.food_iff_of_none (by rw [hevents]) c)
  have hreported : ∀ c ∈ s.collide.game.cellEvents.removeStatic, ∃ b, c ∈ s.game.staticMap b :=
    fun c hc => (hfood c).mp (Or.inl hc)
  have hleft : ∀ c b, c ∈ s.collide.game.staticMap b → ∃ b, c ∈ s.game.staticMap b :=
    fun c b hc => (hfood c).mp (Or.inr ⟨b, hc⟩)
  refine ⟨hgone, fun c => ?_, fun c hc b hb => ?_, ?_⟩
  · rw [heaten, List.mem_append, h.all c, ← hfood c]
    unfold Game.Food
    tauto
  · rw [heaten] at hc
    rcases List.mem_append.mp hc with hc | hc
    · obtain ⟨b', hb'⟩ := hleft c b hb
      exact h.off c hc b' hb'
    · exact (hgone.static c hc).2 b hb
  · rw [heaten]
    refine List.nodup_append.mpr ⟨h.once, hacc.once (by rw [hevents]; exact List.nodup_nil), ?_⟩
    rintro c hc d hd rfl
    obtain ⟨b, hb⟩ := hreported c hd
    exact h.off c hc b hb

theorem Move.stocked {a b : Stage} {s s' : Sys ℝ} (h : Move (a, s) (b, s')) (hi : Invariant a s)
    (hs : Stocked s) : Stocked s' := by
  have hw := hi.wellFormed
  have hgone := h.gone hi hs.gone
  cases h with
  | begin _ clock =>
    have hm := Game.updateDynamic_motion (s.game.beginTick clock) (clock - s.game.currentTime)
    exact hs.keep hgone hm.static (List.append_nil _).symm fun o ho => by cases ho
  | kick _ x hx => exact hs.keep hgone rfl rfl (by simp [Obs.eaten])
  | collide _ => exact hs.collide hi hgone
  | drive _ dt =>
    exact hs.keep hgone (Game.drive_motion s.game dt).static (List.append_nil _).symm
      fun o ho => by cases ho
  | update _ n p hp =>
    obtain ⟨-, hgrows, -, -, hstatic, -⟩ := Sys.updateAt_frame hw hp
    refine hs.keep (l := [.updated (s.game.updatePlayer n p), .requested p.wsi]) hgone
      (hstatic.trans hgrows.static) ?_ (by simp [Obs.eaten])
    unfold Sys.updateAt
    rw [hp]
  | replay _ n hn =>
    refine hs.keep hgone ?_ rfl (by simp [Obs.eaten])
    show s.game.parseEvents.staticMap = _
    rw [hs.gone.parseEvents hw hi.additions]
  | send _ clock accepts i =>
    rcases Sys.sendAt_cases s clock accepts i with h | ⟨p, -, -, -, h⟩
    · exact hs.keep hgone (by rw [h]) (by rw [h, List.append_nil]) fun o ho => by cases ho
    · exact hs.keep (l := [.wrote p.wsi clock p.wsMessage.pending]) hgone (by rw [h]; rfl)
        (by rw [h]) (by simp [Obs.eaten])
  | join _ w grown hnew => exact hs.keep hgone rfl rfl (by simp [Obs.eaten])
  | receive _ w packet beyond =>
    have hstatic := ((Move.receive s w packet beyond).still hi).static
    unfold Sys.receive at hstatic hgone ⊢
    dsimp only at hstatic hgone ⊢
    split_ifs at hstatic hgone ⊢
    · exact hs.keep (l := [.received w packet]) hgone hstatic rfl (by simp [Obs.eaten])
    · exact hs.keep (l := [.received w packet, .requested w]) hgone hstatic
        (by simp [Sys.observe]) (by simp [Obs.eaten])
  | close _ x hx => exact hs.keep hgone rfl rfl (by simp [Obs.eaten])

theorem init_stocked (rand : ℕ → Fin (randMax + 1)) (stale : CellPtr → ℝ) :
    Stocked (Sys.init rand stale) := by
  have hw := (init_invariant rand stale).wellFormed
  refine ⟨init_gone rand stale, fun c => ?_, fun c hc => (by cases hc), List.nodup_nil⟩
  constructor
  · exact fun hc => Or.inl (Game.mapInit_stored rand stale c hc)
  · rintro (⟨b, hc⟩ | hc)
    · exact (hw.static b c hc).1
    · cases hc

/-- The food of the start is in the map or has been eaten, each piece once, and none of it has
changed. -/
structure FoodKept (r : Run ℝ) : Prop where
  shared : (r.final.game.larder ++ eaten r.final.trace).Perm (List.range maxFood)
  unchanged : ∀ c < maxFood, r.final.game.heap c = (Sys.init r.rand r.stale).game.heap c

/-- In every run the food in the blocks and the food reported as eaten by all collision phases are
together the thousand pieces of the start. -/
theorem food_kept (r : Run ℝ) : FoodKept r := by
  have hstocked : Stocked r.final :=
    Run.induction (P := fun _ s => Stocked s) init_stocked (fun _ _ _ _ hi hm hs =>
      hm.stocked hi hs) r
  have hw := r.invariant.wellFormed
  refine ⟨?_, fun c hc => ?_⟩
  · refine (List.perm_ext_iff_of_nodup (List.nodup_append.mpr ⟨hw.larder_nodup, hstocked.once,
      ?_⟩) List.nodup_range).mpr fun c => ?_
    · rintro c hc d hd rfl
      obtain ⟨b, hb⟩ := hw.mem_larder.mp hc
      exact hstocked.off c hd b hb
    · rw [List.mem_append, hw.mem_larder, List.mem_range, hstocked.all c]
  · have hkept := Moves.keeps (P := fun _ s => s.game.Gone ∧
        s.game.heap c = (Sys.init r.rand r.stale).game.heap c)
      (fun a s b s' hi hm hs => ⟨hm.gone hi hs.1, (hm.heap_food hi hs.1 hc).trans hs.2⟩)
      (Sys.steps_moves (init_invariant r.rand r.stale) r.events)
      (init_invariant r.rand r.stale) ⟨init_gone r.rand r.stale, rfl⟩
    exact hkept.2.2

end Agar
