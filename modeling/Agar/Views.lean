import Agar.Commands
import Agar.Containers
import Agar.Pacing
import Agar.Rejoining

/-! The two tests for the view of a player: a cell enters its history when its edge is in the view,
and stays in it while its center is. -/

namespace Agar
open MovedVector Trace

/-- A cell with its center on the map passes the test of the events in every view in which it passes
that of the history, with the same block. -/
theorem retained_gets_events (c : Cell ℝ) (start stop b : Vec2i)
    (hx : 0 ≤ c.position.x ∧ c.position.x < (mapSize : ℝ))
    (hy : 0 ≤ c.position.y ∧ c.position.y < (mapSize : ℝ)) (hradius : 0 ≤ c.radius)
    (h : inside c.position start stop = some b) : edgeInside c start stop = some b :=
  edgeInside_of_inside hx hy hradius h

/-- A food in the middle of a block. -/
noncomputable def wayside : Cell ℝ where
  force := 0
  acceleration := 0
  velocity := 0
  position := ⟨150, 150⟩
  id := 0
  color := 0
  flag := foodFlag
  radius := foodRadius
  mouseVector := 0
  combineTime := 0
  combineSet := false

theorem wayside_gets_events : inside wayside.position ⟨1, 1⟩ ⟨1, 1⟩ = some ⟨1, 1⟩ ∧
    edgeInside wayside ⟨1, 1⟩ ⟨1, 1⟩ = some ⟨1, 1⟩ := by
  have hcoord : trunc (150 : ℝ) = 150 := by exact_mod_cast trunc_natCast 150
  have hinside : inside wayside.position ⟨1, 1⟩ ⟨1, 1⟩ = some ⟨1, 1⟩ := by
    have hblock : indexFromCoord wayside.position = ⟨1, 1⟩ := by
      unfold indexFromCoord wayside
      norm_num [hcoord, mapSize, numBlocks, blockSize]
    unfold inside
    simp [hblock]
  refine ⟨hinside, retained_gets_events wayside ⟨1, 1⟩ ⟨1, 1⟩ ⟨1, 1⟩ ?_ ?_ ?_ hinside⟩
  · norm_num [wayside, mapSize, numBlocks, blockSize]
  · norm_num [wayside, mapSize, numBlocks, blockSize]
  · norm_num [wayside, foodRadius]

namespace Game
variable {g g' : Game ℝ}

/-- The cells reported as dead are in no container. -/
def Buried (g : Game ℝ) : Prop :=
  ∀ p ∈ g.cellEvents.removeDynamic, p < g.allocated ∧ ¬ g.Alive p

theorem Drift.alive (h : Drift g g') {p : CellPtr} (hp : p < g.allocated) (ha : g'.Alive p) :
    g.Alive p := by
  rcases ha with ⟨b, hb⟩ | hd | ⟨i, hi⟩
  · exact Or.inl ⟨b, (h.static b).subset hb⟩
  · exact Or.inr (Or.inl (h.dynamic p hp hd))
  · exact Or.inr (Or.inr ⟨i, h.cells i p hp hi⟩)

theorem Buried.step (hb : Buried g) (hallocated : g.allocated ≤ g'.allocated)
    (halive : ∀ p < g.allocated, g'.Alive p → g.Alive p)
    (hnew : ∀ p ∈ g'.cellEvents.removeDynamic, p ∈ g.cellEvents.removeDynamic ∨
      p < g.allocated ∧ ¬ g'.Alive p) : Buried g' := by
  intro p hp
  rcases hnew p hp with hp | ⟨hlt, hdead⟩
  · obtain ⟨hlt, hdead⟩ := hb p hp
    exact ⟨hlt.trans_le hallocated, fun ha => hdead (halive p hlt ha)⟩
  · exact ⟨hlt.trans_le hallocated, hdead⟩

theorem Effect.buried (h : Effect g g') (hw : WellFormed g) (hb : Buried g) : Buried g' := by
  have hdrift := h.frame.toDrift
  refine hb.step hdrift.allocated (fun p hp => hdrift.alive hp) ?_
  cases h with
  | killDynamic loop p h =>
    intro q hq
    refine (List.mem_append.mp hq).imp_right fun hq => ?_
    rw [List.mem_singleton.mp hq]
    exact ⟨(hw.dynamic p (List.mem_of_getElem? h)).2.1,
      fun ha => ((alive_killDynamic hw h p).mp ha).2 rfl⟩
  | kill i loop p h =>
    intro q hq
    refine (List.mem_append.mp hq).imp_right fun hq => ?_
    rw [List.mem_singleton.mp hq]
    exact ⟨(hw.owned i p (List.mem_of_getElem? h)).1, fun ha => ((alive_kill hw h p).mp ha).2 rfl⟩
  | stray i myLoop p slot hp hslot =>
    rw [(eraseCellAt_frame ((g.note (.absorb p slot)).pushRemoveDynamic p) i myLoop).2.2.2.2.1]
    intro q hq
    rcases List.mem_append.mp hq with hq | hq
    · exact Or.inl hq
    · exact Or.inl (List.mem_singleton.mp hq ▸ hp)
  | _ => exact fun q hq => Or.inl hq

theorem buried_of_effects (h : Relation.ReflTransGen Effect g g') (hw : WellFormed g)
    (hb : Buried g) : Buried g' := by
  induction h with
  | refl => exact hb
  | tail h he ih => exact he.buried (wellFormed_of_effects h hw) ih

theorem Buried.commands (hb : Buried g) (hw : WellFormed g) {i : ℕ} {p : Player ℝ}
    (hp : g.players[i]? = some p) : (g.commands i p).Buried := by
  have hdrift := (commands_spec hw hp).2.1
  refine hb.step hdrift.allocated (fun q hq ha => hdrift.alive hq ha) fun q hq => Or.inl ?_
  rwa [(commands_grows g i p).events] at hq

end Game

/-- After the collisions of a tick the cells reported as dead are in no container. -/
def Mourned : Stage → Game ℝ → Prop
  | .collided, g => g.Buried
  | .updating _, g => g.Buried
  | _, _ => True

theorem Move.mourned {a b : Stage} {s s' : Sys ℝ} (h : Move (a, s) (b, s')) (hi : Invariant a s)
    (hm : Mourned a s.game) : Mourned b s'.game := by
  have hw := hi.wellFormed
  cases h with
  | collide _ =>
    have hevents : s.game.cellEvents = {} := hi.tidy
    refine Game.buried_of_effects (Game.collisionPhase_leads s.game hw) hw fun p hp => ?_
    rw [hevents] at hp
    cases hp
  | drive _ dt =>
    have hmotion := Game.drive_motion s.game dt
    have hb : s.game.Buried := hm
    refine hb.step hmotion.allocated.ge (fun p _ ha => ?_) fun p hp => ?_
    · have ha' : (s.game.drive dt).Alive p := ha
      unfold Game.Alive at ha' ⊢
      simpa only [hmotion.static, hmotion.dynamic, Game.cellsOf_congr hmotion.players] using ha'
    · have hp' : p ∈ (s.game.drive dt).cellEvents.removeDynamic := hp
      rw [hmotion.removeDynamic] at hp'
      exact Or.inl hp'
  | update _ n p hp =>
    unfold Sys.updateAt
    rw [hp]
    refine (Game.Buried.commands hm hw hp).step le_rfl (fun q _ ha => ?_) fun q hq => Or.inl hq
    have ha' : (s.game.updatePlayer n p).after.Alive q := ha
    unfold Game.Alive at ha' ⊢
    simp only [Game.after_cellsOf hw hp] at ha'
    exact ha'
  | _ => trivial

/-- What a player looks at is what its last update has left, if it has been updated since it was
created. -/
def Remembered (tr : List (Obs ℝ)) (v : Sight) : Prop :=
  ∀ a u m, life v.wsi tr = a ++ .updated u :: m → u.player.wsi = v.wsi →
    (∀ o ∈ m, o.updates v.wsi = false) → v = u.finished.player.sight

theorem Remembered.append {tr os : List (Obs ℝ)} {v : Sight} (h : Remembered tr v)
    (hos : ∀ o ∈ os, o.joins v.wsi = false ∧ o.updates v.wsi = false) :
    Remembered (tr ++ os) v := by
  intro a u m heq hu hm
  have hlife : life v.wsi (tr ++ os) = life v.wsi tr ++ os :=
    since_append_of_unmarked fun o ho => (hos o ho).1
  rw [hlife] at heq
  obtain ⟨m', hl, rfl⟩ := split_before (Obs.updates v.wsi) heq (by simp [Obs.updates, hu])
    fun o ho => (hos o ho).2
  exact h a u m' hl hu fun o ho => hm o (List.mem_append_left os ho)

theorem remembered_update (tr : List (Obs ℝ)) {u : UpdateRecord ℝ} {v : Sight}
    (hv : v = u.finished.player.sight) (hwsi : u.player.wsi = v.wsi) :
    Remembered (tr ++ [.updated u]) v := by
  intro a u' m heq hu' hm
  have hlife : life v.wsi (tr ++ [.updated u]) = life v.wsi tr ++ [.updated u] :=
    since_append_of_unmarked fun o ho => by rw [List.mem_singleton.mp ho]; rfl
  rw [hlife] at heq
  rcases m.eq_nil_or_concat with rfl | ⟨m', o, rfl⟩
  · obtain ⟨-, h⟩ := List.append_inj' heq rfl
    injection List.singleton_inj.mp h with hsame
    rw [← hsame]
    exact hv
  · have hlast : life v.wsi tr ++ [.updated u] = (a ++ .updated u' :: m') ++ [o] := by
      rw [heq]
      simp
    obtain ⟨-, h⟩ := List.append_inj' hlast rfl
    have ho := hm o (by simp)
    rw [← List.singleton_inj.mp h] at ho
    simp [Obs.updates, hwsi] at ho

theorem Shift.remembered {a : Stage} {s s' : Sys ℝ} (h : Shift s s') (hi : Invariant a s)
    (hs : ∀ v ∈ s.sights, Remembered s.trace v) : ∀ v ∈ s'.sights, Remembered s'.trace v := by
  cases h with
  | quiet hplayers os htrace hquiet =>
    have hsights : s'.sights = s.sights := map_of_core (f := Player.sight) (fun _ => rfl) hplayers
    rw [hsights, htrace]
    refine fun v hv => (hs v hv).append fun o ho => ?_
    rcases hquiet o ho with ⟨g, -, -, rfl⟩ | ⟨g, rfl⟩ <;> exact ⟨rfl, rfl⟩
  | erase x hx hplayers htrace =>
    have hsights : s'.sights = s.sights.eraseIdx x := by
      unfold Sys.sights
      rw [hplayers, eraseAt_carried sight_carried]
    rw [hsights, htrace]
    refine fun v hv => (hs v ((List.eraseIdx_sublist _ _).subset hv)).append fun o ho => ?_
    rw [List.mem_singleton.mp ho]
    exact ⟨rfl, rfl⟩
  | update i p hp hplayers htrace =>
    have hwsi := (Game.finished_player hi.wellFormed hp).1
    have hsights : s'.sights =
        s.sights.set i (s.game.updatePlayer i p).finished.player.sight :=
      map_of_core_set (f := Player.sight) (fun _ => rfl) hplayers
    have htrace' : s'.trace = (s.trace ++ [.updated (s.game.updatePlayer i p)]) ++
        [.requested p.wsi] := by rw [htrace]; simp
    rw [hsights, htrace']
    intro v hv
    have hrequested : ∀ o ∈ [Obs.requested (K := ℝ) p.wsi],
        o.joins v.wsi = false ∧ o.updates v.wsi = false := fun o ho => by
      rw [List.mem_singleton.mp ho]
      exact ⟨rfl, rfl⟩
    obtain ⟨j, hj⟩ := List.mem_iff_getElem?.mp hv
    by_cases hij : i = j
    · subst hij
      have hlt : i < s.sights.length := by
        simpa [Sys.sights] using Game.getElem?_lt hp
      rw [List.getElem?_set_self hlt] at hj
      have hlast := remembered_update s.trace (Option.some.inj hj).symm
        (by rw [← Option.some.inj hj]; exact hwsi.symm)
      exact hlast.append hrequested
    · rw [List.getElem?_set_ne hij, Sys.sights, List.getElem?_map] at hj
      obtain ⟨q, hq, rfl⟩ := Option.map_eq_some_iff.mp hj
      have hne : p.wsi ≠ q.wsi := key_ne hi.distinct hp hq hij
      have hold := hs q.sight (List.mem_map_of_mem (List.mem_of_getElem? hq))
      refine Remembered.append (hold.append fun o ho => ?_) hrequested
      rw [List.mem_singleton.mp ho]
      exact ⟨rfl, decide_eq_false hne⟩
  | write i p clock hp hcan hpending hplayers htrace =>
    have hsights : s'.sights = s.sights := by
      unfold Sys.sights
      rw [hplayers, List.map_set]
      exact map_set_same hp rfl
    rw [hsights, htrace]
    refine fun v hv => (hs v hv).append fun o ho => ?_
    rw [List.mem_singleton.mp ho]
    exact ⟨rfl, rfl⟩
  | join p hwsi hsend hmessage hhistory hblocks hsplit hfeed hplayers htrace =>
    have hsights : s'.sights = s.sights ++ [p.sight] := by
      unfold Sys.sights
      rw [hplayers, emplaceBack_carried sight_carried]
    rw [hsights, htrace]
    intro v hv
    rcases List.mem_append.mp hv with hv | hv
    · obtain ⟨q, hq, rfl⟩ := List.mem_map.mp hv
      refine (hs _ hv).append fun o ho => ?_
      rw [List.mem_singleton.mp ho]
      exact ⟨decide_eq_false (hwsi q hq), rfl⟩
    · rw [List.mem_singleton.mp hv]
      intro a u m heq
      have hlife : life p.sight.wsi (s.trace ++ [.joined p s.game s'.game]) = [] := by
        unfold life
        rw [since_snoc, if_pos (by exact decide_eq_true rfl)]
      rw [hlife] at heq
      simp at heq
  | receive w packet hplayers os htrace hquiet =>
    have hsights : s'.sights = s.sights := by
      unfold Sys.sights
      rw [hplayers, List.map_map]
      exact List.map_congr_left fun p _ => p.sight_received w packet
    rw [hsights, htrace]
    refine fun v hv => (hs v hv).append fun o ho => ?_
    rcases List.mem_cons.mp ho with rfl | ho
    · exact ⟨rfl, rfl⟩
    · obtain ⟨w', rfl⟩ := hquiet o ho
      exact ⟨rfl, rfl⟩

/-- The cell is in `DynamicMap` or with a player. -/
def Game.Roams (g : Game ℝ) (c : CellPtr) : Prop := c ∈ g.dynamicMap ∨ ∃ i, c ∈ g.cellsOf i

/-- A live cell that is in `CELL_MOVE` and reaches into the view at the `ParseEvents` of the
update. -/
structure Shown (u : UpdateRecord ℝ) (c : CellPtr) : Prop where
  roams : u.commanded.Roams c
  moved : c ∈ u.commanded.cellEvents.move
  touches : u.player.touches u.commanded c = true

/-- The cell is shown in two updates with the same view, and no other cell has its ID. -/
structure Stays (u u' : UpdateRecord ℝ) (c : CellPtr) : Prop where
  before : Shown u c
  after : Shown u' c
  topLeft : u'.player.topLeft = u.player.topLeft
  bottomRight : u'.player.bottomRight = u.player.bottomRight
  alone : ∀ d < u'.commanded.allocated,
    (u'.commanded.heap d).id = (u'.commanded.heap c).id → d = c

/-- A message that adds the cell of the ID or removes it. -/
def Msg.Turns (id : BitVec 32) : Msg ℝ → Prop
  | .addCell id' _ _ _ _ _ => id' = id
  | .removeCell id' => id' = id
  | _ => False

/-- The client is told to add or to remove the cell. -/
def UpdateRecord.Flaps (u : UpdateRecord ℝ) (c : CellPtr) : Prop :=
  ∃ m ∈ u.finished.said, m.Turns (u.commanded.heap c).id

/-- An update leaves the cells that stayed in view alone if and only if their centers are in view. -/
def Unflapping (tr : List (Obs ℝ)) (u' : UpdateRecord ℝ) : Prop :=
  ∀ a u m, life u'.player.wsi tr = a ++ .updated u :: m → u.player.wsi = u'.player.wsi →
    (∀ o ∈ m, o.updates u'.player.wsi = false) →
    ∀ c, Stays u u' c → (¬ u'.Flaps c ↔ u'.player.sees u'.commanded c = true)

theorem Game.Roams.alive {g : Game ℝ} {c : CellPtr} (h : g.Roams c) : g.Alive c := Or.inr h

theorem Digested.keeps {u : UpdateRecord ℝ} {ds : List CellPtr} (h : Digested u ds)
    (hb : u.commanded.Buried) {c : CellPtr} (hc : Shown u c) :
    c ∈ u.finished.player.cellHistory := by
  have hsame : u.finished.player.cellHistory = u.parsed.player.cellHistory :=
    congrArg Sight.history h.sight
  rw [hsame, h.history, List.mem_filter]
  refine ⟨Player.mem_known.mpr ?_, ?_⟩
  · by_cases hkept : c ∈ u.player.kept u.commanded
    · exact Or.inl (List.mem_filter.mp hkept)
    · exact Or.inr ⟨hc.moved, hc.touches, hkept⟩
  · refine decide_eq_true fun hds => ?_
    exact (hb c ((h.deleted.mem c).mp hds).1).2 hc.roams.alive

theorem Digested.flaps {u : UpdateRecord ℝ} {ds : List CellPtr} (h : Digested u ds) {c : CellPtr}
    (hhistory : c ∈ u.player.cellHistory) (hout : u.player.sees u.commanded c = false) :
    u.Flaps c := by
  refine ⟨.removeCell (u.commanded.heap c).id, ?_, rfl⟩
  rw [h.finished, h.said]
  simp only [Outgoing.parseSaid, List.append_assoc]
  refine List.mem_append_left _ (List.mem_map_of_mem (List.mem_filter.mpr ⟨hhistory, ?_⟩))
  rw [hout]
  rfl

theorem blockSaid_turns {g : Game ℝ} {old new : Player ℝ} {m : Msg ℝ} {id : BitVec 32}
    (hm : m ∈ Outgoing.blockSaid g old new) (hid : m.Turns id) :
    ∃ b, ∃ d ∈ g.staticMap b, (g.heap d).id = id := by
  unfold Outgoing.blockSaid at hm
  split_ifs at hm
  · rcases List.mem_append.mp hm with hm | hm
    · obtain ⟨b, -, hm⟩ := List.mem_flatMap.mp hm
      obtain ⟨d, hd, rfl⟩ := List.mem_map.mp hm
      exact ⟨b, d, hd, hid⟩
    · obtain ⟨b, -, hm⟩ := List.mem_flatMap.mp hm
      obtain ⟨d, hd, rfl⟩ := List.mem_map.mp hm
      exact ⟨b, d, hd, hid⟩
  · cases hm

theorem Digested.rests {u : UpdateRecord ℝ} {ds : List CellPtr} (h : Digested u ds)
    (hw : u.commanded.WellFormed) (hb : u.commanded.Buried) (hg : u.commanded.Gone)
    (hsound : ∀ d ∈ u.player.cellHistory, d < u.commanded.allocated) {c : CellPtr}
    (hhistory : c ∈ u.player.cellHistory) (hin : u.player.sees u.commanded c = true)
    (hroams : u.commanded.Roams c) (hmoves : ∀ d ∈ u.commanded.cellEvents.move,
      d < u.commanded.allocated)
    (halone : ∀ d < u.commanded.allocated,
      (u.commanded.heap d).id = (u.commanded.heap c).id → d = c) : ¬ u.Flaps c := by
  have hstatic : ∀ b, c ∉ u.commanded.staticMap b := fun b hcb =>
    hroams.elim (hw.static_only hcb).1 fun ⟨i, hi⟩ => (hw.static_only hcb).2 i hi
  have hfood : maxFood ≤ c := hroams.elim (fun hd => (hw.dynamic c hd).1)
    fun ⟨i, hi⟩ => hw.owned_food c (hw.owned i c hi)
  rintro ⟨m, hm, hid⟩
  rw [h.finished, h.said, Outgoing.parseSaid] at hm
  rcases List.mem_append.mp hm with hm | hm
  · rcases List.mem_append.mp hm with hm | hm
    · rcases List.mem_append.mp hm with hm | hm
      · rcases List.mem_append.mp hm with hm | hm
        · rcases List.mem_append.mp hm with hm | hm
          · -- the filter of the history
            obtain ⟨d, hd, rfl⟩ := List.mem_map.mp hm
            obtain ⟨hold, hout⟩ := List.mem_filter.mp hd
            have hdc : d = c := halone d (hsound d hold) hid
            rw [hdc, hin] at hout
            cases hout
          · -- the moves
            obtain ⟨d, hd, hsaid⟩ := List.mem_flatMap.mp hm
            unfold Outgoing.moveSaid at hsaid
            split_ifs at hsaid with htouches hknown hmoved
            · rw [List.mem_singleton.mp hsaid] at hid
              exact hid
            · cases hsaid
            · rw [List.mem_singleton.mp hsaid] at hid
              have hdc : d = c := halone d (hmoves d hd) hid
              exact hknown (hdc ▸ List.mem_filter.mpr ⟨hhistory, hin⟩)
            · cases hsaid
        · -- the food that was eaten
          obtain ⟨d, hd, rfl⟩ := List.mem_map.mp hm
          have hlt := (hg.static d (List.mem_of_mem_filter hd)).1
          have hdc : d = c := halone d (hlt.trans_le hw.food_le) hid
          exact absurd hlt (not_lt.mpr (hdc ▸ hfood))
      · -- the dead cells
        obtain ⟨d, hd, rfl⟩ := List.mem_map.mp hm
        obtain ⟨hlt, hdead⟩ := hb d ((h.deleted.mem d).mp hd).1
        have hdc : d = c := halone d hlt hid
        exact hdead (hdc ▸ hroams.alive)
    · -- the blocks
      obtain ⟨b, d, hd, hdid⟩ := blockSaid_turns hm hid
      have hdc : d = c := halone d (hw.static_lt hd) hdid
      exact hstatic b (hdc ▸ hd)
  · rw [List.mem_singleton.mp hm] at hid
    exact hid

/-- What is remembered from update to update. -/
structure Recollects (a : Stage) (s : Sys ℝ) : Prop where
  watch : Watch a s
  gone : s.game.Gone
  mourned : Mourned a s.game
  remembered : ∀ v ∈ s.sights, Remembered s.trace v
  keeps : Always (AtUpdates fun _ u => ∀ c, Shown u c → c ∈ u.finished.player.cellHistory) s.trace

theorem Recollects.digested {n : ℕ} {s : Sys ℝ} (h : Recollects (.updating n) s)
    (hi : Invariant (.updating n) s) {p : Player ℝ} (hp : s.game.players[n]? = some p) :
    ∃ ds, Digested (s.game.updatePlayer n p) ds :=
  Game.digested hi rfl hp (h.watch.sound _ (List.mem_of_getElem? (Sys.sights_getElem? hp))).nodup

theorem Move.recollects {a b : Stage} {s s' : Sys ℝ} (h : Move (a, s) (b, s'))
    (hi : Invariant a s) (hr : Recollects a s) : Recollects b s' := by
  refine ⟨h.watch hi hr.watch, h.gone hi hr.gone, h.mourned hi hr.mourned,
    (h.shift hi).remembered hi hr.remembered, h.atUpdates hr.keeps fun n p ha hp c hc => ?_⟩
  subst ha
  obtain ⟨ds, hds⟩ := hr.digested hi hp
  exact hds.keeps (Game.Buried.commands hr.mourned hi.wellFormed hp) hc

theorem Recollects.unflapping {n : ℕ} {s : Sys ℝ} (h : Recollects (.updating n) s)
    (hi : Invariant (.updating n) s) {p : Player ℝ} (hp : s.game.players[n]? = some p) :
    Unflapping s.trace (s.game.updatePlayer n p) := by
  intro a u m heq hu hm c hc
  have hmem : p.sight ∈ s.sights := List.mem_of_getElem? (Sys.sights_getElem? hp)
  have hlast : p.sight = u.finished.player.sight := h.remembered p.sight hmem a u m heq hu hm
  have hupdated : .updated u ∈ s.trace := by
    refine since_subset _ _ (?_ : .updated u ∈ life p.wsi s.trace)
    rw [show life p.wsi s.trace = _ from heq]
    exact List.mem_append_right a List.mem_cons_self
  obtain ⟨pre, post, htrace⟩ := List.append_of_mem hupdated
  have hkept : c ∈ u.finished.player.cellHistory :=
    h.keeps pre (.updated u) ⟨post, by rw [htrace]; simp⟩ c hc.before
  have hhistory : c ∈ p.cellHistory := by
    rw [show p.cellHistory = u.finished.player.cellHistory from congrArg Sight.history hlast]
    exact hkept
  have hw := hi.wellFormed
  obtain ⟨hwc, hdrift, -⟩ := Game.commands_spec hw hp
  obtain ⟨ds, hds⟩ := h.digested hi hp
  constructor
  · intro hquiet
    by_contra hout
    exact hquiet (hds.flaps hhistory (Bool.eq_false_iff.mpr hout))
  · intro hin
    refine hds.rests hwc (Game.Buried.commands h.mourned hw hp) (h.gone.commands hw hp)
      (fun d hd => ?_) hhistory hin hc.after.roams (fun d hd => ?_) hc.alone
    · exact ((h.watch.sound _ hmem).cell d hd).2.1.trans_le hdrift.allocated
    · have hd' : d ∈ (s.game.commands n p).cellEvents.move := hd
      rw [hdrift.move] at hd'
      exact (h.watch.settled d hd').2.1.trans_le hdrift.allocated

/-- In every run a cell that stays in a view without changes is neither removed nor added by an
update if and only if its center is in the view. -/
theorem no_flapping (r : Run ℝ) : Always (AtUpdates Unflapping) r.final.trace := by
  refine Run.induction_updates (P := Recollects) (fun rand stale => ?_)
    (fun a s b s' hi hm hr => hm.recollects hi hr) (fun n s p hi hr hp => hr.unflapping hi hp) r
  refine ⟨init_watch rand stale, init_gone rand stale, trivial, ?_, always_nil _⟩
  rw [init_sights]
  exact fun v hv => by cases hv

/-- A cell that stays in a view without changes is neither removed nor added by an update. -/
def Steadfast (tr : List (Obs ℝ)) (u' : UpdateRecord ℝ) : Prop :=
  ∀ a u m, life u'.player.wsi tr = a ++ .updated u :: m → u.player.wsi = u'.player.wsi →
    (∀ o ∈ m, o.updates u'.player.wsi = false) → ∀ c, Stays u u' c → ¬ u'.Flaps c

/-- Half a block to the right of the view of a new player at the origin. -/
def verge : Draw := (12950, 0)

theorem spot_verge : spot verge = ⟨12950, 0⟩ := by
  refine Vec2.ext ?_ ?_
  · show ((12950 % mapSize : ℕ) : ℝ) = 12950
    norm_num [mapSize, numBlocks, blockSize]
  · show ((0 % mapSize : ℕ) : ℝ) = 0
    norm_num

/-- A player joins, and two ticks pass. -/
def verging (K : Type) [Field K] : Run K where
  rand := placing corner verge
  stale := fun _ => 0
  events := [.writeable 0 0 (fun _ => true) 8, .tick (1 / 60), .tick (2 / 60)]

/-- One player is there, and the viruses lie on the border of its view. -/
structure Sys.Verges (s : Sys ℝ) (p : Player ℝ) : Prop where
  lone : s.Lone p
  wsi : p.wsi = 0
  allocated : s.game.allocated = maxFood + maxVirus + 1
  dynamic : s.game.dynamicMap = List.range' maxFood maxVirus
  virus : ∀ d ∈ s.game.dynamicMap, (s.game.heap d).position = ⟨12950, 0⟩

namespace Sys.Verges
variable {s : Sys ℝ} {p : Player ℝ}

theorem first_mem (h : s.Verges p) : maxFood ∈ s.game.dynamicMap := by
  rw [h.dynamic]
  decide

theorem shown (h : s.Verges p) (hconnected : p.wsMessage.connected = true) (clock : ℝ) :
    Shown ((s.tickMoved clock).game.updatePlayer 0 p) maxFood ∧
    p.sees ((s.tickMoved clock).game.updatePlayer 0 p).commanded maxFood = false ∧
    ((s.tickMoved clock).game.updatePlayer 0 p).commanded.allocated = maxFood + maxVirus + 1 := by
  have htold := h.lone.told hconnected clock
  have hsame := h.lone.same hconnected clock
  obtain ⟨hcommanded, -⟩ := h.lone.updated hconnected clock
  have hmem := h.first_mem
  have hposition := h.virus maxFood hmem
  have hradius := (h.lone.remote.dynamic maxFood hmem).2.2.1
  have hmoved : (s.tickMoved clock).game.cellEvents = { move := firstCell :: s.game.dynamicMap } := by
    obtain ⟨cs, hcs⟩ := htold
    rw [hcs]
    rfl
  have htouches : p.touches (s.tickMoved clock).game maxFood = true := by
    unfold Player.touches
    rw [hsame.heap, h.lone.calm.topLeft, h.lone.calm.bottomRight]
    unfold edgeInside
    dsimp only [Vec2.div_x, Vec2.div_y]
    rw [hposition, hradius, if_pos]
    · rfl
    · norm_num [virusMinRadius, blockSize]
  have hsees : p.sees (s.tickMoved clock).game maxFood = false := by
    have hcoord : trunc (12950 : ℝ) = 12950 := by exact_mod_cast trunc_natCast 12950
    have hblock : (indexFromCoord (⟨12950, 0⟩ : Vec2 ℝ)).x = 129 := by
      unfold indexFromCoord
      norm_num [hcoord, mapSize, numBlocks, blockSize]
    unfold Player.sees
    rw [hsame.heap, h.lone.calm.topLeft, h.lone.calm.bottomRight, hposition]
    unfold inside
    dsimp only
    rw [if_neg]
    · rfl
    · rw [hblock]
      omega
  rw [hcommanded]
  refine ⟨⟨Or.inl ?_, ?_, ?_⟩, hsees, ?_⟩
  · rw [hcommanded, hsame.dynamicMap]
    exact hmem
  · rw [hcommanded, hmoved]
    exact List.mem_cons_of_mem _ hmem
  · rw [hcommanded]
    exact htouches
  · rw [hsame.allocated]
    exact h.allocated

theorem learns (h : s.Verges p) (hconnected : p.wsMessage.connected = true) (clock : ℝ) :
    maxFood ∈ ((s.tickMoved clock).game.updatePlayer 0 p).finished.player.cellHistory := by
  have hp : (s.tickMoved clock).game.players[0]? = some p := by
    rw [h.lone.moved hconnected clock]
    rfl
  obtain ⟨hi, hmourned⟩ := Moves.keeps (P := fun a s => Mourned a s.game)
    (fun _ _ _ _ hi hm => hm.mourned hi) (tickMoved_moves s clock) h.lone.reached.invariant trivial
  obtain ⟨-, ds, hds⟩ := h.lone.reached.digested clock hp
  exact hds.keeps (Game.Buried.commands hmourned hi.wellFormed hp) (h.shown hconnected clock).1

theorem tick (h : s.Verges p) (hconnected : p.wsMessage.connected = true) (clock : ℝ) :
    (s.step (.tick clock)).Verges
      ((s.tickMoved clock).game.updatePlayer 0 p).finished.player := by
  obtain ⟨hplayers, hsame, hlone⟩ := h.lone.tick hconnected clock
  have hp : (s.tickMoved clock).game.players[0]? = some p := by rw [hplayers]; rfl
  have hi : Invariant (.updating 0) (s.tickMoved clock) :=
    Moves.invariant (tickMoved_moves s clock) h.lone.reached.invariant
  refine ⟨hlone, (Game.finished_player hi.wellFormed hp).1.trans h.wsi,
    hsame.allocated.trans h.allocated, hsame.dynamicMap.trans h.dynamic, fun d hd => ?_⟩
  rw [hsame.dynamicMap] at hd
  rw [hsame.heap]
  exact h.virus d hd

theorem flaps (h : s.Verges p) (hptr : p.wsMessage.ptr ≤ 10000) (t t' : ℝ) :
    ¬ Always (AtUpdates Steadfast) ((s.step (.tick t)).step (.tick t')).trace := by
  have hsize : maxSize = 65536 := by decide
  have hconnected : p.wsMessage.connected = true := (Message.connected_iff (by omega)).mpr (by omega)
  obtain ⟨n, -, hn, hcost⟩ := h.lone.cost hconnected t h.allocated h.dynamic
  have hnext := h.tick hconnected t
  have hplayers := h.lone.moved hconnected t
  obtain ⟨hshown, -, -⟩ := h.shown hconnected t
  have hlearned := h.learns hconnected t
  have htrace := (tick_alone hplayers).2
  have hwsi := h.wsi
  generalize hu : (s.tickMoved t).game.updatePlayer 0 p = u at *
  have hup : u.player = p := by rw [← hu]; rfl
  have hconnected' : u.finished.player.wsMessage.connected = true :=
    (Message.connected_iff (by omega)).mpr (by omega)
  have hplayers' := hnext.lone.moved hconnected' t'
  obtain ⟨hshown', hsees', hallocated'⟩ := hnext.shown hconnected' t'
  have htrace' := (tick_alone hplayers').2
  have hmoved := tickMoved_trace (hnext.lone.solo hconnected').allConnected t'
  -- the second update comes right after the first one
  have hlife : life u.finished.player.wsi ((s.step (.tick t)).tickMoved t').trace =
      life u.finished.player.wsi (s.tickMoved t).trace ++ .updated u ::
        [.requested p.wsi, .ticked (s.tick t).game, .collided ((s.step (.tick t)).tickStart t').game
          ((s.step (.tick t)).tickStart t').game.collisionPhase] := by
    rw [hmoved]
    show life _ ((s.tick t).trace ++ _) = _
    rw [htrace, List.append_assoc]
    exact since_append_of_unmarked fun o ho => by
      simp only [List.cons_append, List.nil_append, List.mem_cons, List.not_mem_nil,
        or_false] at ho
      rcases ho with rfl | rfl | rfl | rfl <;> rfl
  intro hall
  have hsteady : Steadfast ((s.step (.tick t)).tickMoved t').trace
      (((s.step (.tick t)).tickMoved t').game.updatePlayer 0 u.finished.player) := by
    refine hall _ (.updated _) ?_
    show _ <+: ((s.step (.tick t)).tick t').trace
    rw [htrace']
    exact (List.prefix_append_right_inj _).mpr ⟨_, rfl⟩
  have hnext' := hnext.lone.reached
  have hcalm := h.lone.calm
  have hcalm' := hnext.lone.calm
  have hplayer' : ((s.step (.tick t)).tickMoved t').game.players[0]? =
      some u.finished.player := by rw [hplayers']; rfl
  obtain ⟨hsound', ds, hds⟩ := hnext'.digested t' hplayer'
  have hi' : Invariant (.updating 0) ((s.step (.tick t)).tickMoved t') :=
    Moves.invariant (tickMoved_moves _ t') hnext'.invariant
  have hw' := (Game.commands_spec hi'.wellFormed hplayer').1
  have hlt : maxFood < maxFood + maxVirus + 1 := by decide
  have hids : maxFood + maxVirus + 1 ≤ 2 ^ 32 := by decide
  refine hsteady _ u _ hlife ?_ ?_ maxFood ⟨hshown, hshown', ?_, ?_, ?_⟩ ?_
  · rw [hup]
    exact hwsi.trans hnext.wsi.symm
  · intro o ho
    simp only [List.mem_cons, List.not_mem_nil, or_false] at ho
    rcases ho with rfl | rfl | rfl <;> rfl
  · rw [hup, hcalm.topLeft]
    exact hcalm'.topLeft
  · rw [hup, hcalm.bottomRight]
    exact hcalm'.bottomRight
  · intro d hd hid
    rw [hallocated'] at hd
    exact hw'.id_inj (hallocated' ▸ hd) (hallocated' ▸ hlt) (hd.trans_le hids) (hlt.trans_le hids) hid
  · exact hds.flaps hlearned hsees'

end Sys.Verges

theorem Sys.Reached.verges {s : Sys ℝ} (hreached : s.Reached) (h : s.game.Joined corner verge 0) :
    ¬ Always (AtUpdates Steadfast) ((verging ℝ).events.foldl Sys.step s).trace := by
  have hreached' := hreached.step (.writeable 0 0 (fun _ => true) 8)
  have hjoin : s.step (.writeable 0 0 (fun _ => true) 8) = s.join 0 8 := h.writeable 0 _ 8
  unfold verging
  rw [List.foldl_cons, hjoin]
  rw [hjoin] at hreached'
  have hjoined := h.join 8
  have hvirus : 1100 < (spot verge).x := by
    rw [spot_verge]
    norm_num
  obtain ⟨p, hlone, hfresh, hwsi⟩ := hreached'.lone hjoined corner_far hvirus
  refine Verges.flaps ⟨hlone, hwsi, hjoined.allocated, hjoined.placed.dynamic, fun d hd => ?_⟩ ?_ _ _
  · rw [← spot_verge]
    exact (hjoined.placed.virus d hd).2.1
  · rw [hfresh.message]
    decide

/-- A virus whose edge is in the view and whose center is not is removed and added in every tick. -/
theorem virus_flaps : ¬ Always (AtUpdates Steadfast) (verging ℝ).final.trace := by
  have hjoined : (Sys.init (placing corner verge) fun _ => (0 : ℝ)).game.Joined corner verge 0 :=
    Game.mapInit_joined corner verge _
  exact (Sys.init_reached _ _).verges hjoined

end Agar
