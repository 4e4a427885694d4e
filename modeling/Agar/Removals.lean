import Agar.Rounds
import Agar.Lib.Trace

/-! The removal events of the collision phase: what the two lists say of the cells that leave the
containers, and the stray erase of `CollideSelf` that makes them wrong. -/

namespace Agar
open Trace

namespace Game

/-- The cell is in a container. -/
def Alive (g : Game ℝ) (p : CellPtr) : Prop :=
  (∃ b, p ∈ g.staticMap b) ∨ p ∈ g.dynamicMap ∨ ∃ i, p ∈ g.cellsOf i

/-- The cell was in `DynamicMap` or with a player before the phase, or came up during it. -/
def Passed (before after : Game ℝ) (p : CellPtr) : Prop :=
  p ∈ before.dynamicMap ∨ (∃ i, p ∈ before.cellsOf i) ∨
    before.allocated ≤ p ∧ p < after.allocated

/-- The removal events after the phase are exact. -/
structure Exact (before after : Game ℝ) : Prop where
  /-- A static cell that is gone was reported once, as a static one. -/
  static : ∀ b, ∀ p ∈ before.staticMap b, ¬ after.Alive p →
    after.cellEvents.removeStatic.count p = 1 ∧ p ∉ after.cellEvents.removeDynamic
  /-- Any other cell that is gone was reported once, as a dynamic one. -/
  dynamic : ∀ p, Passed before after p → ¬ after.Alive p →
    after.cellEvents.removeDynamic.count p = 1 ∧ p ∉ after.cellEvents.removeStatic
  /-- A cell that was reported is gone. -/
  gone : ∀ p, p ∈ after.cellEvents.removeStatic ∨ p ∈ after.cellEvents.removeDynamic →
    ¬ after.Alive p
  /-- No cell was reported twice. -/
  once : after.cellEvents.removeStatic.Nodup ∧ after.cellEvents.removeDynamic.Nodup

variable {g g' before : Game ℝ}

theorem WellFormed.static_only (hw : WellFormed g) {b : Vec2i} {p : CellPtr}
    (h : p ∈ g.staticMap b) : p ∉ g.dynamicMap ∧ ∀ i, p ∉ g.cellsOf i := by
  have hlt := (hw.static b p h).1
  refine ⟨fun hd => ?_, fun i hi => ?_⟩
  · exact absurd hlt (not_lt.mpr (hw.dynamic p hd).1)
  · exact absurd hlt (not_lt.mpr (hw.owned_food p (hw.owned i p hi)))

theorem WellFormed.dynamic_only (hw : WellFormed g) {p : CellPtr} (h : p ∈ g.dynamicMap) :
    (∀ b, p ∉ g.staticMap b) ∧ ∀ i, p ∉ g.cellsOf i := by
  refine ⟨fun b hb => (hw.static_only hb).1 h, fun i hi => ?_⟩
  have hflag := (hw.owned i p hi).2
  rcases (hw.dynamic p h).2.2 with hd | hd <;> rw [hd] at hflag <;> exact absurd hflag (by decide)

theorem WellFormed.alive_lt (hw : WellFormed g) {p : CellPtr} (h : g.Alive p) :
    p < g.allocated := by
  rcases h with ⟨b, h⟩ | h | ⟨i, h⟩
  · exact hw.static_lt h
  · exact (hw.dynamic p h).2.1
  · exact (hw.owned i p h).1

theorem mem_eraseIdx_of_nodup {l : List CellPtr} (hl : l.Nodup) {loop : ℕ} {p : CellPtr}
    (h : l[loop]? = some p) (q : CellPtr) : q ∈ l.eraseIdx loop ↔ q ∈ l ∧ q ≠ p := by
  obtain ⟨hlt, rfl⟩ := List.getElem?_eq_some_iff.mp h
  rw [← List.Nodup.erase_getElem hl loop hlt, List.Nodup.mem_erase_iff hl, and_comm]

theorem alive_killStatic (hw : WellFormed g) {b : Vec2i} {loop : ℕ} {p : CellPtr}
    (h : (g.staticMap b)[loop]? = some p) (q : CellPtr) :
    ((g.pushRemoveStatic p).removeStaticAt b loop).Alive q ↔ g.Alive q ∧ q ≠ p := by
  have hp := List.mem_of_getElem? h
  have hmem : ∀ b', q ∈ ((g.pushRemoveStatic p).removeStaticAt b loop).staticMap b' ↔
      q ∈ g.staticMap b' ∧ q ≠ p := by
    intro b'
    show q ∈ (if b' = b then (g.staticMap b).eraseIdx loop else g.staticMap b') ↔ _
    split_ifs with hb
    · rw [hb]
      exact mem_eraseIdx_of_nodup (hw.static_nodup b) h q
    · refine ⟨fun hq => ⟨hq, ?_⟩, And.left⟩
      rintro rfl
      exact hb ((hw.static b' q hq).2.2.symm.trans (hw.static b q hp).2.2)
  obtain ⟨hdynamic, hcells⟩ := hw.static_only hp
  constructor
  · rintro (⟨b', hq⟩ | hq | ⟨i, hq⟩)
    · exact ⟨Or.inl ⟨b', ((hmem b').mp hq).1⟩, ((hmem b').mp hq).2⟩
    · exact ⟨Or.inr (Or.inl hq), fun h => hdynamic (h ▸ hq)⟩
    · exact ⟨Or.inr (Or.inr ⟨i, hq⟩), fun h => hcells i (h ▸ hq)⟩
  · rintro ⟨⟨b', hq⟩ | hq | ⟨i, hq⟩, hne⟩
    · exact Or.inl ⟨b', (hmem b').mpr ⟨hq, hne⟩⟩
    · exact Or.inr (Or.inl hq)
    · exact Or.inr (Or.inr ⟨i, hq⟩)

theorem alive_killDynamic (hw : WellFormed g) {loop : ℕ} {p : CellPtr}
    (h : g.dynamicMap[loop]? = some p) (q : CellPtr) :
    ((g.pushRemoveDynamic p).eraseDynamic loop).Alive q ↔ g.Alive q ∧ q ≠ p := by
  have hmem := mem_eraseIdx_of_nodup hw.dynamic_nodup h q
  obtain ⟨hstatic, hcells⟩ := hw.dynamic_only (List.mem_of_getElem? h)
  constructor
  · rintro (⟨b, hq⟩ | hq | ⟨i, hq⟩)
    · exact ⟨Or.inl ⟨b, hq⟩, fun h => hstatic b (h ▸ hq)⟩
    · exact ⟨Or.inr (Or.inl (hmem.mp hq).1), (hmem.mp hq).2⟩
    · exact ⟨Or.inr (Or.inr ⟨i, hq⟩), fun h => hcells i (h ▸ hq)⟩
  · rintro ⟨⟨b, hq⟩ | hq | ⟨i, hq⟩, hne⟩
    · exact Or.inl ⟨b, hq⟩
    · exact Or.inr (Or.inl (hmem.mpr ⟨hq, hne⟩))
    · exact Or.inr (Or.inr ⟨i, hq⟩)

theorem alive_kill (hw : WellFormed g) {i loop : ℕ} {p : CellPtr}
    (h : (g.cellsOf i)[loop]? = some p) (q : CellPtr) :
    ((g.pushRemoveDynamic p).eraseCell i loop).Alive q ↔ g.Alive q ∧ q ≠ p := by
  have hp := List.mem_of_getElem? h
  have hi := lt_of_cellsOf h
  have hmem : ∀ j, q ∈ ((g.pushRemoveDynamic p).eraseCell i loop).cellsOf j ↔
      q ∈ g.cellsOf j ∧ q ≠ p := by
    intro j
    rw [eraseCell, cellsOf_setCells]
    split_ifs with hij
    · rw [← hij.1]
      exact mem_eraseIdx_of_nodup (hw.cells_nodup i) h q
    · refine ⟨fun hq => ⟨hq, ?_⟩, And.left⟩
      rintro rfl
      exact hw.cells_disjoint i j (fun h => hij ⟨h, hi⟩) q hp hq
  have hstatic : ∀ b, p ∉ g.staticMap b := fun b hb => (hw.static_only hb).2 i hp
  have hdynamic : p ∉ g.dynamicMap := fun hd => (hw.dynamic_only hd).2 i hp
  constructor
  · rintro (⟨b, hq⟩ | hq | ⟨j, hq⟩)
    · exact ⟨Or.inl ⟨b, hq⟩, fun h => hstatic b (h ▸ hq)⟩
    · exact ⟨Or.inr (Or.inl hq), fun h => hdynamic (h ▸ hq)⟩
    · exact ⟨Or.inr (Or.inr ⟨j, ((hmem j).mp hq).1⟩), ((hmem j).mp hq).2⟩
  · rintro ⟨⟨b, hq⟩ | hq | ⟨j, hq⟩, hne⟩
    · exact Or.inl ⟨b, hq⟩
    · exact Or.inr (Or.inl hq)
    · exact Or.inr (Or.inr ⟨j, (hmem j).mpr ⟨hq, hne⟩⟩)

theorem alive_spawn {i : ℕ} {c : Cell ℝ} (hi : i < g.players.length) (q : CellPtr) :
    (g.spawn i c).Alive q ↔ g.Alive q ∨ q = g.allocated := by
  have hcells : ∀ j, q ∈ (g.spawn i c).cellsOf j ↔
      q ∈ g.cellsOf j ∨ i = j ∧ q = g.allocated := by
    intro j
    rw [spawn_cellsOf _ _ _ _ hi]
    split_ifs with hij
    · simp [hij]
    · simp [hij]
  constructor
  · rintro (h | h | ⟨j, h⟩)
    · exact Or.inl (Or.inl h)
    · exact Or.inl (Or.inr (Or.inl h))
    · rcases (hcells j).mp h with h | h
      · exact Or.inl (Or.inr (Or.inr ⟨j, h⟩))
      · exact Or.inr h.2
  · rintro ((h | h | ⟨j, h⟩) | h)
    · exact Or.inl h
    · exact Or.inr (Or.inl h)
    · exact Or.inr (Or.inr ⟨j, (hcells j).mpr (Or.inl h)⟩)
    · exact Or.inr (Or.inr ⟨i, (hcells i).mpr (Or.inr ⟨rfl, h⟩)⟩)

theorem alive_eject {c : Cell ℝ} (q : CellPtr) :
    (g.eject c).Alive q ↔ g.Alive q ∨ q = g.allocated := by
  have hdynamic : q ∈ (g.eject c).dynamicMap ↔ q ∈ g.dynamicMap ∨ q = g.allocated := by
    show q ∈ g.dynamicMap ++ [g.allocated] ↔ _
    rw [List.mem_append, List.mem_singleton]
  constructor
  · rintro (h | h | h)
    · exact Or.inl (Or.inl h)
    · rcases hdynamic.mp h with h | h
      · exact Or.inl (Or.inr (Or.inl h))
      · exact Or.inr h
    · exact Or.inl (Or.inr (Or.inr h))
  · rintro ((h | h | h) | h)
    · exact Or.inl h
    · exact Or.inr (Or.inl (hdynamic.mpr (Or.inl h)))
    · exact Or.inr (Or.inr h)
    · exact Or.inr (Or.inl (hdynamic.mpr (Or.inr h)))

/-- Every cell there has been since the start of the phase is either alive or reported, in the list
for its kind. -/
structure Kept (before g : Game ℝ) : Prop where
  static : ∀ b, ∀ p ∈ before.staticMap b, g.Alive p ∨ p ∈ g.cellEvents.removeStatic
  dynamic : ∀ p, Passed before g p → g.Alive p ∨ p ∈ g.cellEvents.removeDynamic
  gone : ∀ p, p ∈ g.cellEvents.removeStatic ∨ p ∈ g.cellEvents.removeDynamic → ¬ g.Alive p
  static_nodup : g.cellEvents.removeStatic.Nodup
  dynamic_nodup : g.cellEvents.removeDynamic.Nodup
  static_kind : ∀ p ∈ g.cellEvents.removeStatic, p < maxFood
  dynamic_kind : ∀ p ∈ g.cellEvents.removeDynamic, maxFood ≤ p ∧ p < g.allocated

theorem Kept.same (h : Kept before g) (halive : ∀ q, g'.Alive q ↔ g.Alive q)
    (hevents : g'.cellEvents = g.cellEvents) (hallocated : g'.allocated = g.allocated) :
    Kept before g' := by
  constructor
  · intro b p hp
    rw [halive, hevents]
    exact h.static b p hp
  · intro p hp
    unfold Passed at hp
    rw [hallocated] at hp
    rw [halive, hevents]
    exact h.dynamic p hp
  · intro p hp
    rw [hevents] at hp
    rw [halive]
    exact h.gone p hp
  · rw [hevents]
    exact h.static_nodup
  · rw [hevents]
    exact h.dynamic_nodup
  · rw [hevents]
    exact h.static_kind
  · rw [hevents, hallocated]
    exact h.dynamic_kind

theorem Kept.born (h : Kept before g) (hw : WellFormed g)
    (halive : ∀ q, g'.Alive q ↔ g.Alive q ∨ q = g.allocated)
    (hevents : g'.cellEvents = g.cellEvents) (hallocated : g'.allocated = g.allocated + 1) :
    Kept before g' := by
  have hnew : g.allocated ∉ g.cellEvents.removeStatic ∧
      g.allocated ∉ g.cellEvents.removeDynamic := by
    refine ⟨fun hm => ?_, fun hm => ?_⟩
    · exact absurd (h.static_kind _ hm) (not_lt.mpr hw.food_le)
    · exact absurd (h.dynamic_kind _ hm).2 (lt_irrefl _)
  constructor
  · intro b p hp
    rw [halive, hevents]
    exact (h.static b p hp).imp_left Or.inl
  · intro p hp
    rw [halive, hevents]
    by_cases hq : p = g.allocated
    · exact Or.inl (Or.inr hq)
    · refine (h.dynamic p (hp.imp_right (Or.imp_right fun hr => ⟨hr.1, ?_⟩))).imp_left Or.inl
      have hlt := hr.2
      rw [hallocated] at hlt
      exact lt_of_le_of_ne (Nat.lt_succ_iff.mp hlt) hq
  · intro p hp
    rw [hevents] at hp
    rw [halive]
    rintro (ha | rfl)
    · exact h.gone p hp ha
    · exact hp.elim hnew.1 hnew.2
  · rw [hevents]
    exact h.static_nodup
  · rw [hevents]
    exact h.dynamic_nodup
  · rw [hevents]
    exact h.static_kind
  · rw [hevents, hallocated]
    exact fun p hp => (h.dynamic_kind p hp).imp_right fun hlt => hlt.trans (Nat.lt_succ_self _)

theorem Kept.diedStatic {p : CellPtr} (h : Kept before g) (hp : g.Alive p) (hkind : p < maxFood)
    (halive : ∀ q, g'.Alive q ↔ g.Alive q ∧ q ≠ p)
    (hstatic : g'.cellEvents.removeStatic = g.cellEvents.removeStatic ++ [p])
    (hdynamic : g'.cellEvents.removeDynamic = g.cellEvents.removeDynamic)
    (hallocated : g'.allocated = g.allocated) (hpassed : ¬ Passed before g p) :
    Kept before g' := by
  constructor
  · intro b q hq
    rw [halive, hstatic, List.mem_append, List.mem_singleton]
    by_cases hqp : q = p
    · exact Or.inr (Or.inr hqp)
    · exact (h.static b q hq).imp (fun ha => ⟨ha, hqp⟩) Or.inl
  · intro q hq
    unfold Passed at hq
    rw [hallocated] at hq
    rw [halive, hdynamic]
    exact (h.dynamic q hq).imp_left fun ha => ⟨ha, fun heq => hpassed (heq ▸ hq)⟩
  · intro q hq
    rw [hstatic, hdynamic, List.mem_append, List.mem_singleton] at hq
    rw [halive]
    rintro ⟨ha, hne⟩
    rcases hq with (hq | hq) | hq
    · exact h.gone q (Or.inl hq) ha
    · exact hne hq
    · exact h.gone q (Or.inr hq) ha
  · rw [hstatic]
    refine List.nodup_append.mpr ⟨h.static_nodup, List.nodup_singleton _, ?_⟩
    intro q hq r hr hqr
    exact h.gone q (Or.inl hq) (hqr ▸ List.mem_singleton.mp hr ▸ hp)
  · rw [hdynamic]
    exact h.dynamic_nodup
  · rw [hstatic]
    intro q hq
    rcases List.mem_append.mp hq with hq | hq
    · exact h.static_kind q hq
    · exact List.mem_singleton.mp hq ▸ hkind
  · rw [hdynamic, hallocated]
    exact h.dynamic_kind

theorem Kept.diedDynamic {p : CellPtr} (h : Kept before g) (hp : g.Alive p)
    (hkind : maxFood ≤ p ∧ p < g.allocated) (halive : ∀ q, g'.Alive q ↔ g.Alive q ∧ q ≠ p)
    (hstatic : g'.cellEvents.removeStatic = g.cellEvents.removeStatic)
    (hdynamic : g'.cellEvents.removeDynamic = g.cellEvents.removeDynamic ++ [p])
    (hallocated : g'.allocated = g.allocated) (hbefore : ∀ b, p ∉ before.staticMap b) :
    Kept before g' := by
  constructor
  · intro b q hq
    rw [halive, hstatic]
    exact (h.static b q hq).imp_left fun ha => ⟨ha, fun heq => hbefore b (heq ▸ hq)⟩
  · intro q hq
    unfold Passed at hq
    rw [hallocated] at hq
    rw [halive, hdynamic, List.mem_append, List.mem_singleton]
    by_cases hqp : q = p
    · exact Or.inr (Or.inr hqp)
    · exact (h.dynamic q hq).imp (fun ha => ⟨ha, hqp⟩) Or.inl
  · intro q hq
    rw [hstatic, hdynamic, List.mem_append, List.mem_singleton] at hq
    rw [halive]
    rintro ⟨ha, hne⟩
    rcases hq with hq | hq | hq
    · exact h.gone q (Or.inl hq) ha
    · exact h.gone q (Or.inr hq) ha
    · exact hne hq
  · rw [hstatic]
    exact h.static_nodup
  · rw [hdynamic]
    refine List.nodup_append.mpr ⟨h.dynamic_nodup, List.nodup_singleton _, ?_⟩
    intro q hq r hr hqr
    exact h.gone q (Or.inr hq) (hqr ▸ List.mem_singleton.mp hr ▸ hp)
  · rw [hstatic]
    exact h.static_kind
  · rw [hdynamic, hallocated]
    intro q hq
    rcases List.mem_append.mp hq with hq | hq
    · exact h.dynamic_kind q hq
    · exact List.mem_singleton.mp hq ▸ hkind

theorem Passed.food_le (hw : WellFormed before) {p : CellPtr} (h : Passed before g p) :
    maxFood ≤ p := by
  rcases h with h | ⟨i, h⟩ | h
  · exact (hw.dynamic p h).1
  · exact hw.owned_food p (hw.owned i p h)
  · exact hw.food_le.trans h.1

theorem Effect.kept (h : Effect g g') (hw : WellFormed g) (hbefore : WellFormed before)
    (hcalls : before.calls.length ≤ g.calls.length)
    (hstay : ∀ c ∈ g'.calls.drop before.calls.length, ¬ c.Strays) (hk : Kept before g) :
    Kept before g' := by
  have hstatic : ∀ {p}, maxFood ≤ p → ∀ b, p ∉ before.staticMap b := fun hp b hb =>
    absurd (hbefore.static b _ hb).1 (not_lt.mpr hp)
  cases h with
  | note c hs hc hstay hleft => exact hk.same (fun _ => Iff.rfl) rfl rfl
  | draw => exact hk.same (fun _ => Iff.rfl) rfl rfl
  | change p c => exact hk.same (fun _ => Iff.rfl) rfl rfl
  | spawn i c hi => exact hk.born hw (alive_spawn hi) rfl rfl
  | eject c => exact hk.born hw alive_eject rfl rfl
  | killStatic b loop p h =>
    have hmem := List.mem_of_getElem? h
    have hkind := (hw.static b p hmem).1
    refine hk.diedStatic (Or.inl ⟨b, hmem⟩) hkind (alive_killStatic hw h) rfl rfl rfl fun hp => ?_
    exact absurd hkind (not_lt.mpr (hp.food_le hbefore))
  | killDynamic loop p h =>
    have hmem := List.mem_of_getElem? h
    have hd := hw.dynamic p hmem
    exact hk.diedDynamic (Or.inr (Or.inl hmem)) ⟨hd.1, hd.2.1⟩ (alive_killDynamic hw h) rfl rfl rfl
      (hstatic hd.1)
  | kill i loop p h =>
    have hmem := List.mem_of_getElem? h
    have ho := hw.owned i p hmem
    exact hk.diedDynamic (Or.inr (Or.inr ⟨i, hmem⟩)) ⟨hw.owned_food p ho, ho.1⟩ (alive_kill hw h)
      rfl rfl rfl (hstatic (hw.owned_food p ho))
  | stray i myLoop p slot hp hslot =>
    -- the branch that goes wrong
    refine absurd hslot (hstay (.absorb p slot) ?_)
    rw [(eraseCellAt_frame ((g.note (.absorb p slot)).pushRemoveDynamic p) i myLoop).2.2.2.2.2.1]
    show _ ∈ (g.calls ++ [_]).drop _
    rw [List.drop_append_of_le_length hcalls]
    exact List.mem_append_right _ List.mem_cons_self
  | pour p => exact hk.same (fun _ => Iff.rfl) rfl rfl

theorem Effect.reported (h : Effect g g') (hcalls : before.calls.length ≤ g.calls.length)
    (hk : (∀ c ∈ g.calls.drop before.calls.length, ¬ c.Strays) ∨
      ¬ g.cellEvents.removeDynamic.Nodup) :
    (∀ c ∈ g'.calls.drop before.calls.length, ¬ c.Strays) ∨
      ¬ g'.cellEvents.removeDynamic.Nodup := by
  have hmore : ∀ c : Call ℝ, ¬ c.Strays → (∀ c ∈ g.calls.drop before.calls.length, ¬ c.Strays) →
      ∀ d ∈ (g.calls ++ [c]).drop before.calls.length, ¬ d.Strays := by
    intro c hc hall d hd
    rw [List.drop_append_of_le_length hcalls] at hd
    rcases List.mem_append.mp hd with hd | hd
    · exact hall d hd
    · exact List.mem_singleton.mp hd ▸ hc
  rcases hk with hk | hk
  · cases h with
    | note c hs hc hstay hleft => exact Or.inl (hmore c hstay hk)
    | draw => exact Or.inl hk
    | change p c => exact Or.inl hk
    | spawn i c => exact Or.inl (hmore _ id hk)
    | eject c => exact Or.inl hk
    | killStatic b loop p h => exact Or.inl hk
    | killDynamic loop p h => exact Or.inl hk
    | kill i loop p h => exact Or.inl hk
    | stray i myLoop p slot hp hslot =>
      right
      rw [(eraseCellAt_frame ((g.note (.absorb p slot)).pushRemoveDynamic p) i myLoop).2.2.2.2.1]
      show ¬ (g.cellEvents.removeDynamic ++ [p]).Nodup
      intro hnodup
      exact (List.nodup_append.mp hnodup).2.2 p hp p List.mem_cons_self rfl
    | pour p size count slots s =>
      left
      show ∀ c ∈ (((g.calls ++ [Call.pop p size count]) ++ [Call.slots slots]) ++
        [Call.addSize p (g.heap p).size s]).drop before.calls.length, ¬ c.Strays
      rw [List.append_assoc, List.append_assoc, List.drop_append_of_le_length hcalls]
      intro c hc
      rcases List.mem_append.mp hc with hc | hc
      · exact hk c hc
      · simp only [List.cons_append, List.nil_append, List.mem_cons, List.not_mem_nil,
          or_false] at hc
        rcases hc with rfl | rfl | rfl <;> exact id
  · refine Or.inr fun hnodup => hk (hnodup.sublist ?_)
    exact (Effect.frame h).removeDynamic.sublist

theorem collisionPhase_exact (hw : WellFormed g) (hevents : g.cellEvents = {}) :
    Exact g g.collisionPhase ↔
      ∀ c ∈ g.collisionPhase.calls.drop g.calls.length, ¬ c.Strays := by
  have heffects := collisionPhase_leads g hw
  constructor
  · intro h
    have hrun : ∀ g', Relation.ReflTransGen Effect g g' →
        (∀ c ∈ g'.calls.drop g.calls.length, ¬ c.Strays) ∨
          ¬ g'.cellEvents.removeDynamic.Nodup := by
      intro g' h
      induction h with
      | refl => exact Or.inl (by simp)
      | tail h he ih => exact he.reported (frame_of_effects h).calls.length_le ih
    exact (hrun _ heffects).resolve_right fun hnot => hnot h.once.2
  · intro h
    have hrun : ∀ g', Relation.ReflTransGen Effect g g' →
        (∀ c ∈ g'.calls.drop g.calls.length, ¬ c.Strays) → Kept g g' := by
      intro g' h
      induction h with
      | refl =>
        intro _
        constructor
        · exact fun b p hp => Or.inl (Or.inl ⟨b, hp⟩)
        · rintro p (hp | hp | hp)
          · exact Or.inl (Or.inr (Or.inl hp))
          · exact Or.inl (Or.inr (Or.inr hp))
          · exact absurd hp.2 (not_lt.mpr hp.1)
        all_goals simp [hevents]
      | tail h he ih =>
        intro hstay
        have hframe := frame_of_effects h
        refine he.kept (wellFormed_of_effects h hw) hw hframe.calls.length_le hstay (ih ?_)
        exact fun c hc => hstay c ((he.frame.calls.drop _).subset hc)
    have hk := hrun _ heffects h
    refine ⟨fun b p hp hdead => ?_, fun p hp hdead => ?_, hk.gone, hk.static_nodup,
      hk.dynamic_nodup⟩
    · have hmem := (hk.static b p hp).resolve_left hdead
      refine ⟨List.count_eq_one_of_mem hk.static_nodup hmem, fun hd => ?_⟩
      exact absurd (hk.static_kind p hmem) (not_lt.mpr (hk.dynamic_kind p hd).1)
    · have hmem := (hk.dynamic p hp).resolve_left hdead
      refine ⟨List.count_eq_one_of_mem hk.dynamic_nodup hmem, fun hs => ?_⟩
      exact absurd (hk.static_kind p hs) (not_lt.mpr (hk.dynamic_kind p hmem).1)

end Game

end Agar
