import Mathlib.Data.List.Infix
import Mathlib.Data.List.DropRight

/-! Properties of the moments of a trace that grows at its end: a property of every entry together
with what came before it, the part of a trace since the last entry of a kind, and what the last
entry of a kind says. -/

namespace Trace
variable {α : Type}

/-- Every entry of the trace has the property, seen with the entries before it. -/
def Always (P : List α → α → Prop) (tr : List α) : Prop := ∀ pre a, pre ++ [a] <+: tr → P pre a

theorem always_nil (P : List α → α → Prop) : Always P [] := by
  intro pre a h
  simp at h

theorem always_snoc {P : List α → α → Prop} {tr : List α} {a : α} :
    Always P (tr ++ [a]) ↔ Always P tr ∧ P tr a := by
  constructor
  · intro h
    exact ⟨fun pre b hb => h pre b (hb.trans (List.prefix_append _ _)), h tr a List.prefix_rfl⟩
  · rintro ⟨h, ha⟩ pre b hb
    rcases List.prefix_concat_iff.mp hb with heq | hb
    · obtain ⟨rfl, rfl⟩ := List.append_inj' heq rfl |>.imp_right List.singleton_inj.mp
      exact ha
    · exact h pre b hb

theorem Always.mono {P Q : List α → α → Prop} {tr : List α} (h : Always P tr)
    (hPQ : ∀ pre a, P pre a → Q pre a) : Always Q tr := fun pre a ha => hPQ pre a (h pre a ha)

/-- The entries after the last one that `mark` selects, all of them if there is none. -/
def since (mark : α → Bool) (tr : List α) : List α := tr.rtakeWhile fun a => !mark a

@[simp] theorem since_nil (mark : α → Bool) : since mark [] = [] := rfl

theorem since_snoc (mark : α → Bool) (tr : List α) (a : α) :
    since mark (tr ++ [a]) = if mark a then [] else since mark tr ++ [a] := by
  unfold since
  rw [List.rtakeWhile_concat]
  cases mark a <;> rfl

theorem since_append_of_unmarked {mark : α → Bool} {tr l : List α} (h : ∀ a ∈ l, mark a = false) :
    since mark (tr ++ l) = since mark tr ++ l := by
  induction l using List.reverseRecOn with
  | nil => simp
  | append_singleton l a ih =>
    have ha := h a (List.mem_append_right l List.mem_cons_self)
    rw [← List.append_assoc, since_snoc, ha,
      ih fun b hb => h b (List.mem_append_left [a] hb)]
    simp

theorem since_append_marked {mark : α → Bool} {tr l : List α} {a : α} (h : mark a = true) :
    since mark (tr ++ a :: l) = since mark l := by
  induction l using List.reverseRecOn with
  | nil => rw [since_snoc, if_pos h, since_nil]
  | append_singleton l b ih =>
    rw [← List.cons_append, ← List.append_assoc, since_snoc, since_snoc, ih]

theorem since_subset (mark : α → Bool) (tr : List α) : since mark tr ⊆ tr :=
  (List.rtakeWhile_suffix _ _).subset

theorem always_append {P : List α → α → Prop} {tr l : List α} :
    Always P (tr ++ l) ↔ Always P tr ∧ ∀ pre a, pre ++ [a] <+: l → P (tr ++ pre) a := by
  constructor
  · intro h
    refine ⟨fun pre a ha => h pre a (ha.trans (List.prefix_append _ _)), fun pre a ha => ?_⟩
    refine h (tr ++ pre) a ?_
    rw [List.append_assoc]
    exact (List.prefix_append_right_inj tr).mpr ha
  · rintro ⟨h, hl⟩
    induction l using List.reverseRecOn with
    | nil => rwa [List.append_nil]
    | append_singleton l a ih =>
      rw [← List.append_assoc, always_snoc]
      exact ⟨ih fun pre b hb => hl pre b (hb.trans (List.prefix_append _ _)),
        hl l a List.prefix_rfl⟩

theorem always_append_of_forall {P : List α → α → Prop} {tr l : List α} (h : Always P tr)
    (hl : ∀ a ∈ l, ∀ pre, P pre a) : Always P (tr ++ l) :=
  always_append.mpr ⟨h, fun _ a ha => hl a (ha.subset (List.mem_append_right _ List.mem_cons_self)) _⟩

/-- The trace has grown, by entries of a kind. -/
def Extends (P : α → Prop) (tr tr' : List α) : Prop := ∃ l, tr' = tr ++ l ∧ ∀ a ∈ l, P a

section Extends
variable {P : α → Prop} {tr tr' tr'' : List α}

theorem Extends.refl (P : α → Prop) (tr : List α) : Extends P tr tr :=
  ⟨[], (List.append_nil tr).symm, fun _ h => (by cases h)⟩

theorem Extends.trans (h : Extends P tr tr') (h' : Extends P tr' tr'') : Extends P tr tr'' := by
  obtain ⟨l, rfl, hl⟩ := h
  obtain ⟨l', rfl, hl'⟩ := h'
  refine ⟨l ++ l', List.append_assoc _ _ _, fun a ha => ?_⟩
  rcases List.mem_append.mp ha with ha | ha
  · exact hl a ha
  · exact hl' a ha

theorem Extends.snoc (h : Extends P tr tr') {a : α} (ha : P a) : Extends P tr (tr' ++ [a]) :=
  h.trans ⟨[a], rfl, fun _ hb => List.mem_singleton.mp hb ▸ ha⟩

end Extends

/-- What the last entry says from which `f` reads something. -/
def latest {β : Type} (f : α → Option β) (tr : List α) : Option β := (tr.filterMap f).getLast?

section Latest
variable {β : Type} {f : α → Option β}

theorem latest_append (tr l : List α) : latest f (tr ++ l) = (latest f l).or (latest f tr) := by
  unfold latest
  rw [List.filterMap_append, List.getLast?_append]

theorem latest_append_of_none {tr l : List α} (h : ∀ a ∈ l, f a = none) :
    latest f (tr ++ l) = latest f tr := by
  have hl : latest f l = none := by
    unfold latest
    rw [List.filterMap_eq_nil_iff.mpr h, List.getLast?_nil]
  rw [latest_append, hl, Option.none_or]

theorem latest_cons_of_none {a : α} {l : List α} (h : ∀ b ∈ l, f b = none) :
    latest f (a :: l) = f a := by
  rw [← List.singleton_append, latest_append_of_none h]
  unfold latest
  cases hf : f a <;> simp [hf]

end Latest

end Trace
