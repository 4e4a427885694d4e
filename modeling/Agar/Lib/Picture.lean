import Mathlib.Logic.Function.Basic
import Agar.Lib.Mirror

/-! A picture of a changing set of elements with values, kept by reports that an element has come
with a value, has another value now, or is gone. What a picture shows of an element depends on the
reports about that element. -/

namespace Picture
open Mirror
variable {κ ι ν : Type}

/-- A report on an element. A move says how the value that is shown changes. -/
inductive Report (κ ν : Type)
  | add (k : κ) (v : ν)
  | move (k : κ) (f : ν → ν)
  | remove (k : κ)

namespace Report

def key : Report κ ν → κ
  | add k _ => k
  | move k _ => k
  | remove k => k

/-- What the report says of the set alone. -/
def change : Report κ ν → Change κ
  | add k _ => .add k
  | move k _ => .move k
  | remove k => .remove k

/-- The report with the element under another name. -/
def rename (f : κ → ι) : Report κ ν → Report ι ν
  | add k v => add (f k) v
  | move k g => move (f k) g
  | remove k => remove (f k)

/-- What the report makes of the value that is shown of its element. -/
def revise : Report κ ν → Option ν → Option ν
  | add _ v, _ => some v
  | move _ f, shown => shown.map f
  | remove _, _ => none

@[simp] theorem change_key (r : Report κ ν) : r.change.key = r.key := by
  cases r <;> rfl

@[simp] theorem rename_key (f : κ → ι) (r : Report κ ν) : (r.rename f).key = f r.key := by
  cases r <;> rfl

theorem rename_change (f : κ → ι) (r : Report κ ν) :
    (r.rename f).change = r.change.map f := by
  cases r <;> rfl

theorem rename_revise (f : κ → ι) (r : Report κ ν) (shown : Option ν) :
    (r.rename f).revise shown = r.revise shown := by
  cases r <;> rfl

end Report

/-- What reports on one element make of the value that is shown of it. -/
def reviseAll (shown : Option ν) (rs : List (Report κ ν)) : Option ν :=
  rs.foldl (fun shown r => r.revise shown) shown

@[simp] theorem reviseAll_nil (shown : Option ν) : reviseAll shown ([] : List (Report κ ν)) = shown :=
  rfl

@[simp] theorem reviseAll_cons (shown : Option ν) (r : Report κ ν) (rs : List (Report κ ν)) :
    reviseAll shown (r :: rs) = reviseAll (r.revise shown) rs := rfl

theorem reviseAll_append (shown : Option ν) (rs rs' : List (Report κ ν)) :
    reviseAll shown (rs ++ rs') = reviseAll (reviseAll shown rs) rs' := List.foldl_append

/-- The report makes sense where this is shown of its element. Elements that do not count may be
moved and removed at any time. -/
def Report.Fits (counts : Prop) (shown : Option ν) : Report κ ν → Prop
  | .add _ _ => shown = none
  | .move _ _ => counts → shown.isSome
  | .remove _ => counts → shown.isSome

/-- The reports on one element make sense one after the other. -/
def Follows (counts : Prop) : Option ν → List (Report κ ν) → Prop
  | _, [] => True
  | shown, r :: rs => r.Fits counts shown ∧ Follows counts (r.revise shown) rs

theorem follows_append {counts : Prop} {shown : Option ν} {rs rs' : List (Report κ ν)} :
    Follows counts shown (rs ++ rs') ↔
      Follows counts shown rs ∧ Follows counts (reviseAll shown rs) rs' := by
  induction rs generalizing shown with
  | nil => simp [Follows]
  | cons r rs ih => rw [List.cons_append, Follows, Follows, ih, reviseAll_cons, and_assoc]

/-- A picture in which nothing is shown. -/
def blank (κ ν : Type) : κ → Option ν := fun _ => none

/-- The elements that are shown. -/
def support (p : κ → Option ν) : Set κ := {k | (p k).isSome}

@[simp] theorem mem_support {p : κ → Option ν} {k : κ} : k ∈ support p ↔ (p k).isSome := Iff.rfl

@[simp] theorem support_blank : support (blank κ ν) = ∅ := by
  refine Set.eq_empty_of_forall_notMem fun k hk => ?_
  cases hk

/-- The picture `q` shows under the names `f` what `p` shows, and nothing else. -/
structure Named (f : κ → ι) (U : Set κ) (p : κ → Option ν) (q : ι → Option ν) : Prop where
  same : ∀ k ∈ U, q (f k) = p k
  only : ∀ i, (q i).isSome → ∃ k ∈ U, f k = i

theorem named_blank (f : κ → ι) (U : Set κ) : Named f U (blank κ ν) (blank ι ν) :=
  ⟨fun _ _ => rfl, fun _ hi => by cases hi⟩

section Paint
variable [DecidableEq κ]

/-- The picture after the report. -/
def paint (p : κ → Option ν) (r : Report κ ν) : κ → Option ν :=
  Function.update p r.key (r.revise (p r.key))

/-- The picture after the reports. -/
def paintAll (p : κ → Option ν) (rs : List (Report κ ν)) : κ → Option ν := rs.foldl paint p

theorem paint_self (p : κ → Option ν) (r : Report κ ν) :
    paint p r r.key = r.revise (p r.key) := Function.update_self _ _ _

theorem paint_of_ne (p : κ → Option ν) (r : Report κ ν) {k : κ} (h : r.key ≠ k) :
    paint p r k = p k := Function.update_of_ne h.symm _ _

@[simp] theorem paintAll_nil (p : κ → Option ν) : paintAll p [] = p := rfl

@[simp] theorem paintAll_cons (p : κ → Option ν) (r : Report κ ν) (rs : List (Report κ ν)) :
    paintAll p (r :: rs) = paintAll (paint p r) rs := rfl

theorem paintAll_append (p : κ → Option ν) (rs rs' : List (Report κ ν)) :
    paintAll p (rs ++ rs') = paintAll (paintAll p rs) rs' := List.foldl_append

theorem support_paint (p : κ → Option ν) (r : Report κ ν) :
    support (paint p r) = r.change.apply (support p) := by
  refine Set.ext fun k => ?_
  by_cases hk : r.key = k
  · subst hk
    rw [mem_support, paint_self]
    cases r <;> simp [Report.revise, Report.key, Report.change, Change.apply]
  · rw [mem_support, paint_of_ne p r hk]
    have hkey : r.change.key ≠ k := by rwa [Report.change_key]
    show k ∈ support p ↔ _
    exact (Change.mem_apply_of_ne hkey).symm

theorem support_paintAll (p : κ → Option ν) (rs : List (Report κ ν)) :
    support (paintAll p rs) = replay (support p) (rs.map Report.change) := by
  induction rs generalizing p with
  | nil => rfl
  | cons r rs ih => rw [paintAll_cons, ih, List.map_cons, replay_cons, support_paint]

/-- The reports about the element. -/
def about (k : κ) (rs : List (Report κ ν)) : List (Report κ ν) := rs.filter fun r => r.key = k

theorem about_cons (k : κ) (r : Report κ ν) (rs : List (Report κ ν)) :
    about k (r :: rs) = if r.key = k then r :: about k rs else about k rs := by
  unfold about
  rw [List.filter_cons]
  simp only [decide_eq_true_eq]

theorem about_append (k : κ) (rs rs' : List (Report κ ν)) :
    about k (rs ++ rs') = about k rs ++ about k rs' := List.filter_append _ _

theorem about_of_key {k : κ} {rs : List (Report κ ν)} (h : ∀ r ∈ rs, r.key = k) :
    about k rs = rs := List.filter_eq_self.mpr fun r hr => decide_eq_true (h r hr)

theorem about_of_ne {k : κ} {rs : List (Report κ ν)} (h : ∀ r ∈ rs, r.key ≠ k) :
    about k rs = [] := List.filter_eq_nil_iff.mpr fun r hr hk => h r hr (of_decide_eq_true hk)

theorem about_flatMap {f : κ → List (Report κ ν)} (hf : ∀ l, ∀ r ∈ f l, r.key = l) {ks : List κ}
    (hks : ks.Nodup) (k : κ) : about k (ks.flatMap f) = if k ∈ ks then f k else [] := by
  induction ks with
  | nil => rfl
  | cons l ks ih =>
    obtain ⟨hl, hks⟩ := List.nodup_cons.mp hks
    rw [List.flatMap_cons, about_append, ih hks]
    by_cases hkl : l = k
    · subst hkl
      rw [about_of_key (hf l), if_neg hl, if_pos List.mem_cons_self, List.append_nil]
    · rw [about_of_ne fun r hr => (hf l r hr).symm ▸ hkl, List.nil_append]
      simp only [List.mem_cons, Ne.symm hkl, false_or]

theorem about_map {f : κ → Report κ ν} (hf : ∀ l, (f l).key = l) {ks : List κ} (hks : ks.Nodup)
    (k : κ) : about k (ks.map f) = if k ∈ ks then [f k] else [] := by
  have hsingle := about_flatMap (f := fun l => [f l])
    (fun l r hr => by rw [List.mem_singleton.mp hr, hf]) hks k
  rwa [← List.map_eq_flatMap] at hsingle

theorem paintAll_about (p : κ → Option ν) (rs : List (Report κ ν)) (k : κ) :
    paintAll p rs k = reviseAll (p k) (about k rs) := by
  induction rs generalizing p with
  | nil => rfl
  | cons r rs ih =>
    rw [paintAll_cons, ih, about_cons]
    by_cases hk : r.key = k
    · rw [if_pos hk, reviseAll_cons, ← hk, paint_self]
    · rw [if_neg hk, paint_of_ne p r hk]

theorem reported_of_shown {rs : List (Report κ ν)} {k : κ}
    (h : (paintAll (blank κ ν) rs k).isSome) : ∃ r ∈ rs, r.key = k := by
  by_contra hnone
  rw [paintAll_about, about_of_ne fun r hr hk => hnone ⟨r, hr, hk⟩] at h
  cases h

theorem legalIn_of_key {S : Set κ} {p : κ → Option ν} {k : κ} {rs : List (Report κ ν)}
    (hrs : ∀ r ∈ rs, r.key = k) (h : Follows (k ∈ S) (p k) rs) :
    LegalIn S (support p) (rs.map Report.change) := by
  induction rs generalizing p with
  | nil => trivial
  | cons r rs ih =>
    have hr := hrs r List.mem_cons_self
    subst hr
    rw [List.map_cons, LegalIn, ← support_paint]
    refine ⟨?_, ih (fun r' hr => hrs r' (List.mem_cons_of_mem r hr)) ?_⟩
    · cases r with
      | add l v =>
        intro hl
        have hnone : p l = none := h.1
        rw [mem_support, hnone] at hl
        cases hl
      | move l f => exact h.1
      | remove l => exact h.1
    · rw [paint_self]
      exact h.2

theorem legalIn_of_follows {S : Set κ} {p : κ → Option ν} {rs : List (Report κ ν)}
    (h : ∀ k, Follows (k ∈ S) (p k) (about k rs)) :
    LegalIn S (support p) (rs.map Report.change) := by
  refine legalIn_of_about fun k => ?_
  have hkey : ((fun c : Change κ => decide (c.key = k)) ∘ Report.change) =
      fun r : Report κ ν => decide (r.key = k) := by
    funext r
    simp
  rw [List.filter_map, hkey]
  exact legalIn_of_key (fun r hr => of_decide_eq_true (List.mem_filter.mp hr).2) (h k)

theorem Named.paintAll [DecidableEq ι] {f : κ → ι} {U : Set κ} (hf : Set.InjOn f U) {p : κ → Option ν}
    {q : ι → Option ν} (h : Named f U p q) {rs : List (Report κ ν)} (hrs : ∀ r ∈ rs, r.key ∈ U) :
    Named f U (paintAll p rs) (paintAll q (rs.map (.rename f))) := by
  induction rs generalizing p q with
  | nil => exact h
  | cons r rs ih =>
    have hr := hrs r List.mem_cons_self
    refine ih ⟨fun k hk => ?_, fun i hi => ?_⟩ fun r' hr => hrs r' (List.mem_cons_of_mem r hr)
    · by_cases hrk : r.key = k
      · have hself := paint_self q (r.rename f)
        rw [Report.rename_key, Report.rename_revise, h.same _ hr] at hself
        rw [← hrk, hself, paint_self]
      · rw [paint_of_ne p r hrk, paint_of_ne, h.same k hk]
        rw [Report.rename_key]
        exact fun heq => hrk (hf hr hk heq)
    · by_cases hri : f r.key = i
      · exact ⟨r.key, hr, hri⟩
      · rw [paint_of_ne q (r.rename f) (by rwa [Report.rename_key])] at hi
        exact h.only i hi

end Paint

end Picture
