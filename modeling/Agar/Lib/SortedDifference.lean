import Mathlib.Data.List.Sort

/-! `std::set_difference` on two sorted ranges: the merge that keeps the elements of the first
range that the second one lacks. -/

namespace SortedDifference

variable {α : Type} (key : α → ℤ)

/-- The ranges are compared through an integer key, such as an address. -/
def setDifference : List α → List α → List α
  | [], _ => []
  | a :: as, [] => a :: as
  | a :: as, b :: bs =>
    if key a < key b then a :: setDifference as (b :: bs)
    else if key b < key a then setDifference (a :: as) bs
    else setDifference as bs
termination_by as bs => as.length + bs.length

/-- Sorted by strictly increasing keys. -/
def Sorted (as : List α) : Prop := as.Pairwise fun a b => key a < key b

variable {key}

theorem mem_of_mem_setDifference {as bs : List α} {x : α} (h : x ∈ setDifference key as bs) :
    x ∈ as := by
  induction as, bs using setDifference.induct key with
  | case1 bs => simp [setDifference] at h
  | case2 a as => simpa [setDifference] using h
  | case3 a as b bs hab ih =>
    rw [setDifference, if_pos hab] at h
    rcases List.mem_cons.mp h with h | h
    · exact h ▸ List.mem_cons_self
    · exact List.mem_cons_of_mem _ (ih h)
  | case4 a as b bs hab hba ih =>
    rw [setDifference, if_neg hab, if_pos hba] at h
    exact ih h
  | case5 a as b bs hab hba ih =>
    rw [setDifference, if_neg hab, if_neg hba] at h
    exact List.mem_cons_of_mem _ (ih h)

theorem mem_setDifference {as bs : List α} (ha : Sorted key as) (hb : Sorted key bs) (x : α) :
    x ∈ setDifference key as bs ↔ x ∈ as ∧ ∀ b ∈ bs, key b ≠ key x := by
  induction as, bs using setDifference.induct key with
  | case1 bs => simp [setDifference]
  | case2 a as => simp [setDifference]
  | case3 a as b bs hab ih =>
    have ha' := List.pairwise_cons.mp ha
    have hb' := List.pairwise_cons.mp hb
    rw [setDifference, if_pos hab, List.mem_cons, List.mem_cons, ih ha'.2 hb]
    constructor
    · rintro (rfl | ⟨hx, hn⟩)
      · refine ⟨Or.inl rfl, fun c hc => ?_⟩
        rcases List.mem_cons.mp hc with rfl | hc
        · exact ne_of_gt hab
        · exact ne_of_gt (hab.trans (hb'.1 c hc))
      · exact ⟨Or.inr hx, hn⟩
    · rintro ⟨rfl | hx, hn⟩
      · exact Or.inl rfl
      · exact Or.inr ⟨hx, hn⟩
  | case4 a as b bs hab hba ih =>
    have ha' := List.pairwise_cons.mp ha
    have hb' := List.pairwise_cons.mp hb
    rw [setDifference, if_neg hab, if_pos hba, ih ha hb'.2]
    refine and_congr_right fun hx => ?_
    have hbx : key b ≠ key x := by
      rcases List.mem_cons.mp hx with rfl | hx
      · exact ne_of_lt hba
      · exact ne_of_lt (hba.trans (ha'.1 x hx))
    simp [hbx]
  | case5 a as b bs hab hba ih =>
    have ha' := List.pairwise_cons.mp ha
    have hb' := List.pairwise_cons.mp hb
    have hkey : key a = key b := le_antisymm (not_lt.mp hba) (not_lt.mp hab)
    rw [setDifference, if_neg hab, if_neg hba, ih ha'.2 hb'.2]
    constructor
    · rintro ⟨hx, hn⟩
      refine ⟨List.mem_cons_of_mem _ hx, fun c hc => ?_⟩
      rcases List.mem_cons.mp hc with rfl | hc
      · exact ne_of_lt (hkey ▸ ha'.1 x hx)
      · exact hn c hc
    · rintro ⟨hx, hn⟩
      rcases List.mem_cons.mp hx with rfl | hx
      · exact absurd hkey.symm (hn b List.mem_cons_self)
      · exact ⟨hx, fun c hc => hn c (List.mem_cons_of_mem _ hc)⟩

theorem setDifference_nodup {as bs : List α} (h : as.Nodup) : (setDifference key as bs).Nodup := by
  induction as, bs using setDifference.induct key with
  | case1 bs => simp [setDifference]
  | case2 a as => simpa [setDifference] using h
  | case3 a as b bs hab ih =>
    have h' := List.nodup_cons.mp h
    rw [setDifference, if_pos hab]
    exact List.nodup_cons.mpr ⟨fun hm => h'.1 (mem_of_mem_setDifference hm), ih h'.2⟩
  | case4 a as b bs hab hba ih =>
    rw [setDifference, if_neg hab, if_pos hba]
    exact ih h
  | case5 a as b bs hab hba ih =>
    rw [setDifference, if_neg hab, if_neg hba]
    exact ih (List.nodup_cons.mp h).2

end SortedDifference
