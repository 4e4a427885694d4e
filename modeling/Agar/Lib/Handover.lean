import Mathlib.Algebra.BigOperators.Group.List.Basic
import Mathlib.Data.List.Nodup
import Mathlib.Data.Nat.Cast.Basic
import Mathlib.Tactic.Abel

/-! Values kept in lists: an element that leaves may hand its value over to one that stays, and the
total is what it was. -/

namespace Handover

variable {α β M : Type}

theorem flatMap_perm_cons {l : List α} (hl : l.Nodup) {f f' : α → List β} {a : α} (ha : a ∈ l)
    {b : β} (hb : (f a).Perm (b :: f' a)) (hother : ∀ c ∈ l, c ≠ a → f' c = f c) :
    (l.flatMap f).Perm (b :: l.flatMap f') := by
  induction l with
  | nil => cases ha
  | cons c l ih =>
    obtain ⟨hc, hl'⟩ := List.nodup_cons.mp hl
    rw [List.flatMap_cons, List.flatMap_cons]
    rcases List.mem_cons.mp ha with rfl | ha
    · have hrest : l.flatMap f' = l.flatMap f := List.flatMap_congr fun d hd =>
        hother d (List.mem_cons_of_mem a hd) fun h => hc (h ▸ hd)
      rw [hrest]
      exact hb.append_right _
    · have hne : c ≠ a := fun h => hc (h ▸ ha)
      rw [hother c List.mem_cons_self hne]
      refine ((ih hl' ha fun d hd => hother d (List.mem_cons_of_mem c hd)).append_left _).trans ?_
      exact List.perm_middle

theorem sum_eq [AddCommMonoid M] [DecidableEq α] {l l' : List α} (hl : l.Nodup) {loser winner : α}
    (hperm : l.Perm (loser :: l')) (hw : winner ∈ l') {value value' : α → M}
    (hwinner : value' winner = value winner + value loser)
    (hother : ∀ a ∈ l', a ≠ winner → value' a = value a) :
    (l'.map value').sum = (l.map value).sum := by
  have hl' : l'.Nodup := (List.nodup_cons.mp (hperm.nodup_iff.mp hl)).2
  have hrest : ((l'.erase winner).map value') = (l'.erase winner).map value :=
    List.map_congr_left fun a ha => hother a (List.mem_of_mem_erase ha)
      (hl'.mem_erase_iff.mp ha).1
  have hsplit := List.perm_cons_erase hw
  rw [(hperm.map value).sum_eq, List.map_cons, List.sum_cons, (hsplit.map value').sum_eq,
    (hsplit.map value).sum_eq, List.map_cons, List.sum_cons, List.map_cons, List.sum_cons, hrest,
    hwinner]
  rw [add_comm (value winner), add_assoc]

theorem sum_change [AddCommMonoid M] [DecidableEq α] {l : List α} (hl : l.Nodup) {a : α}
    (ha : a ∈ l) (value value' : α → M) (hother : ∀ b ∈ l, b ≠ a → value' b = value b) :
    (l.map value').sum + value a = (l.map value).sum + value' a := by
  have hrest : (l.erase a).map value' = (l.erase a).map value :=
    List.map_congr_left fun b hb => hother b (List.mem_of_mem_erase hb) (hl.mem_erase_iff.mp hb).1
  have hsplit := List.perm_cons_erase ha
  rw [(hsplit.map value).sum_eq, (hsplit.map value').sum_eq, List.map_cons, List.sum_cons,
    List.map_cons, List.sum_cons, hrest, add_right_comm, add_comm (value' a), add_right_comm,
    add_comm (value a)]

theorem sum_spent {l : List α} (p : α → Bool) {R : Type} [Ring R] {value value' : α → R} {cost : R}
    (hspent : ∀ a ∈ l, p a = true → value' a = value a - cost)
    (hother : ∀ a ∈ l, p a = false → value' a = value a) :
    (l.map value').sum = (l.map value).sum - cost * ((l.filter p).length : R) := by
  induction l with
  | nil => simp
  | cons a l ih =>
    have hrest := ih (fun b hb => hspent b (List.mem_cons_of_mem a hb))
      fun b hb => hother b (List.mem_cons_of_mem a hb)
    rw [List.map_cons, List.sum_cons, List.map_cons, List.sum_cons, hrest]
    rcases hp : p a with - | -
    · rw [hother a List.mem_cons_self hp, List.filter_cons_of_neg (by simp [hp])]
      abel
    · rw [hspent a List.mem_cons_self hp, List.filter_cons_of_pos hp, List.length_cons,
        Nat.cast_succ, mul_add, mul_one]
      abel

end Handover
