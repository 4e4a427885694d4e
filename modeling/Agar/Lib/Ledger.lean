import Mathlib.Algebra.BigOperators.Group.List.Basic

/-! A total that a log accounts for: where the log is sound, the total has changed by what the
entries that have come since gain. -/

/-- A total of the states, the log they keep, what an entry of the log gains, and which logs are
sound. -/
structure Ledger (σ κ M : Type) where
  log : σ → List κ
  total : σ → M
  gain : κ → M
  sound : List κ → Prop
  sound_append : ∀ l l', sound (l ++ l') → sound l ∧ sound l'

namespace Ledger
variable {σ κ M : Type} [AddCommMonoid M] (L : Ledger σ κ M)

/-- What the entries gain together. -/
def gained (l : List κ) : M := (l.map L.gain).sum

theorem gained_append (l l' : List κ) : L.gained (l ++ l') = L.gained l + L.gained l' := by
  unfold gained
  rw [List.map_append, List.sum_append]

theorem gained_eq_zero {l : List κ} (h : ∀ a ∈ l, L.gain a = 0) : L.gained l = 0 :=
  List.sum_eq_zero fun x hx => by
    obtain ⟨a, ha, rfl⟩ := List.mem_map.mp hx
    exact h a ha

/-- From the one state to the other the log has grown and accounts for the total. -/
def Balances (s s' : σ) : Prop :=
  ∃ l, L.log s' = L.log s ++ l ∧ (L.sound l → L.total s' = L.total s + L.gained l)

variable {L} {s s' s'' : σ}

theorem Balances.of_total {l : List κ} (hlog : L.log s' = L.log s ++ l)
    (hgain : ∀ a ∈ l, L.gain a = 0) (htotal : L.total s' = L.total s) : L.Balances s s' :=
  ⟨l, hlog, fun _ => by rw [L.gained_eq_zero hgain, add_zero, htotal]⟩

theorem Balances.of_unsound {l : List κ} (hlog : L.log s' = L.log s ++ l) (h : ¬ L.sound l) :
    L.Balances s s' := ⟨l, hlog, fun hs => absurd hs h⟩

theorem Balances.refl (s : σ) : L.Balances s s :=
  .of_total (l := []) (List.append_nil _).symm (fun _ h => by cases h) rfl

theorem Balances.trans (h : L.Balances s s') (h' : L.Balances s' s'') : L.Balances s s'' := by
  obtain ⟨l, hlog, htotal⟩ := h
  obtain ⟨l', hlog', htotal'⟩ := h'
  refine ⟨l ++ l', by rw [hlog', hlog, List.append_assoc], fun hs => ?_⟩
  obtain ⟨hsound, hsound'⟩ := L.sound_append l l' hs
  rw [htotal' hsound', htotal hsound, L.gained_append, add_assoc]

theorem balances_foldl {α : Type} {f : σ → α → σ} {P : σ → Prop} {l : List α}
    (hround : ∀ s, ∀ a ∈ l, P s → L.Balances s (f s a) ∧ P (f s a)) (hs : P s) :
    L.Balances s (l.foldl f s) := by
  induction l generalizing s with
  | nil => exact .refl s
  | cons a l ih =>
    obtain ⟨hfirst, hnext⟩ := hround s a List.mem_cons_self hs
    exact hfirst.trans (ih (fun s b hb => hround s b (List.mem_cons_of_mem a hb)) hnext)

theorem Balances.carry {start : M} (h : L.Balances s s')
    (hs : L.sound (L.log s) → L.total s = start + L.gained (L.log s))
    (hsound : L.sound (L.log s')) : L.total s' = start + L.gained (L.log s') := by
  obtain ⟨l, hlog, htotal⟩ := h
  rw [hlog] at hsound ⊢
  obtain ⟨hbefore, hsince⟩ := L.sound_append _ _ hsound
  rw [htotal hsince, hs hbefore, L.gained_append, add_assoc]

end Ledger
