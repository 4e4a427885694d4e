import Mathlib.Data.List.Basic

/-! A vector whose elements are relocated by move construction and shifted by move assignment.
`construct` is the element a move constructor builds from its argument, `assign` what a move
assignment makes of its target and its argument, `husk` what either leaves behind in it. -/

namespace MovedVector

structure Moves (α : Type) where
  construct : α → α
  assign : α → α → α
  husk : α → α

variable {α β : Type}

/-- Erase from a slot on: each slot is assigned the next element, the last one is destroyed. -/
def shiftDown (m : Moves α) : α → List α → List α
  | _, [] => []
  | slot, next :: rest => m.assign slot next :: shiftDown m (m.husk next) rest

/-- `erase(begin() + i)`. -/
def eraseAt (m : Moves α) (l : List α) (i : ℕ) : List α :=
  match l.drop i with
  | [] => l
  | slot :: rest => l.take i ++ shiftDown m slot rest

/-- `emplace_back(std::move(a))`; a full vector first moves its elements to a new allocation. -/
def emplaceBack (m : Moves α) (capacity : ℕ) (l : List α) (a : α) : List α :=
  if l.length = capacity then l.map m.construct ++ [m.construct a] else l ++ [m.construct a]

@[simp] theorem shiftDown_length (m : Moves α) (slot : α) (rest : List α) :
    (shiftDown m slot rest).length = rest.length := by
  induction rest generalizing slot with
  | nil => rfl
  | cons next rest ih => simp [shiftDown, ih]

theorem eraseAt_length (m : Moves α) (l : List α) (i : ℕ) (h : i < l.length) :
    (eraseAt m l i).length = l.length - 1 := by
  unfold eraseAt
  cases hd : l.drop i with
  | nil => simp only [List.drop_eq_nil_iff] at hd; omega
  | cons slot rest =>
    have hlen : (l.drop i).length = rest.length + 1 := by rw [hd]; rfl
    simp only [List.length_drop] at hlen
    simp only [List.length_append, List.length_take, shiftDown_length]
    omega

/-- The part of an element that the moves carry over. -/
structure Carried (m : Moves α) (carry : α → β) : Prop where
  construct : ∀ a, carry (m.construct a) = carry a
  assign : ∀ slot next, carry (m.assign slot next) = carry next

/-- The part of an element that a move assignment leaves in its slot. -/
structure Sticky (m : Moves α) (stay : α → β) : Prop where
  assign : ∀ slot next, stay (m.assign slot next) = stay slot
  husk : ∀ a, stay (m.husk a) = stay a

theorem shiftDown_carried {m : Moves α} {carry : α → β} (h : Carried m carry) (slot : α)
    (rest : List α) : (shiftDown m slot rest).map carry = rest.map carry := by
  induction rest generalizing slot with
  | nil => rfl
  | cons next rest ih => simp only [shiftDown, List.map_cons, h.assign, ih]

theorem shiftDown_sticky {m : Moves α} {stay : α → β} (h : Sticky m stay) (slot : α)
    (rest : List α) :
    (shiftDown m slot rest).map stay = ((slot :: rest).map stay).dropLast := by
  induction rest generalizing slot with
  | nil => rfl
  | cons next rest ih =>
    rw [shiftDown, List.map_cons, ih, h.assign]
    simp only [List.map_cons, h.husk, List.dropLast_cons_cons]

theorem eraseAt_carried {m : Moves α} {carry : α → β} (h : Carried m carry) (l : List α) (i : ℕ) :
    (eraseAt m l i).map carry = (l.map carry).eraseIdx i := by
  unfold eraseAt
  cases hd : l.drop i with
  | nil =>
    simp only [List.drop_eq_nil_iff] at hd
    rw [List.eraseIdx_of_length_le (by simpa using hd)]
  | cons slot rest =>
    have htail : rest = l.drop (i + 1) := by
      rw [← List.tail_drop, hd, List.tail_cons]
    rw [List.map_append, shiftDown_carried h, List.eraseIdx_eq_take_drop_succ, List.map_take, htail,
      List.map_drop]

theorem eraseAt_sticky {m : Moves α} {stay : α → β} (h : Sticky m stay) (l : List α) (i : ℕ)
    (hi : i < l.length) : (eraseAt m l i).map stay = (l.map stay).dropLast := by
  unfold eraseAt
  cases hd : l.drop i with
  | nil => simp only [List.drop_eq_nil_iff] at hd; omega
  | cons slot rest =>
    have hl : l = l.take i ++ slot :: rest := by rw [← hd, List.take_append_drop]
    conv_rhs => rw [hl]
    rw [List.map_append, shiftDown_sticky h, List.map_append,
      List.dropLast_append_of_ne_nil (by simp)]

/-- Between neighbours that agree on it, what a move assignment leaves in its slot is erased at the
index as well. -/
theorem eraseAt_sticky_eq {m : Moves α} {stay : α → β} (h : Sticky m stay) {l : List α} {i : ℕ}
    (hi : i < l.length)
    (heq : ∀ j a b, i ≤ j → l[j]? = some a → l[j + 1]? = some b → stay a = stay b) :
    (eraseAt m l i).map stay = (l.map stay).eraseIdx i := by
  rw [eraseAt_sticky h l i hi]
  apply List.ext_getElem?
  intro n
  rw [List.getElem?_dropLast, List.getElem?_eraseIdx, List.length_map]
  by_cases hn : n < i
  · rw [if_pos hn, if_pos (by omega)]
  · rw [if_neg hn, List.getElem?_map, List.getElem?_map]
    split_ifs with hlast
    · have ha : l[n]? = some l[n] := List.getElem?_eq_getElem _
      have hb : l[n + 1]? = some l[n + 1] := List.getElem?_eq_getElem _
      rw [ha, hb, Option.map_some, Option.map_some, heq n _ _ (by omega) ha hb]
    · rw [List.getElem?_eq_none (by omega), Option.map_none]

theorem emplaceBack_carried {m : Moves α} {carry : α → β} (h : Carried m carry) (capacity : ℕ)
    (l : List α) (a : α) :
    (emplaceBack m capacity l a).map carry = l.map carry ++ [carry a] := by
  unfold emplaceBack
  split
  · simp [h.construct, Function.comp_def]
  · simp [h.construct]

@[simp] theorem emplaceBack_length (m : Moves α) (capacity : ℕ) (l : List α) (a : α) :
    (emplaceBack m capacity l a).length = l.length + 1 := by
  unfold emplaceBack
  split <;> simp

end MovedVector
