import Mathlib.Data.List.Range

/-! A region of memory filled from the front: entries are written at the end pointer, and the
window between the two pointers is what has been written since the last reset. -/

namespace AppendBuffer

/-- Memory with a start and an end offset, the end never before the start. -/
structure Region (β : Type) where
  memory : ℕ → β
  start : ℕ
  stop : ℕ
  start_le : start ≤ stop

variable {β : Type}

/-- The entries from the start offset up to the end offset. -/
def window (r : Region β) : List β := (List.range' r.start (r.stop - r.start)).map r.memory

def push (r : Region β) (b : β) : Region β where
  memory := fun i => if i = r.stop then b else r.memory i
  start := r.start
  stop := r.stop + 1
  start_le := r.start_le.trans (Nat.le_succ _)

def pushAll (r : Region β) (bs : List β) : Region β := bs.foldl push r

/-- Fill the memory with one value and take the end pointer back to the start. -/
def reset (r : Region β) (fill : β) : Region β where
  memory := fun _ => fill
  start := r.start
  stop := r.start
  start_le := le_rfl

@[simp] theorem window_length (r : Region β) : (window r).length = r.stop - r.start := by
  simp [window]

@[simp] theorem push_start (r : Region β) (b : β) : (push r b).start = r.start := rfl
@[simp] theorem push_stop (r : Region β) (b : β) : (push r b).stop = r.stop + 1 := rfl

theorem window_push (r : Region β) (b : β) : window (push r b) = window r ++ [b] := by
  have hlen : r.stop + 1 - r.start = (r.stop - r.start) + 1 := by
    have := r.start_le
    omega
  have hlast : r.start + 1 * (r.stop - r.start) = r.stop := by
    have := r.start_le
    omega
  unfold window
  simp only [push_start, push_stop, hlen, List.range'_concat, List.map_append, List.map_cons,
    List.map_nil, hlast]
  congr 1
  · apply List.map_congr_left
    intro i hi
    have hne : i ≠ r.stop := by
      simp only [List.mem_range'_1] at hi
      omega
    simp [push, hne]
  · simp [push]

@[simp] theorem pushAll_nil (r : Region β) : pushAll r [] = r := rfl

theorem pushAll_append (r : Region β) (as bs : List β) :
    pushAll r (as ++ bs) = pushAll (pushAll r as) bs := List.foldl_append

@[simp] theorem pushAll_start (r : Region β) (bs : List β) : (pushAll r bs).start = r.start := by
  induction bs generalizing r with
  | nil => rfl
  | cons b bs ih => exact (ih (push r b)).trans (push_start r b)

@[simp] theorem pushAll_stop (r : Region β) (bs : List β) :
    (pushAll r bs).stop = r.stop + bs.length := by
  induction bs generalizing r with
  | nil => rfl
  | cons b bs ih =>
    rw [pushAll, List.foldl_cons, ← pushAll, ih, push_stop, List.length_cons]
    omega

theorem window_pushAll (r : Region β) (bs : List β) :
    window (pushAll r bs) = window r ++ bs := by
  induction bs generalizing r with
  | nil => simp
  | cons b bs ih =>
    rw [pushAll, List.foldl_cons, ← pushAll, ih, window_push, List.append_assoc]
    rfl

@[simp] theorem window_reset (r : Region β) (fill : β) : window (reset r fill) = [] := by
  simp [window, reset]

@[simp] theorem reset_start (r : Region β) (fill : β) : (reset r fill).start = r.start := rfl
@[simp] theorem reset_stop (r : Region β) (fill : β) : (reset r fill).stop = r.start := rfl

end AppendBuffer
