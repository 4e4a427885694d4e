import Mathlib

/-! Numbers of the game: exact arithmetic over an ordered field, with the functions of
`math.h` the code calls, and the vectors of `Vec.h`. -/

namespace Agar

/-- The `math.h` functions the code applies to its floats. -/
class Arith (K : Type) where
  sqrt : K → K
  pow : K → K → K
  cos : K → K
  sin : K → K
  atan2 : K → K → K

noncomputable instance : Arith ℝ where
  sqrt := Real.sqrt
  pow := fun x y => x ^ y
  cos := Real.cos
  sin := Real.sin
  atan2 := fun y x => Complex.arg ⟨x, y⟩

@[simp] theorem arith_sqrt_real (x : ℝ) : Arith.sqrt x = Real.sqrt x := rfl

-- A literal that several modules write has an instance of its own, and is the same term in all of
-- them.
instance literal2 : Nat.AtLeastTwo 2 := ⟨by decide⟩
instance literal3 : Nat.AtLeastTwo 3 := ⟨by decide⟩
instance literal4 : Nat.AtLeastTwo 4 := ⟨by decide⟩
instance literal6 : Nat.AtLeastTwo 6 := ⟨by decide⟩
instance literal7 : Nat.AtLeastTwo 7 := ⟨by decide⟩
instance literal20 : Nat.AtLeastTwo 20 := ⟨by decide⟩
instance literal42 : Nat.AtLeastTwo 42 := ⟨by decide⟩
instance literal60 : Nat.AtLeastTwo 60 := ⟨by decide⟩
instance literal100 : Nat.AtLeastTwo 100 := ⟨by decide⟩
instance literal500 : Nat.AtLeastTwo 500 := ⟨by decide⟩
instance literal1000 : Nat.AtLeastTwo 1000 := ⟨by decide⟩

section Quotients
variable {K : Type} [Field K] [LinearOrder K]

/-- `a / b > c`, where the quotient by zero is infinite with the sign of `a`, and no number if `a`
is zero as well. -/
def quotientAbove (a b c : K) : Bool := if b = 0 then 0 < a else c < a / b

/-- `a / b < c`, with the same quotients by zero. -/
def quotientBelow (a b c : K) : Bool := if b = 0 then a < 0 else a / b < c

theorem quotientAbove_iff {a b c : K} (hb : b ≠ 0) : quotientAbove a b c = true ↔ c < a / b := by
  unfold quotientAbove
  rw [if_neg hb, decide_eq_true_eq]

theorem quotientBelow_iff {a b c : K} (hb : b ≠ 0) : quotientBelow a b c = true ↔ a / b < c := by
  unfold quotientBelow
  rw [if_neg hb, decide_eq_true_eq]

end Quotients

section Conversions
variable {K : Type} [Field K] [LinearOrder K] [FloorRing K]

/-- `(int32_t)x`: conversion to an integer drops the fraction. -/
def trunc (x : K) : ℤ := if 0 ≤ x then ⌊x⌋ else ⌈x⌉

/-- Rounding to the nearest integer, ties to even. -/
def roundEven (x : K) : ℤ :=
  let f := ⌊x⌋
  if x - f < 1 / 2 then f else if 1 / 2 < x - f then f + 1 else if f % 2 = 0 then f else f + 1

/-- The 32-bit pattern of the float nearest to `x`, as `SETFLOAT` stores it. A significand that
rounds up to the next power of two carries into the exponent. -/
def floatBits (x : K) : BitVec 32 :=
  if x = 0 then 0 else
    let e : ℤ := max (-126) (Int.log 2 |x|)
    let m : ℤ := roundEven (|x| / 2 ^ (e - 23))
    let magnitude : ℤ := min ((e + 126) * 2 ^ 23 + m) 0x7F800000
    BitVec.ofInt 32 (if x < 0 then magnitude + 2 ^ 31 else magnitude)

end Conversions

@[ext] structure Vec2 (K : Type) where
  x : K
  y : K

namespace Vec2
variable {K : Type} [Field K]

instance : Zero (Vec2 K) := ⟨⟨0, 0⟩⟩
instance : Add (Vec2 K) := ⟨fun a b => ⟨a.x + b.x, a.y + b.y⟩⟩
instance : Sub (Vec2 K) := ⟨fun a b => ⟨a.x - b.x, a.y - b.y⟩⟩
instance : HMul (Vec2 K) K (Vec2 K) := ⟨fun v s => ⟨v.x * s, v.y * s⟩⟩
instance : HDiv (Vec2 K) K (Vec2 K) := ⟨fun v s => ⟨v.x / s, v.y / s⟩⟩

@[simp] theorem zero_x : (0 : Vec2 K).x = 0 := rfl
@[simp] theorem zero_y : (0 : Vec2 K).y = 0 := rfl
@[simp] theorem add_x (a b : Vec2 K) : (a + b).x = a.x + b.x := rfl
@[simp] theorem add_y (a b : Vec2 K) : (a + b).y = a.y + b.y := rfl
@[simp] theorem sub_x (a b : Vec2 K) : (a - b).x = a.x - b.x := rfl
@[simp] theorem sub_y (a b : Vec2 K) : (a - b).y = a.y - b.y := rfl
@[simp] theorem mul_x (a : Vec2 K) (s : K) : (a * s).x = a.x * s := rfl
@[simp] theorem mul_y (a : Vec2 K) (s : K) : (a * s).y = a.y * s := rfl
@[simp] theorem div_x (a : Vec2 K) (s : K) : (a / s).x = a.x / s := rfl
@[simp] theorem div_y (a : Vec2 K) (s : K) : (a / s).y = a.y / s := rfl

variable [LinearOrder K] [Arith K]

/-- `explicit operator bool`. -/
def nonzero (v : Vec2 K) : Bool := v.x ≠ 0 ∨ v.y ≠ 0

def length (v : Vec2 K) : K := Arith.sqrt (v.x * v.x + v.y * v.y)

def normalize (v : Vec2 K) : Vec2 K :=
  let len := v.length
  if len = 0 then v else
    let inv := 1 / len
    ⟨v.x * inv, v.y * inv⟩

def dot (v rhs : Vec2 K) : K :=
  let t := v.normalize
  let t2 := rhs.normalize
  t.x * t2.x + t.y * t2.y

def angle (v : Vec2 K) : K := Arith.atan2 v.y v.x

def perp (v : Vec2 K) : Vec2 K := ⟨v.y, -v.x⟩

def fromAngle (angle : K) : Vec2 K := ⟨Arith.cos angle, Arith.sin angle⟩

def rotate (v : Vec2 K) (angle : K) : Vec2 K := fromAngle (v.angle + angle)

end Vec2

/-- A pair of integers: an index into the block grid. -/
structure Vec2i where
  x : ℤ
  y : ℤ
  deriving DecidableEq

end Agar
