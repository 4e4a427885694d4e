import Agar.Scalar

/-! A cell of the game, its motion and the outcome of a collision (`Cell.h`, `Cell.cpp`), and
the block a position falls in (`Map.h`, `Map.cpp`). -/

namespace Agar

def blockSize : ℕ := 100
def numBlocks : ℕ := 160
def mapSize : ℕ := blockSize * numBlocks

/-- The outcomes of `Cell::Collide`, in the order of the C++ enumeration. -/
inductive Collision
  | none
  | touch
  | overlap
  | bigger
  | smaller
  deriving DecidableEq

/-- The value of the enumerator, for the comparisons `Result >= OVERLAP` and `Result > NONE`. -/
def Collision.rank : Collision → ℕ
  | none => 0
  | touch => 1
  | overlap => 2
  | bigger => 3
  | smaller => 4

structure CellFlag where
  isVirus : Bool := false
  isFood : Bool := false
  isPlayer : Bool := false
  deriving DecidableEq

/-- The byte `*(uint8_t*)&Flag`: the first bit field is the lowest bit. -/
def CellFlag.byte (f : CellFlag) : BitVec 8 :=
  BitVec.ofNat 8 (f.isVirus.toNat + 2 * f.isFood.toNat + 4 * f.isPlayer.toNat)

structure Cell (K : Type) where
  force : Vec2 K
  acceleration : Vec2 K
  velocity : Vec2 K
  position : Vec2 K
  id : BitVec 32
  color : BitVec 32
  flag : CellFlag
  radius : K
  mouseVector : Vec2 K
  combineTime : K
  /-- Whether `CombineTime` has been assigned; the constructor leaves it as it finds it. -/
  combineSet : Bool

section Constants
variable {K : Type} [Field K]

def timeoutAck : K := 5
def sendInterval : K := 1 / 60
def maxVirus : ℕ := 100
def maxFood : ℕ := 1000
def foodRadius : K := 32
def feedSize : K := 20
def feedMult : K := 0.75
def virusMinRadius : K := 100
def playerMinRadius : K := 42
/-- `Cell::GetSize`. -/
def getSize (radius : K) : K := radius * radius * 0.01
def playerMinSize : K := getSize playerMinRadius
def sizeDamping : K := 2.2
def minimumDamping : K := 0.01
def maximumDamping : K := 0.05
def feedDamping : K := 0.02
def splitVelocity : K := 5000
def feedForce : K := 300000
def mouseForce : K := 1200
def virusVelocity : K := 3000
def feedDeviation : K := 0.2

end Constants

section Grid
variable {K : Type} [Field K] [LinearOrder K] [FloorRing K]

def indexFromCoord (coord : Vec2 K) : Vec2i :=
  ⟨min (trunc (max coord.x 0)) ((mapSize : ℤ) - 1) / (blockSize : ℤ),
   min (trunc (max coord.y 0)) ((mapSize : ℤ) - 1) / (blockSize : ℤ)⟩

/-- `Map::EdgeInside`: the block of the cell's center when the cell reaches into the view. -/
def edgeInside (cell : Cell K) (start stop : Vec2i) : Option Vec2i :=
  let stop : Vec2i := ⟨stop.x + 1, stop.y + 1⟩
  let pos := cell.position / (blockSize : K)
  let posi := indexFromCoord cell.position
  let radius := cell.radius / (blockSize : K)
  if (start.x : K) ≤ pos.x + radius ∧ (start.y : K) ≤ pos.y + radius ∧
      pos.x - radius ≤ (stop.x : K) ∧ pos.y - radius ≤ (stop.y : K) then some posi else none

/-- `Map::Inside`: the block of the point when it lies in the view. -/
def inside (point : Vec2 K) (start stop : Vec2i) : Option Vec2i :=
  let pos := indexFromCoord point
  if start.x ≤ pos.x ∧ start.y ≤ pos.y ∧ pos.x ≤ stop.x ∧ pos.y ≤ stop.y then some pos else none

end Grid

namespace Cell
variable {K : Type} [Field K]

/-- `Cell::GetRadius`. -/
def getRadius [Arith K] (size : K) : K := Arith.sqrt (size * 100)

def size (c : Cell K) : K := c.radius * c.radius * 0.01

def addSize [Arith K] (c : Cell K) (size : K) : Cell K :=
  { c with radius := Arith.sqrt ((size + c.size) * 100) }

def addForce (c : Cell K) (force : Vec2 K) : Cell K := { c with force := c.force + force }

def addVelocity (c : Cell K) (velocity : Vec2 K) : Cell K :=
  { c with velocity := c.velocity + velocity }

variable [LinearOrder K]

def moveAbs (c : Cell K) (position : Vec2 K) : Cell K :=
  { c with position := ⟨min ((mapSize : K) - 0.001) (max 0 position.x),
                        min ((mapSize : K) - 0.001) (max 0 position.y)⟩ }

def moveRel (c : Cell K) (offset : Vec2 K) : Cell K := c.moveAbs (c.position + offset)

variable [Arith K]

def update (c : Cell K) (dt : K) : Cell K :=
  let alpha := if c.flag.isFood then 0 else (c.force.dot c.velocity + 1) / 2
  let dampingFactor :=
    if c.flag.isFood then feedDamping else minimumDamping * alpha + maximumDamping * (1 - alpha)
  let dragMagnitude := c.velocity.length * Arith.pow c.radius sizeDamping * dampingFactor
  let force := c.force + c.velocity.normalize * dragMagnitude * (-1 : K)
  let acceleration := force / c.size
  let velocity := c.velocity + acceleration * dt
  let moved := { c with acceleration := acceleration, velocity := velocity }.moveRel (velocity * dt)
  { moved with force := 0 }

/-- The value `Cell::Collide` stores through its `Overlap` argument. -/
def overlapOf (a b : Cell K) : K := b.radius + a.radius - (b.position - a.position).length

/-- A radius of zero makes a divisor zero: `Overlap_ / SmallD` is infinite then, or no number if the
cells only touch, and the sizes are compared in the same way. -/
def collide (a b : Cell K) : Collision :=
  let smallD := 2 * min a.radius b.radius
  let overlap := a.overlapOf b
  if 0 ≤ overlap then
    if quotientAbove overlap smallD 0.75 then
      if quotientAbove a.size b.size 1.3333 then .bigger
      else if quotientBelow a.size b.size 0.75 then .smaller
      else .overlap
    else .touch
  else .none

end Cell

end Agar
