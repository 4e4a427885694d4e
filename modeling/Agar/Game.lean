import Agar.Message
import Agar.Lib.MovedVector

/-! The state of the server: the statics of `Game`, `Map` and `Cell`, the cells on the heap, and
the players (`Game.h`, `Map.h`, `Player.h`). Cells are reached through pointers, as in the code:
the vectors hold pointers and read the cell when they need it. -/

namespace Agar

/-- A `Cell *`: the number of cells allocated before it. No cell is ever deleted. -/
abbrev CellPtr := ℕ

/-- A `struct lws *`. -/
abbrev Wsi := ℕ

/-- `RAND_MAX` of the Visual C++ runtime. -/
def randMax : ℕ := 32767

instance (priority := high) randMax_succ : NeZero (randMax + 1) := ⟨Nat.succ_ne_zero randMax⟩

/-- `Map::CellEvents`, one vector for each event. -/
structure CellEvents where
  move : List CellPtr := []
  addStatic : List CellPtr := []
  removeStatic : List CellPtr := []
  addDynamic : List CellPtr := []
  removeDynamic : List CellPtr := []

structure Player (K : Type) where
  wsi : Wsi
  cells : List CellPtr
  camera : Vec2 K
  doSplit : Bool
  doFeed : Bool
  topLeft : Vec2i
  bottomRight : Vec2i
  totalRadius : K
  sendTime : K
  blocks : List Vec2i
  cellHistory : List CellPtr
  wsMessage : Message

/-- What the code does on the way, recorded in order for the statements. No code reads it. -/
inductive Call (K : Type)
  /-- `a->Collide(b)`, with the two radii. -/
  | collide (a b : CellPtr) (ra rb : K) (result : Collision)
  /-- `cell->AddSize(added)`, with `cell->Size()` before it. -/
  | addSize (cell : CellPtr) (size added : K)
  /-- `cell->Update(dt)`, with the radius it divides by. -/
  | update (cell : CellPtr) (radius : K)
  /-- The small balls of a pop are due: the size of the cell that ate the virus and the number of
  the player's cells, before the pop. -/
  | pop (cell : CellPtr) (size : K) (count : ℕ)
  /-- `16 - Cells.size()` is computed. -/
  | slots (count : ℕ)
  /-- `Cells.push_back`, with the number of cells after it. -/
  | pushed (count : ℕ)
  /-- `CombineTime` is read, and whether it has been assigned. -/
  | readCombine (cell : CellPtr) (assigned : Bool)
  /-- `CollideSelf` lets another cell absorb this one, and what the slot it erases holds. -/
  | absorb (cell : CellPtr) (slot : Option CellPtr)

structure Game (K : Type) where
  /-- The number of cells constructed so far, `CurrentID` is this modulo 2³². -/
  allocated : ℕ
  heap : CellPtr → Cell K
  staticMap : Vec2i → List CellPtr
  dynamicMap : List CellPtr
  cellEvents : CellEvents
  players : List (Player K)
  /-- The capacity of the `Players` vector. -/
  capacity : ℕ
  currentTime : K
  /-- The values the next calls of `rand()` return. -/
  rand : ℕ → Fin (randMax + 1)
  /-- What `CombineTime` holds in fresh memory. -/
  stale : CellPtr → K
  calls : List (Call K)
  /-- An erase outside of a vector was executed: the language says nothing about the rest. -/
  undefined : Bool

namespace Player
variable {K : Type}

/-- The move constructor: `DoSplit` and `DoFeed` are not in its list and take their initializers. -/
def moveConstruct (other : Player K) : Player K := { other with doSplit := false, doFeed := false }

/-- The move assignment: `DoSplit` and `DoFeed` are not assigned. -/
def moveAssign (this other : Player K) : Player K :=
  { other with doSplit := this.doSplit, doFeed := this.doFeed }

/-- A player that has been moved from. -/
def husk (other : Player K) : Player K :=
  { other with cells := [], blocks := [], cellHistory := [], wsMessage := .movedFrom }

def moves : MovedVector.Moves (Player K) where
  construct := moveConstruct
  assign := moveAssign
  husk := husk

end Player

namespace Game
variable {K : Type}

def note (g : Game K) (c : Call K) : Game K := { g with calls := g.calls ++ [c] }

def setCell (g : Game K) (p : CellPtr) (c : Cell K) : Game K :=
  { g with heap := fun q => if q = p then c else g.heap q }

/-- `Players[i].Cells`. -/
def cellsOf (g : Game K) (i : ℕ) : List CellPtr :=
  match g.players[i]? with
  | none => []
  | some p => p.cells

def setCells (g : Game K) (i : ℕ) (cells : List CellPtr) : Game K :=
  { g with players := g.players.modify i fun p => { p with cells := cells } }

def setPlayer (g : Game K) (i : ℕ) (p : Player K) : Game K :=
  { g with players := g.players.set i p }

/-- `Cells.push_back(p)`. -/
def pushCell (g : Game K) (i : ℕ) (p : CellPtr) : Game K :=
  let g := g.setCells i (g.cellsOf i ++ [p])
  g.note (.pushed (g.cellsOf i).length)

/-- `Cells.erase(Cells.begin() + loop)` inside the vector. -/
def eraseCell (g : Game K) (i : ℕ) (loop : ℕ) : Game K :=
  g.setCells i ((g.cellsOf i).eraseIdx loop)

def eraseDynamic (g : Game K) (loop : ℕ) : Game K :=
  { g with dynamicMap := g.dynamicMap.eraseIdx loop }

/-- `Map::RemoveStatic(Block *, index)`. -/
def removeStaticAt (g : Game K) (b : Vec2i) (index : ℕ) : Game K :=
  { g with staticMap := fun b' => if b' = b then (g.staticMap b).eraseIdx index else g.staticMap b' }

def pushRemoveStatic (g : Game K) (p : CellPtr) : Game K :=
  { g with cellEvents := { g.cellEvents with removeStatic := g.cellEvents.removeStatic ++ [p] } }

def pushRemoveDynamic (g : Game K) (p : CellPtr) : Game K :=
  { g with cellEvents := { g.cellEvents with removeDynamic := g.cellEvents.removeDynamic ++ [p] } }

def pushMove (g : Game K) (p : CellPtr) : Game K :=
  { g with cellEvents := { g.cellEvents with move := g.cellEvents.move ++ [p] } }

/-- `Map::AddDynamic`. -/
def addDynamic (g : Game K) (p : CellPtr) : Game K := { g with dynamicMap := g.dynamicMap ++ [p] }

/-- One call of `rand()`. -/
def nextRand (g : Game K) : ℕ × Game K := (g.rand 0, { g with rand := fun n => g.rand (n + 1) })

/-- `Cell::COLORS`. -/
def colors : List (BitVec 32) :=
  [0xFF0000, 0x00FF00, 0x0000FF, 0x808000, 0x008080, 0x800080, 0xFF8000, 0x00FF80, 0x8000FF,
    0xfff607, 0x3f07ff, 0x07dbff, 0x07aaff, 0x0728ff, 0x2eff07]

def randomColor (g : Game K) : BitVec 32 × Game K :=
  let (r, g) := g.nextRand
  (colors.getD (r % 15) 0, g)

variable [Field K]

/-- `Map::RandomPosition`. -/
def randomPosition (g : Game K) : Vec2 K × Game K :=
  let (x, g) := g.nextRand
  let (y, g) := g.nextRand
  (⟨(x % mapSize : ℕ), (y % mapSize : ℕ)⟩, g)

/-- `new Cell(Radius, Position, Color)`. -/
def newCell (g : Game K) (radius : K) (position : Vec2 K) (color : BitVec 32) :
    CellPtr × Game K :=
  let p := g.allocated
  let c : Cell K :=
    { force := 0, acceleration := 0, velocity := 0, position := position,
      id := BitVec.ofNat 32 p, color := color, flag := {}, radius := radius, mouseVector := 0,
      combineTime := g.stale p, combineSet := false }
  (p, { g.setCell p c with allocated := p + 1 })

/-- `cell->AddSize(size)`. -/
def addSize [Arith K] (g : Game K) (p : CellPtr) (size : K) : Game K :=
  (g.note (.addSize p (g.heap p).size size)).setCell p ((g.heap p).addSize size)

variable [LinearOrder K] [Arith K]

/-- `vec2::Rand`. -/
def randDirection (g : Game K) : Vec2 K × Game K :=
  let (x, g) := g.nextRand
  let (y, g) := g.nextRand
  ((⟨((x : ℤ) - (randMax / 2 : ℕ) : ℤ), ((y : ℤ) - (randMax / 2 : ℕ) : ℤ)⟩ : Vec2 K).normalize, g)

def noteCollide (g : Game K) (a b : CellPtr) : Game K :=
  g.note (.collide a b (g.heap a).radius (g.heap b).radius ((g.heap a).collide (g.heap b)))

def noteUpdate (g : Game K) (p : CellPtr) : Game K := g.note (.update p (g.heap p).radius)

end Game

end Agar
