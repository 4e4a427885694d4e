import Agar.Collisions
import Agar.Lib.SortedDifference

/-! `Player::Update` and the view of a player (`Player.cpp`): the split and feed commands, the
filter of the history, the events of the tick, the blocks that enter and leave the view. -/

namespace Agar
variable {K : Type} [Field K] [LinearOrder K] [Arith K]

namespace Game

/-- A cell of the player splits in two halves. -/
def splitCell (g : Game K) (i : ℕ) (cell : CellPtr) : Game K :=
  let sizeBefore := (g.heap cell).size
  let radius := Cell.getRadius (sizeBefore / 2)
  let g := g.setCell cell { g.heap cell with radius := radius }
  let direction := (g.heap cell).mouseVector.normalize
  let position := (g.heap cell).position + direction * (2 : K) * radius
  let (newCell, g) := g.newPlayerCell radius position (g.heap cell).color
  let g := (g.setCombine cell sizeBefore).setCombine newCell sizeBefore
  let g := g.setCell newCell ((g.heap newCell).addVelocity (direction * (splitVelocity : K)))
  g.pushCell i newCell

/-- The body of the split loop at index `x`. -/
def splitAt (g : Game K) (i x : ℕ) : Game K :=
  match (g.cellsOf i)[x]? with
  | none => g
  | some cell =>
    if (g.cellsOf i).length < 16 ∧ 42 < (g.heap cell).radius then g.splitCell i cell else g

/-- The split loop, over the cells present at its start. -/
def splitCells (g : Game K) (i : ℕ) : Game K :=
  (List.range (g.cellsOf i).length).foldl (fun g x => g.splitAt i x) g

/-- A cell ejects a food cell. -/
def feedCell (g : Game K) (cell : CellPtr) : Game K :=
  if playerMinSize < (g.heap cell).size - feedSize then
    let g := g.addSize cell (-feedSize)
    let radius := Cell.getRadius ((feedSize : K) * feedMult)
    let direction := (g.heap cell).mouseVector.normalize
    let perp := direction.perp
    let (r, g) := g.nextRand
    let direction := direction + perp * (feedDeviation : K) * ((r : K) / (randMax : K) - 0.5)
    let position := (g.heap cell).position + direction * ((g.heap cell).radius + radius)
    let (feed, g) := g.newCell radius position (g.heap cell).color
    let c := (g.heap feed).addForce (direction * (feedForce : K) * (g.heap feed).size)
    let g := g.setCell feed { c with flag := { c.flag with isFood := true } }
    g.addDynamic feed
  else g

def feedCells (g : Game K) (i : ℕ) : Game K := (g.cellsOf i).foldl feedCell g

def modifyPlayer (g : Game K) (i : ℕ) (f : Player K → Player K) : Game K :=
  { g with players := g.players.modify i f }

def splitCommand (g : Game K) (i : ℕ) (p : Player K) : Game K :=
  if p.doSplit then (g.modifyPlayer i fun p => { p with doSplit := false }).splitCells i else g

def feedCommand (g : Game K) (i : ℕ) (p : Player K) : Game K :=
  if p.doFeed then (g.modifyPlayer i fun p => { p with doFeed := false }).feedCells i else g

/-- The commands at the start of `Player::Update`. -/
def commands (g : Game K) (i : ℕ) (p : Player K) : Game K :=
  (g.splitCommand i p).feedCommand i p

end Game

namespace Player

def calculateCamera (g : Game K) (p : Player K) : Player K :=
  let totalRadius := p.cells.foldl (fun t c => t + (g.heap c).radius) (0 : K)
  let inv := 1 / totalRadius
  let pos := p.cells.foldl (fun t c => t + (g.heap c).position * ((g.heap c).radius * inv))
    (0 : Vec2 K)
  { p with totalRadius := totalRadius, camera := p.camera * (0.95 : K) + pos * (1 - 0.95 : K) }

variable [FloorRing K]

/-- The integers from `a` to `b`. -/
def intRange (a b : ℤ) : List ℤ := (List.range (b + 1 - a).toNat).map fun n => a + (n : ℤ)

/-- The blocks of the rectangle, row by row. -/
def viewBlocks (topLeft bottomRight : Vec2i) : List Vec2i :=
  (intRange topLeft.x bottomRight.x).flatMap fun x =>
    (intRange topLeft.y bottomRight.y).map fun y => ⟨x, y⟩

def updateView (g : Game K) (p : Player K) : Player K :=
  let p := p.calculateCamera g
  let size : K := p.cells.length
  let view := (4 + size * 3) * (p.totalRadius / size) + 1000
  -- without a radius the camera or the view is 0 / 0, not a number, and `max(Coord.x, 0.f)` makes a
  -- zero of it
  let blind : Bool := p.totalRadius = 0
  let topLeft := if blind then ⟨0, 0⟩ else
    indexFromCoord (p.camera - (⟨view * 1.6, view⟩ : Vec2 K))
  let bottomRight := if blind then ⟨0, 0⟩ else
    indexFromCoord (p.camera + (⟨view * 1.6, view⟩ : Vec2 K))
  { p with topLeft := topLeft, bottomRight := bottomRight,
           blocks := viewBlocks topLeft bottomRight }

end Player

variable [FloorRing K]

/-- A player in the middle of `Update`, with the calls made on its `WSMessage` so far. -/
structure Outgoing (K : Type) where
  player : Player K
  said : List (Msg K)

namespace Outgoing

/-- A call of one of the appenders of `WSMessage`. -/
def say (o : Outgoing K) (m : Msg K) : Outgoing K where
  player := { o.player with wsMessage := o.player.wsMessage.append m }
  said := o.said ++ [m]

def setHistory (o : Outgoing K) (history : List CellPtr) : Outgoing K :=
  { o with player := { o.player with cellHistory := history } }

/-- The loop over `CellHistory` from index `kept.length` on. -/
def filterHistoryFrom (g : Game K) (o : Outgoing K) (kept : List CellPtr) :
    List CellPtr → Outgoing K
  | [] => o.setHistory kept
  | history :: rest =>
    if (inside (g.heap history).position o.player.topLeft o.player.bottomRight).isNone then
      filterHistoryFrom g (o.say (.removeCell (g.heap history).id)) kept rest
    else filterHistoryFrom g o (kept ++ [history]) rest

/-- The cells of the history whose centers have left the view are dropped. -/
def filterHistory (g : Game K) (o : Outgoing K) : Outgoing K :=
  o.filterHistoryFrom g [] o.player.cellHistory

/-- A `CELL_MOVE` event. -/
def parseMove (g : Game K) (o : Outgoing K) (cell : CellPtr) : Outgoing K :=
  if (edgeInside (g.heap cell) o.player.topLeft o.player.bottomRight).isSome then
    if cell ∈ o.player.cellHistory then
      if (g.heap cell).flag.isPlayer || (g.heap cell).velocity.nonzero then
        o.say (g.heap cell).moveMsg
      else o
    else (o.setHistory (o.player.cellHistory ++ [cell])).say (g.heap cell).addMsg
  else o

/-- A `CELL_ADD_STATIC` event. -/
def parseAddStatic (g : Game K) (o : Outgoing K) (cell : CellPtr) : Outgoing K :=
  if (inside (g.heap cell).position o.player.topLeft o.player.bottomRight).isSome then
    o.say (g.heap cell).addMsg
  else o

/-- A `CELL_REMOVE_STATIC` event, with `DeleteStatic`. -/
def parseRemoveStatic (g : Game K) (o : Outgoing K) (cell : CellPtr) : Outgoing K :=
  if (inside (g.heap cell).position o.player.topLeft o.player.bottomRight).isSome then
    o.say (.removeCell (g.heap cell).id)
  else o

/-- `DeleteDynamic`: the first entry for the cell leaves the history. -/
def deleteDynamic (g : Game K) (o : Outgoing K) (cell : CellPtr) : Outgoing K :=
  if cell ∈ o.player.cellHistory then
    (o.setHistory (o.player.cellHistory.erase cell)).say (.removeCell (g.heap cell).id)
  else o

/-- A `CELL_REMOVE_DYNAMIC` event. -/
def parseRemoveDynamic (g : Game K) (o : Outgoing K) (cell : CellPtr) : Outgoing K :=
  if (edgeInside (g.heap cell) o.player.topLeft o.player.bottomRight).isSome then
    o.deleteDynamic g cell
  else o

/-- `Player::ParseEvents`. A `CELL_ADD_DYNAMIC` event does nothing. -/
def parseEvents (g : Game K) (o : Outgoing K) : Outgoing K :=
  let o := g.cellEvents.move.foldl (parseMove g) o
  let o := g.cellEvents.addStatic.foldl (parseAddStatic g) o
  let o := g.cellEvents.removeStatic.foldl (parseRemoveStatic g) o
  g.cellEvents.removeDynamic.foldl (parseRemoveDynamic g) o

/-- `Player::RemoveBlock`. -/
def removeBlock (g : Game K) (o : Outgoing K) (b : Vec2i) : Outgoing K :=
  (g.staticMap b).foldl (fun o cell => o.say (.removeCell (g.heap cell).id)) o

/-- `Player::AddBlock`. -/
def addBlock (g : Game K) (o : Outgoing K) (b : Vec2i) : Outgoing K :=
  (g.staticMap b).foldl (fun o cell => o.say (g.heap cell).addMsg) o

/-- The address of a block, in blocks from the start of `StaticMap`. -/
def blockAddress (b : Vec2i) : ℤ := b.x * numBlocks + b.y

/-- `Player::UpdateBlocks`. -/
def updateBlocks (g : Game K) (o : Outgoing K) : Outgoing K :=
  let old := o.player
  let o : Outgoing K := { o with player := o.player.updateView g }
  if old.topLeft ≠ o.player.topLeft ∨ old.bottomRight ≠ o.player.bottomRight then
    let gone := SortedDifference.setDifference blockAddress old.blocks o.player.blocks
    let new := SortedDifference.setDifference blockAddress o.player.blocks old.blocks
    new.foldl (addBlock g) (gone.foldl (removeBlock g) o)
  else o

/-- The rest of `Player::Update` after `ParseEvents`. -/
def finish (g : Game K) (o : Outgoing K) : Outgoing K :=
  let o := o.updateBlocks g
  o.say (.position o.player.camera.x o.player.camera.y)

end Outgoing

/-- One `Player::Update`, with the states on the way. -/
structure UpdateRecord (K : Type) where
  index : ℕ
  /-- The player at the call. -/
  player : Player K
  before : Game K
  /-- After the split and feed commands. -/
  commanded : Game K
  /-- Immediately after `ParseEvents`. -/
  parsed : Outgoing K
  /-- At the end, before the player is stored back. -/
  finished : Outgoing K

namespace UpdateRecord

/-- The state after the update. -/
def after (u : UpdateRecord K) : Game K := u.commanded.setPlayer u.index u.finished.player

end UpdateRecord

namespace Game

/-- `Players[i].Update()`. -/
def updatePlayer (g : Game K) (i : ℕ) (p : Player K) : UpdateRecord K :=
  let commanded := g.commands i p
  let start : Outgoing K := { player := commanded.players.getD i p, said := [] }
  let parsed := (start.filterHistory commanded).parseEvents commanded
  { index := i, player := p, before := g, commanded := commanded, parsed := parsed,
    finished := parsed.finish commanded }

end Game

end Agar
