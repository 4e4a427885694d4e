import Agar.Update

/-! The server: `Map::Init`, the game loop (`Game.cpp`), the callbacks of libwebsockets
(`WebSocket.cpp`), and the runs they make up. -/

namespace Agar
variable {K : Type} [Field K] [LinearOrder K] [FloorRing K] [Arith K]

namespace Game

/-- `Map::AddStatic`: a cell with the same ID in the block of the center keeps it out. -/
def addStatic (g : Game K) (p : CellPtr) : Game K :=
  let b := indexFromCoord (g.heap p).position
  if (g.staticMap b).any fun q => (g.heap p).id = (g.heap q).id then g
  else { g with staticMap := fun b' => if b' = b then g.staticMap b ++ [p] else g.staticMap b' }

/-- `Map::RemoveStatic(Cell *)`: the first cell with the ID in the block of the center. -/
def removeStatic (g : Game K) (p : CellPtr) : Game K :=
  let b := indexFromCoord (g.heap p).position
  match (g.staticMap b).findIdx? fun q => (g.heap p).id = (g.heap q).id with
  | none => g
  | some index => g.removeStaticAt b index

/-- `Map::RemoveDynamic(Cell *)`: the last entry for the cell. -/
def removeDynamic (g : Game K) (p : CellPtr) : Game K :=
  { g with dynamicMap := (g.dynamicMap.reverse.erase p).reverse }

def setFlag (g : Game K) (p : CellPtr) (f : CellFlag → CellFlag) : Game K :=
  g.setCell p { g.heap p with flag := f (g.heap p).flag }

/-- One round of the food loop of `Map::Init`. -/
def addFood (g : Game K) : Game K :=
  let (position, g) := g.randomPosition
  let (color, g) := g.randomColor
  let (food, g) := g.newCell foodRadius position color
  (g.setFlag food fun f => { f with isFood := true }).addStatic food

/-- One round of the virus loop of `Map::Init`. -/
def addVirus (g : Game K) : Game K :=
  let (position, g) := g.randomPosition
  let (virus, g) := g.newCell virusMinRadius position 0x00FF00
  (g.setFlag virus fun f => { f with isVirus := true }).addDynamic virus

/-- The statics before `Map::Init`. -/
def empty (rand : ℕ → Fin (randMax + 1)) (stale : CellPtr → K) : Game K where
  allocated := 0
  heap := fun _ =>
    { force := 0, acceleration := 0, velocity := 0, position := 0, id := 0, color := 0, flag := {},
      radius := 0, mouseVector := 0, combineTime := 0, combineSet := false }
  staticMap := fun _ => []
  dynamicMap := []
  cellEvents := {}
  players := []
  capacity := 0
  currentTime := 0
  rand := rand
  stale := stale
  calls := []
  undefined := false

/-- `Map::Init`. -/
def mapInit (g : Game K) : Game K := addVirus^[maxVirus] (addFood^[maxFood] g)

/-- `Player::Player`, with `Init`. -/
def newPlayer (g : Game K) (w : Wsi) : Player K × Game K :=
  let (position, g) := g.randomPosition
  let (color, g) := g.randomColor
  let (cell, g) := g.newPlayerCell 1000 position color
  let p : Player K :=
    { wsi := w, cells := [cell], camera := 0, doSplit := false, doFeed := false,
      topLeft := ⟨0, 0⟩, bottomRight := ⟨0, 0⟩, totalRadius := 0, sendTime := 0, blocks := [],
      cellHistory := [], wsMessage := .new }
  (p.updateView g, g)

/-- `Players.emplace_back(std::move(p))`. A full vector takes a larger allocation. -/
def emplacePlayer (g : Game K) (p : Player K) (grown : ℕ) : Game K :=
  { g with
    players := MovedVector.emplaceBack Player.moves g.capacity g.players p
    capacity := if g.players.length = g.capacity then max grown (g.players.length + 1)
      else g.capacity }

/-- `Player::Mouse`. -/
def mouse (g : Game K) (cells : List CellPtr) (m : Vec2 K) : Game K :=
  cells.foldl (fun g c => g.setCell c { g.heap c with mouseVector := m - (g.heap c).position }) g

end Game

namespace Player

def canSend (p : Player K) (currentTime : K) : Bool :=
  let diff := currentTime - p.sendTime
  timeoutAck < diff ∨ (p.wsMessage.ack ∧ sendInterval < diff)

/-- `Player::Send`. -/
def send (p : Player K) (currentTime : K) (accepted : Bool) : Bool × Player K :=
  if p.canSend currentTime ∧ (p.wsMessage.send accepted).1 then
    (true, { p with wsMessage := (p.wsMessage.send accepted).2, sendTime := currentTime })
  else (false, p)

end Player

/-- What happens in a run, recorded in order for the statements. No code reads it. -/
inductive Obs (K : Type)
  /-- `Players.emplace_back(Player(wsi))`, with the server before and after it. -/
  | joined (player : Player K) (before after : Game K)
  | received (wsi : Wsi) (packet : List Byte)
  /-- `lws_write` accepted the packet. -/
  | wrote (wsi : Wsi) (time : K) (packet : List Byte)
  /-- `Players.erase(Players.begin() + x)`, with the server before it. -/
  | erased (before : Game K) (x : ℕ)
  /-- The collision phase of a tick, with the server before and after it. -/
  | collided (before after : Game K)
  | updated (u : UpdateRecord K)
  /-- `lws_callback_on_writable(wsi)`. -/
  | requested (wsi : Wsi)
  /-- The end of a tick. -/
  | ticked (g : Game K)

/-- The server and what has happened so far. -/
structure Sys (K : Type) where
  game : Game K
  trace : List (Obs K)

namespace Sys

def observe (s : Sys K) (o : Obs K) : Sys K := { s with trace := s.trace ++ [o] }

/-- `Players.erase(Players.begin() + x)`. -/
def erasePlayer (s : Sys K) (x : ℕ) : Sys K where
  game := { s.game with players := MovedVector.eraseAt Player.moves s.game.players x }
  trace := s.trace ++ [.erased s.game x]

/-- The loop of the tick that drops the players whose buffer is nearly full. -/
def kickFrom (s : Sys K) (x : ℕ) : Sys K :=
  match h : s.game.players[x]? with
  | none => s
  | some p =>
    if p.wsMessage.connected then kickFrom s (x + 1) else kickFrom (s.erasePlayer x) x
termination_by s.game.players.length - x
decreasing_by
  all_goals have hlt := Game.getElem?_lt h
  · omega
  · have hlen := MovedVector.eraseAt_length Player.moves s.game.players x hlt
    show (MovedVector.eraseAt Player.moves s.game.players x).length - x < _
    omega

end Sys

namespace Game

/-- The start of `game_loop_cb`: the clock is read and the events of the last tick are dropped. -/
def beginTick (g : Game K) (clock : K) : Game K :=
  { g with currentTime := clock, cellEvents := {} }

/-- `cell->Update(dt)`. -/
def updateCell (dt : K) (g : Game K) (p : CellPtr) : Game K :=
  (g.noteUpdate p).setCell p ((g.heap p).update dt)

/-- The first loop of the tick. -/
def updateDynamic (g : Game K) (dt : K) : Game K := g.dynamicMap.foldl (updateCell dt) g

/-- A player's cell moves, the mouse pulls it, and a `CELL_MOVE` event is pushed. -/
def driveCell (dt : K) (g : Game K) (p : CellPtr) : Game K :=
  let g := g.updateCell dt p
  let c := g.heap p
  let alpha := c.mouseVector.length / c.radius
  let direction : Vec2 K := c.mouseVector.normalize * (mouseForce * c.size : K)
  let direction : Vec2 K := if alpha < 1 then direction * alpha else direction
  let g := if 0.1 < alpha then g.setCell p (c.addForce direction) else g
  g.pushMove p

/-- The loops over the players' cells and over `DynamicMap` that push the `CELL_MOVE` events. -/
def drive (g : Game K) (dt : K) : Game K :=
  let g := (g.players.flatMap Player.cells).foldl (driveCell dt) g
  g.dynamicMap.foldl pushMove g

/-- `Game::ParseEvents`. -/
def parseEvents (g : Game K) : Game K :=
  let events := g.cellEvents
  let g := events.addStatic.foldl addStatic g
  let g := events.removeStatic.foldl removeStatic g
  let g := events.addDynamic.foldl addDynamic g
  events.removeDynamic.foldl removeDynamic g

end Game

namespace Sys

def collide (s : Sys K) : Sys K where
  game := s.game.collisionPhase
  trace := s.trace ++ [.collided s.game s.game.collisionPhase]

/-- `Players[i].Update()`, then `lws_callback_on_writable`. -/
def updateAt (s : Sys K) (i : ℕ) : Sys K :=
  match s.game.players[i]? with
  | none => s
  | some p =>
    { game := (s.game.updatePlayer i p).after
      trace := s.trace ++ [.updated (s.game.updatePlayer i p), .requested p.wsi] }

def updateAll (s : Sys K) : Sys K := (List.range s.game.players.length).foldl updateAt s

/-- The part of `game_loop_cb` before the collision phase. -/
def tickStart (s : Sys K) (clock : K) : Sys K :=
  let dt := clock - s.game.currentTime
  kickFrom { s with game := (s.game.beginTick clock).updateDynamic dt } 0

/-- The part of `game_loop_cb` up to the updates of the players. -/
def tickMoved (s : Sys K) (clock : K) : Sys K :=
  let dt := clock - s.game.currentTime
  let s := (s.tickStart clock).collide
  { s with game := s.game.drive dt }

/-- `Game::game_loop_cb`. -/
def tick (s : Sys K) (clock : K) : Sys K :=
  let s := (s.tickMoved clock).updateAll
  let s := { s with game := s.game.parseEvents }
  s.observe (.ticked s.game)

/-- One round of the loop of `LWS_CALLBACK_SERVER_WRITEABLE`. -/
def sendAt (clock : K) (accepts : ℕ → Bool) (s : Sys K) (i : ℕ) : Sys K :=
  match s.game.players[i]? with
  | none => s
  | some p =>
    let r := p.send clock (accepts i)
    let s := if r.1 then s.observe (.wrote p.wsi clock p.wsMessage.pending) else s
    { s with game := s.game.setPlayer i r.2 }

def sendAll (s : Sys K) (clock : K) (accepts : ℕ → Bool) : Sys K :=
  (List.range s.game.players.length).foldl (sendAt clock accepts) s

/-- A player is created for the connection. -/
def join (s : Sys K) (w : Wsi) (grown : ℕ) : Sys K where
  game := (s.game.newPlayer w).2.emplacePlayer (s.game.newPlayer w).1 grown
  trace := s.trace ++ [.joined (s.game.newPlayer w).1 s.game
    ((s.game.newPlayer w).2.emplacePlayer (s.game.newPlayer w).1 grown)]

/-- `LWS_CALLBACK_SERVER_WRITEABLE`. `accepts i` says whether `lws_write` takes a packet of
player `i`, `grown` is the capacity of a new allocation. -/
def writeable (s : Sys K) (w : Wsi) (clock : K) (accepts : ℕ → Bool) (grown : ℕ) : Sys K :=
  let found := s.game.players.any fun p => w = p.wsi
  let s := s.sendAll clock accepts
  if found then s else s.join w grown

end Sys

/-- The byte of the packet, or what memory holds after the packet. -/
def byteAt (packet : List Byte) (beyond : ℕ → Byte) (n : ℕ) : Byte := packet.getD n (beyond n)

/-- `GETINT16`. -/
def int16At (packet : List Byte) (beyond : ℕ → Byte) (n : ℕ) : ℤ :=
  (byteAt packet beyond (n + 1) ++ byteAt packet beyond n : BitVec 16).toInt

namespace Game

/-- `LWS_CALLBACK_RECEIVE` for a player whose connection it is. -/
def receivePlayer (packet : List Byte) (beyond : ℕ → Byte) (g : Game K) (i : ℕ) : Game K :=
  let g := g.modifyPlayer i fun p => { p with wsMessage := p.wsMessage.acknowledge }
  let type := byteAt packet beyond 0
  if type = msgMouse then
    g.mouse (g.cellsOf i) ⟨(int16At packet beyond 1 : ℤ), (int16At packet beyond 3 : ℤ)⟩
  else if type = msgSplit then g.modifyPlayer i fun p => { p with doSplit := true }
  else if type = msgFeed then g.modifyPlayer i fun p => { p with doFeed := true }
  else g

/-- One round of the loop of `LWS_CALLBACK_RECEIVE`. -/
def receiveAt (w : Wsi) (packet : List Byte) (beyond : ℕ → Byte) (g : Game K) (i : ℕ) : Game K :=
  match g.players[i]? with
  | none => g
  | some p => if w = p.wsi then g.receivePlayer packet beyond i else g

def receiveAll (g : Game K) (w : Wsi) (packet : List Byte) (beyond : ℕ → Byte) : Game K :=
  (List.range g.players.length).foldl (receiveAt w packet beyond) g

end Game

namespace Sys

/-- `LWS_CALLBACK_RECEIVE`. -/
def receive (s : Sys K) (w : Wsi) (packet : List Byte) (beyond : ℕ → Byte) : Sys K :=
  let s := s.observe (.received w packet)
  if packet.length < 1 then s
  else { s with game := s.game.receiveAll w packet beyond }.observe (.requested w)

/-- `LWS_CALLBACK_WS_PEER_INITIATED_CLOSE`. -/
def peerClose (s : Sys K) (w : Wsi) : Sys K :=
  match s.game.players.findIdx? fun p => w = p.wsi with
  | none => s
  | some x => s.erasePlayer x

end Sys

/-- What the server reacts to. -/
inductive Event (K : Type)
  | tick (clock : K)
  | writeable (wsi : Wsi) (clock : K) (accepts : ℕ → Bool) (grown : ℕ)
  | receive (wsi : Wsi) (packet : List Byte) (beyond : ℕ → Byte)
  | peerClose (wsi : Wsi)
  /-- Any callback `callback_wsapi` has nothing to do in, such as an established connection. -/
  | other

namespace Sys

def step (s : Sys K) : Event K → Sys K
  | .tick clock => s.tick clock
  | .writeable w clock accepts grown => s.writeable w clock accepts grown
  | .receive w packet beyond => s.receive w packet beyond
  | .peerClose w => s.peerClose w
  | .other => s

/-- After `LWS_CALLBACK_PROTOCOL_INIT`. -/
def init (rand : ℕ → Fin (randMax + 1)) (stale : CellPtr → K) : Sys K where
  game := (Game.empty rand stale).mapInit
  trace := []

end Sys

/-- A run of the server: the numbers `rand` returns, what fresh memory holds, the events. -/
structure Run (K : Type) where
  rand : ℕ → Fin (randMax + 1)
  stale : CellPtr → K
  events : List (Event K)

namespace Run

/-- The server at the end of the run. -/
def final (r : Run K) : Sys K := r.events.foldl Sys.step (Sys.init r.rand r.stale)

end Run

end Agar
