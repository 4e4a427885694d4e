import Agar.Cell
import Agar.Lib.AppendBuffer

/-! The outgoing message buffer of a player (`Message.h`, `Message.cpp`): the three pointers
`_data`, `Data`, `Ptr`, the appenders, and the one send of everything between `Data` and `Ptr`. -/

namespace Agar
open AppendBuffer

abbrev Byte := BitVec 8

/-- `LWS_PRE`, the room libwebsockets wants before the payload. -/
def lwsPre : ℕ := 16
def maxSize : ℕ := 1 <<< 16

def msgAddCell : Byte := 0x00
def msgRemoveCell : Byte := 0x01
def msgMoveCell : Byte := 0x02
def msgPosition : Byte := 0x10
def msgMouse : Byte := 0x80
def msgSplit : Byte := 0x81
def msgFeed : Byte := 0x82

/-- The four bytes of a word as they lie in memory, lowest first. -/
def wordBytes (w : BitVec 32) : List Byte :=
  [w.extractLsb' 0 8, w.extractLsb' 8 8, w.extractLsb' 16 8, w.extractLsb' 24 8]

@[simp] theorem wordBytes_length (w : BitVec 32) : (wordBytes w).length = 4 := rfl

/-- `_data`, `Data` and `Ptr` are set together and made null together, by the moves. The region
is the allocation they point into: `Data` its start offset, `Ptr` its end offset. Bytes written
past `maxSize` are kept in the region; in the program they overrun the allocation. -/
structure Message where
  ack : Bool
  region : Option (Region Byte)

namespace Message

/-- The constructor: `Data` lies `LWS_PRE` bytes into the zeroed allocation. -/
def new : Message where
  ack := false
  region := some { memory := fun _ => 0, start := lwsPre, stop := lwsPre, start_le := le_rfl }

/-- What the move operations leave behind in their argument. -/
def movedFrom : Message := { ack := false, region := none }

/-- The bytes between `Data` and `Ptr`. -/
def pending (m : Message) : List Byte :=
  match m.region with
  | none => []
  | some r => window r

/-- The offset `Ptr - _data`. -/
def ptr (m : Message) : ℕ :=
  match m.region with
  | none => 0
  | some r => r.stop

def write (m : Message) (bs : List Byte) : Message :=
  { m with region := m.region.map fun r => pushAll r bs }

def setUint8 (m : Message) (value : Byte) : Message := m.write [value]
def setInt8 (m : Message) (value : Byte) : Message := m.write [value]
def setUint32 (m : Message) (value : BitVec 32) : Message := m.write (wordBytes value)

def acknowledge (m : Message) : Message := { m with ack := true }

def clear (m : Message) : Message :=
  { m with region := m.region.map fun r => reset r 0 }

/-- `Message::Send`: `accepted` says whether `lws_write` takes the packet. The packet handed
to `lws_write`, if there is one, is the pending window. -/
def send (m : Message) (accepted : Bool) : Bool × Message :=
  if m.pending.length ≠ 0 ∧ accepted then (true, { m with ack := false }.clear) else (false, m)

def spaceLeft (m : Message) : ℤ := (maxSize : ℤ) - m.ptr

/-- The signed space is compared with an unsigned constant, hence as an unsigned number. -/
def connected (m : Message) : Bool := (maxSize >>> 2 : ℕ) < m.spaceLeft % 2 ^ 32

theorem new_connected : new.connected = true := by decide

end Message

section Appenders
variable {K : Type} [Field K] [LinearOrder K] [FloorRing K]

/-- A message to the client, with the values the appender writes. -/
inductive Msg (K : Type)
  | addCell (id : BitVec 32) (x y radius : K) (color : BitVec 32) (flag : CellFlag)
  | removeCell (id : BitVec 32)
  | moveCell (id : BitVec 32) (x y radius : K) (color : BitVec 32)
  | position (x y : K)

def Cell.addMsg (c : Cell K) : Msg K :=
  .addCell c.id c.position.x c.position.y c.radius c.color c.flag

def Cell.moveMsg (c : Cell K) : Msg K :=
  .moveCell c.id c.position.x c.position.y c.radius c.color

namespace Message

def setFloat (m : Message) (value : K) : Message := m.setUint32 (floatBits value)

/-- The four appenders `AddCell`, `RemoveCell`, `MoveCell` and `Position`. -/
def append (m : Message) : Msg K → Message
  | .addCell id x y radius color flag =>
    (((((((m.setUint8 msgAddCell).setUint32 id).setFloat x).setFloat y).setFloat radius).setUint32
      color).setUint8 flag.byte).setInt8 (-1)
  | .removeCell id => (m.setUint8 msgRemoveCell).setUint32 id
  | .moveCell id x y radius color =>
    (((((m.setUint8 msgMoveCell).setUint32 id).setFloat x).setFloat y).setFloat radius).setUint32
      color
  | .position x y => ((m.setUint8 msgPosition).setFloat x).setFloat y

def appendAll (m : Message) (msgs : List (Msg K)) : Message := msgs.foldl append m

end Message

/-- The bytes of a message. -/
def Msg.encode : Msg K → List Byte
  | .addCell id x y radius color flag =>
    msgAddCell :: (wordBytes id ++ wordBytes (floatBits x) ++ wordBytes (floatBits y) ++
      wordBytes (floatBits radius) ++ wordBytes color ++ [flag.byte] ++ [-1])
  | .removeCell id => msgRemoveCell :: wordBytes id
  | .moveCell id x y radius color =>
    msgMoveCell :: (wordBytes id ++ wordBytes (floatBits x) ++ wordBytes (floatBits y) ++
      wordBytes (floatBits radius) ++ wordBytes color)
  | .position x y => msgPosition :: (wordBytes (floatBits x) ++ wordBytes (floatBits y))

/-- The number of bytes of a message. -/
def Msg.size : Msg K → ℕ
  | .addCell .. => 23
  | .removeCell .. => 5
  | .moveCell .. => 21
  | .position .. => 9

@[simp] theorem Msg.encode_length (x : Msg K) : x.encode.length = x.size := by
  cases x <;> rfl

end Appenders

namespace Message

theorem write_write (m : Message) (as bs : List Byte) :
    (m.write as).write bs = m.write (as ++ bs) := by
  simp only [write, Option.map_map]
  congr 2
  funext r
  exact (pushAll_append r as bs).symm

@[simp] theorem write_ack (m : Message) (bs : List Byte) : (m.write bs).ack = m.ack := rfl

@[simp] theorem write_isSome (m : Message) (bs : List Byte) :
    (m.write bs).region.isSome = m.region.isSome := by
  cases h : m.region <;> simp [write, h]

theorem write_pending (m : Message) (bs : List Byte) (h : m.region.isSome) :
    (m.write bs).pending = m.pending ++ bs := by
  obtain ⟨r, hr⟩ := Option.isSome_iff_exists.mp h
  simp only [pending, write, hr, Option.map_some, window_pushAll]

theorem write_ptr (m : Message) (bs : List Byte) (h : m.region.isSome) :
    (m.write bs).ptr = m.ptr + bs.length := by
  obtain ⟨r, hr⟩ := Option.isSome_iff_exists.mp h
  simp only [ptr, write, hr, Option.map_some, pushAll_stop]

variable {K : Type} [Field K] [LinearOrder K] [FloorRing K]

theorem append_eq_write (m : Message) (x : Msg K) : m.append x = m.write x.encode := by
  cases x <;>
    simp only [append, setUint8, setInt8, setUint32, setFloat, write_write, Msg.encode,
      List.append_assoc, List.cons_append, List.nil_append]

theorem appendAll_eq_write (m : Message) (xs : List (Msg K)) :
    m.appendAll xs = m.write (xs.flatMap Msg.encode) := by
  induction xs generalizing m with
  | nil =>
    cases m with
    | mk a r => cases r <;> rfl
  | cons x xs ih =>
    rw [appendAll, List.foldl_cons, ← appendAll, ih, append_eq_write, write_write]
    rfl

theorem appendAll_append (m : Message) (xs ys : List (Msg K)) :
    m.appendAll (xs ++ ys) = (m.appendAll xs).appendAll ys := List.foldl_append

@[simp] theorem appendAll_ack (m : Message) (xs : List (Msg K)) :
    (m.appendAll xs).ack = m.ack := by
  rw [appendAll_eq_write, write_ack]

@[simp] theorem appendAll_isSome (m : Message) (xs : List (Msg K)) :
    (m.appendAll xs).region.isSome = m.region.isSome := by
  rw [appendAll_eq_write, write_isSome]

theorem appendAll_pending (m : Message) (xs : List (Msg K)) (h : m.region.isSome) :
    (m.appendAll xs).pending = m.pending ++ xs.flatMap Msg.encode := by
  rw [appendAll_eq_write, write_pending m _ h]

/-- The bytes a list of messages takes in the buffer. -/
def bytes (xs : List (Msg K)) : ℕ := (xs.map Msg.size).sum

theorem flatMap_encode_length (xs : List (Msg K)) : (xs.flatMap Msg.encode).length = bytes xs := by
  simp [bytes, List.length_flatMap]

theorem appendAll_ptr (m : Message) (xs : List (Msg K)) (h : m.region.isSome) :
    (m.appendAll xs).ptr = m.ptr + bytes xs := by
  rw [appendAll_eq_write, write_ptr m _ h, flatMap_encode_length]

end Message

end Agar
