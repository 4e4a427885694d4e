import Agar.Message
import Agar.Lib.SelfDelimiting

/-! The outgoing format as bit patterns: what the four appenders write for any field values, and
the decoder that reads it back by the type bytes. -/

namespace Agar
open AppendBuffer SelfDelimiting

/-- A message with its fields as they lie in the buffer: floats and integers as 32-bit patterns. -/
inductive Wire
  | addCell (id x y radius color : BitVec 32) (flag : Byte)
  | removeCell (id : BitVec 32)
  | moveCell (id x y radius color : BitVec 32)
  | position (x y : BitVec 32)

namespace Message

/-- The four appenders on bit patterns. -/
def appendWire (m : Message) : Wire → Message
  | .addCell id x y radius color flag =>
    (((((((m.setUint8 msgAddCell).setUint32 id).setUint32 x).setUint32 y).setUint32
      radius).setUint32 color).setUint8 flag).setInt8 (-1)
  | .removeCell id => (m.setUint8 msgRemoveCell).setUint32 id
  | .moveCell id x y radius color =>
    (((((m.setUint8 msgMoveCell).setUint32 id).setUint32 x).setUint32 y).setUint32
      radius).setUint32 color
  | .position x y => ((m.setUint8 msgPosition).setUint32 x).setUint32 y

def appendWires (m : Message) (ws : List Wire) : Message := ws.foldl appendWire m

end Message

section Floats
variable {K : Type} [Field K] [LinearOrder K] [FloorRing K]

/-- The bit patterns of a message. -/
def Msg.wire : Msg K → Wire
  | .addCell id x y radius color flag =>
    .addCell id (floatBits x) (floatBits y) (floatBits radius) color flag.byte
  | .removeCell id => .removeCell id
  | .moveCell id x y radius color =>
    .moveCell id (floatBits x) (floatBits y) (floatBits radius) color
  | .position x y => .position (floatBits x) (floatBits y)

theorem Message.append_eq_appendWire (m : Message) (x : Msg K) :
    m.append x = m.appendWire x.wire := by
  cases x <;> rfl

end Floats

namespace Wire

/-- The bytes of a message. -/
def encode : Wire → List Byte
  | .addCell id x y radius color flag =>
    msgAddCell :: (wordBytes id ++ wordBytes x ++ wordBytes y ++ wordBytes radius ++
      wordBytes color ++ [flag] ++ [-1])
  | .removeCell id => msgRemoveCell :: wordBytes id
  | .moveCell id x y radius color =>
    msgMoveCell :: (wordBytes id ++ wordBytes x ++ wordBytes y ++ wordBytes radius ++
      wordBytes color)
  | .position x y => msgPosition :: (wordBytes x ++ wordBytes y)

/-- The word whose bytes lie in memory in this order. -/
def word (a b c d : Byte) : BitVec 32 := d ++ c ++ b ++ a

theorem word_wordBytes (w : BitVec 32) :
    word (w.extractLsb' 0 8) (w.extractLsb' 8 8) (w.extractLsb' 16 8) (w.extractLsb' 24 8) = w := by
  apply BitVec.eq_of_getLsbD_eq
  intro i hi
  unfold word
  simp only [BitVec.getLsbD_append, BitVec.getLsbD_extractLsb']
  split_ifs with h1 h2 h3
  · simp [h1]
  · simp [h2, show 8 + (i - 8) = i by omega]
  · simp [show i - 8 - 8 < 8 by omega, show 16 + (i - 8 - 8) = i by omega]
  · simp [show i - 8 - 8 - 8 < 8 by omega, show 24 + (i - 8 - 8 - 8) = i by omega]

/-- Four bytes off the front of the stream as a word. -/
def takeWord : List Byte → Option (BitVec 32 × List Byte)
  | a :: b :: c :: d :: rest => some (word a b c d, rest)
  | _ => none

@[simp] theorem takeWord_wordBytes (w : BitVec 32) (rest : List Byte) :
    takeWord (wordBytes w ++ rest) = some (w, rest) := by
  show some (word _ _ _ _, rest) = some (w, rest)
  rw [word_wordBytes]

/-- The two bytes that end an `AddCell` message. -/
def takeFlag : List Byte → Option (Byte × List Byte)
  | flag :: _ :: rest => some (flag, rest)
  | _ => none

/-- One message off the front of the stream. The type byte alone says which fields follow. -/
def parse : List Byte → Option (Wire × List Byte)
  | [] => none
  | type :: bytes =>
    if type = msgAddCell then do
      let (id, bytes) ← takeWord bytes
      let (x, bytes) ← takeWord bytes
      let (y, bytes) ← takeWord bytes
      let (radius, bytes) ← takeWord bytes
      let (color, bytes) ← takeWord bytes
      let (flag, bytes) ← takeFlag bytes
      pure (.addCell id x y radius color flag, bytes)
    else if type = msgRemoveCell then do
      let (id, bytes) ← takeWord bytes
      pure (.removeCell id, bytes)
    else if type = msgMoveCell then do
      let (id, bytes) ← takeWord bytes
      let (x, bytes) ← takeWord bytes
      let (y, bytes) ← takeWord bytes
      let (radius, bytes) ← takeWord bytes
      let (color, bytes) ← takeWord bytes
      pure (.moveCell id x y radius color, bytes)
    else if type = msgPosition then do
      let (x, bytes) ← takeWord bytes
      let (y, bytes) ← takeWord bytes
      pure (.position x y, bytes)
    else none

theorem parse_encode (w : Wire) (rest : List Byte) :
    parse (w.encode ++ rest) = some (w, rest) := by
  have hremove : msgRemoveCell ≠ msgAddCell := by decide
  have hmove : msgMoveCell ≠ msgAddCell ∧ msgMoveCell ≠ msgRemoveCell := by decide
  have hposition : msgPosition ≠ msgAddCell ∧ msgPosition ≠ msgRemoveCell ∧
      msgPosition ≠ msgMoveCell := by decide
  cases w with
  | addCell id x y radius color flag =>
    simp [encode, parse, takeFlag, List.append_assoc]
  | removeCell id => simp [encode, parse, hremove]
  | moveCell id x y radius color => simp [encode, parse, hmove.1, hmove.2, List.append_assoc]
  | position x y =>
    simp [encode, parse, hposition.1, hposition.2.1, hposition.2.2, List.append_assoc]

/-- The format of the send buffer. -/
def format : Code Wire Byte where
  encode := encode
  parse := parse
  parse_encode := parse_encode
  encode_ne_nil := by
    intro w
    cases w <;> exact List.cons_ne_nil _ _

end Wire

namespace Message

theorem appendWire_eq_write (m : Message) (w : Wire) : m.appendWire w = m.write w.encode := by
  cases w <;>
    simp only [appendWire, setUint8, setInt8, setUint32, write_write, Wire.encode,
      List.append_assoc, List.cons_append, List.nil_append]

theorem appendWires_pending (m : Message) (ws : List Wire) (h : m.region.isSome) :
    (m.appendWires ws).pending = m.pending ++ ws.flatMap Wire.encode := by
  induction ws generalizing m with
  | nil => rw [List.flatMap_nil, List.append_nil]; rfl
  | cons w ws ih =>
    have hstep : m.appendWires (w :: ws) = (m.write w.encode).appendWires ws := by
      rw [appendWires, List.foldl_cons, appendWire_eq_write]
      rfl
    rw [hstep, ih _ (by rw [write_isSome]; exact h), write_pending m _ h, List.append_assoc,
      List.flatMap_cons]

/-- The bytes between `Data` and `Ptr` of a cleared buffer, decoded by the type bytes, give back
the calls made since, whatever their fields, and nothing is left over. -/
theorem decode_appended (ack : Bool) (r : Region Byte) (ws : List Wire) :
    Wire.format.decode ((Message.mk ack (some r)).clear.appendWires ws).pending = some ws := by
  have hclear : (Message.mk ack (some r)).clear.pending = [] := window_reset r 0
  rw [appendWires_pending _ ws rfl, hclear, List.nil_append]
  exact Wire.format.decode_encode ws

theorem decode_appends {K : Type} [Field K] [LinearOrder K] [FloorRing K] (ack : Bool)
    (r : Region Byte) (ms : List (Msg K)) :
    Wire.format.decode (ms.foldl append (Message.mk ack (some r)).clear).pending =
      some (ms.map Msg.wire) := by
  have hwires : ∀ m : Message, ms.foldl append m = m.appendWires (ms.map Msg.wire) := fun m => by
    rw [appendWires, List.foldl_map]
    exact congrArg (fun f => ms.foldl f m) (funext₂ append_eq_appendWire)
  have hclear : (Message.mk ack (some r)).clear.pending = [] := window_reset r 0
  rw [hwires, appendWires_pending _ _ rfl, hclear, List.nil_append]
  exact Wire.format.decode_encode _

end Message

end Agar
