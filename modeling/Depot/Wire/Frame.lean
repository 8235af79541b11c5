/-
  Depot — frames.

  A frame is a payload behind its length, which counts its own four bytes.  An
  outgoing frame is kept in two segments: the head with the length and every
  field but the last, and the tail with the last field, which may be a large
  object that is sent as it is stored.
-/
import Depot.Wire.Codec

namespace Depot

/-- The length field of a frame with a payload of this length. -/
def lengthField (payloadLength : Nat) : Bytes := Bytes.le32 (4 + payloadLength)

/-- A frame on its way out. -/
structure Frame where
  head : Bytes
  tail : Bytes
  deriving DecidableEq, Repr

namespace Frame

def ofPayload (payload : Bytes) : Frame := ⟨lengthField payload.length, payload⟩

def ofMessage (m : Message) : Frame :=
  let head := m.head
  let last := m.lastField
  ⟨lengthField (head.length + last.length) ++ head, last⟩

def bytes (f : Frame) : Bytes := f.head ++ f.tail

/-- The two segments, in order. -/
def segments (f : Frame) : List Bytes := [f.head, f.tail]

def size (f : Frame) : Nat := f.head.length + f.tail.length

end Frame

/-- A payload behind its length, in one piece. -/
def frameBytes (payload : Bytes) : Bytes := lengthField payload.length ++ payload

end Depot
