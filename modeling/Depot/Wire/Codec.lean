/-
  Depot — messages as payloads.

  A payload is the opcode byte, the tag on peer hops, every field but the last
  with its length in front, and the last field, which runs to the end.
  `Message.encode` writes it and `Message.decode` reads it on a given hop.
-/
import Depot.Wire.Message

namespace Depot.Message

/-! ## Writing -/

/-- A field with its length in front. -/
def inlineField (field : Bytes) : Bytes := Bytes.le32 field.length ++ field

/-- The opcode byte, and the tag on peer hops. -/
def header (m : Message) : Bytes :=
  m.opcode.wireByte :: match m.tag? with
    | some tag => Bytes.le32 tag.toNat
    | none => []

/-- The last field. -/
def lastField (m : Message) : Bytes := m.fields.getLastD []

/-- The payload before the last field. -/
def head (m : Message) : Bytes := m.header ++ m.fields.dropLast.flatMap inlineField

def encode (m : Message) : Bytes := m.head ++ m.lastField

def encodedLength (m : Message) : Nat :=
  m.hop.headerLength + 4 * (m.fields.length - 1) + Bytes.total m.fields

/-! ## Reading -/

/-- Cut `count` fields out of the bytes of a payload from the index `start` on.
    `total` is the length of the payload, which a report of missing bytes gives. -/
def cutFields (total : Nat) : (count start : Nat) → Bytes → Except WireError (List Bytes)
  | 0, _, _ => .ok []
  | 1, _, rest => .ok [rest]
  | count + 2, start, rest =>
    match Bytes.le32? rest with
    | none => .error (.cutShort (start + 4) total)
    | some length =>
      let stop := start + 4 + length
      let body := rest.drop 4
      if total < stop then .error (.cutShort stop total)
      else (cutFields total (count + 1) stop (body.drop length)).map (body.take length :: ·)

def decode (h : Hop) (payload : Bytes) : Except WireError Message :=
  let total := payload.length
  if total < h.headerLength then .error (.cutShort h.headerLength total)
  else match payload with
    | [] => .error (.cutShort h.headerLength 0)
    | b :: rest =>
      match Opcode.ofWire? h b with
      | none => .error (.noSuchOpcode b h)
      | some op =>
        let tag := match h with
          | .client => 0
          | .peer => UInt32.ofNat ((Bytes.le32? rest).getD 0)
        (cutFields total op.layout.length h.headerLength (payload.drop h.headerLength)).bind
          (ofFields op tag)

end Depot.Message
