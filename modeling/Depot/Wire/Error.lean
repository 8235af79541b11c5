/-
  Depot — what can be wrong with bytes on the wire.
-/
import Depot.Text.Numeral
import Depot.Wire.Opcode

namespace Depot

/-- Why bytes are no frame or no message. -/
inductive WireError where
  /-- The payload ends before a byte that its header or a field length announces. -/
  | cutShort (needed available : Nat)
  /-- No opcode of the hop has this byte. -/
  | noSuchOpcode (byte : UInt8) (hop : Hop)
  /-- The number of fields is not the opcode's. -/
  | badFieldCount (opcode : Opcode) (actual : Nat)
  /-- A shard field that is not four bytes long. -/
  | badShardField (length : Nat)
  /-- A frame length that does not even count itself. -/
  | badFrameLength (length : Nat)
  /-- A frame length above the limit. -/
  | frameOverLimit (length : Nat) (limit : UInt32)
  deriving DecidableEq, Repr

namespace WireError

/-- The wording of the error. -/
def message : WireError → String
  | cutShort needed available => s!"truncated message: need {needed} bytes, have {available}"
  | noSuchOpcode byte hop =>
    "unknown opcode byte 0x" ++ Text.hex2 byte ++ " for " ++ hop.label ++ " message"
  | badFieldCount op actual =>
    let expected := op.layout.length
    "opcode " ++ op.name ++ s!" takes {expected} fields, got {actual}"
  | badShardField length => s!"remote node field must be 4 bytes, got {length}"
  | badFrameLength length => s!"invalid frame length {length}"
  | frameOverLimit length limit => s!"frame length {length} exceeds maximum {limit}"

end WireError

end Depot
