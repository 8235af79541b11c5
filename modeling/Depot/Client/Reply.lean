/-
  Depot — replies as a client sees them.
-/
import Depot.Fault
import Depot.Wire.Message

namespace Depot

/-- What a client acts on. -/
inductive Reply where
  | success (text : String)
  | failure (text : String)
  | object (name content : Bytes)
  deriving DecidableEq, Repr

namespace Reply

def ofMessage : Message → Except Fault Reply
  | .client (.success text) => .ok (success (Text.lossy text))
  | .client (.failure text) => .ok (failure (Text.lossy text))
  | .client (.store name content) => .ok (object name content)
  | m => .error (.invalid ("unexpected reply " ++ m.summary))

/-- Whether the request failed. -/
def isFailure : Reply → Bool
  | failure _ => true
  | _ => false

/-- The object, if the reply has one. -/
def object? : Reply → Option Bytes
  | object _ content => some content
  | _ => none

end Reply

end Depot
