/-
  Depot — what can go wrong, over all layers, and how attempts end.
-/
import Depot.Store
import Depot.TagPool
import Depot.Wire.Error

namespace Depot

/-- Why a stream, a socket or a file failed. -/
inductive IoKind where
  | notFound
  | invalidData
  | invalidInput
  | brokenPipe
  | writeZero
  | connectionReset
  | connectionRefused
  | addressUnavailable
  /-- Somebody listens there already. -/
  | addressTaken
  | networkUnreachable
  /-- A name that stands for no host. -/
  | unresolved
  | noInterface
  | other
  deriving DecidableEq, Repr

/-- A failure in words. -/
def IoKind.message : IoKind → String
  | notFound => "entity not found"
  | invalidData => "invalid data"
  | invalidInput => "invalid input parameter"
  | brokenPipe => "broken pipe"
  | writeZero => "socket accepted no bytes"
  | connectionReset => "connection reset"
  | connectionRefused => "connection refused"
  | addressUnavailable => "address not available"
  | addressTaken => "address in use"
  | networkUnreachable => "network unreachable"
  | unresolved => "failed to lookup address information"
  | noInterface => "no such device"
  | other => "other error"

/-- What went wrong. -/
inductive Fault where
  /-- A stream, a socket or a file. -/
  | io (kind : IoKind)
  /-- Text that is no configuration. -/
  | json
  /-- Bytes that are no frame or no message. -/
  | wire (error : WireError)
  | store (error : StoreError)
  | tag (error : TagError)
  /-- No link to the shard. -/
  | noLink (shard : ShardId)
  /-- The queue of a link is full. -/
  | queueFull (pending : Nat)
  /-- The link is gone. -/
  | closed
  /-- Settings that cannot be used, or a reply that makes no sense. -/
  | invalid (text : String)
  deriving DecidableEq, Repr

/-- The wording of the fault. -/
def Fault.message : Fault → String
  | io kind => "I/O error: " ++ kind.message
  | json => "JSON error"
  | wire e => "protocol error: " ++ e.message
  | store e => e.message
  | tag e => e.message
  | noLink shard => s!"no connection to shard {shard}"
  | queueFull pending => s!"outbound queue full ({pending} frames pending)"
  | closed => "connection closed"
  | invalid text => text

/-- How an attempt ended. -/
inductive Attempt (α : Type u) where
  | done (value : α)
  | failed (fault : Fault)
  /-- It waits for the other end. -/
  | blocked
  deriving DecidableEq, Repr

end Depot
