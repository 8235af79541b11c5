/-
  Depot — settings in JSON.

  Every setting may be missing and has its default then.
-/
import Depot.Config
import Depot.Json.Value

namespace Depot

open Json (Value memberOr)

/-- The map in an object whose keys are shard ids in plain decimal, the last of
    several entries for a shard winning. -/
def PeerMap.ofJson? : Value → Option PeerMap
  | .object members => do
    let entries ← members.mapM fun (key, v) => do
      let digits ← key.mapM fun
        | .char c => some c
        | .unit _ => none
      let id ← if Json.isNumber digits then Value.natural? UInt32.size (.number digits) else none
      let address ← v.text?
      return (UInt32.ofNat id, address)
    return Table.ofList entries
  | _ => none

/-- The peer source in an object with one member that names its kind. -/
def PeerDirectory.ofJson? (v : Value) : Option PeerDirectory := do
  let (kind, v) ← v.onlyMember?
  if kind = "static" then
    return .fixed (← PeerMap.ofJson? v)
  else if kind = "coordinator" then do
    let members ← v.members? ["addr", "block_dim"]
    let address ← memberOr members "addr" none Value.text?
    let groupSize ← memberOr members "block_dim" none (Value.natural? UInt32.size)
    return .coordinator address (UInt32.ofNat groupSize)
  else none

def PeerDirectory.ofText? (cs : List Char) : Option PeerDirectory :=
  (Value.ofText? cs).bind PeerDirectory.ofJson?

namespace Config

/-- The names of the settings, in the order in which an array gives them. -/
def names : List String :=
  ["shard_id", "client_addr", "peer_bind_ip", "peer_port_base", "peer_addr", "ready_addr",
    "max_store_bytes", "tag_capacity", "remote_timeout_ms", "sweep_interval_ms",
    "max_frame_size", "outbound_queue_frames", "connect_retries", "connect_backoff_ms", "peers"]

def ofJson? (v : Value) : Option Config := do
  let members ← v.members? names
  let read {α : Type} (name : String) (default : α) (f : Value → Option α) : Option α :=
    memberOr members name (some default) f
  let word16 v := (Value.natural? UInt16.size v).map UInt16.ofNat
  let word32 v := (Value.natural? UInt32.size v).map UInt32.ofNat
  let word64 := Value.natural? UInt64.size
  let d : Config := {}
  return {
    shard := ← read "shard_id" d.shard word32
    clientAddress := ← read "client_addr" d.clientAddress Value.text?
    peerHost := ← read "peer_bind_ip" d.peerHost Value.text?
    peerPortBase := ← read "peer_port_base" d.peerPortBase word16
    peerAddress := ← read "peer_addr" d.peerAddress (Value.optional? Value.text?)
    readyAddress := ← read "ready_addr" d.readyAddress (Value.optional? Value.text?)
    storeBudget := ← read "max_store_bytes" d.storeBudget word64
    tagCapacity := ← read "tag_capacity" d.tagCapacity word64
    timeout := ← read "remote_timeout_ms" d.timeout word64
    sweepInterval := ← read "sweep_interval_ms" d.sweepInterval word64
    frameLimit := ← read "max_frame_size" d.frameLimit word32
    queueCapacity := ← read "outbound_queue_frames" d.queueCapacity word64
    retries := ← read "connect_retries" d.retries word32
    backoff := ← read "connect_backoff_ms" d.backoff word64
    peers := ← read "peers" d.peers PeerDirectory.ofJson? }

def ofText (cs : List Char) : Except Fault Config :=
  match (Value.ofText? cs).bind ofJson? with
  | some c => .ok c
  | none => .error .json

/-- The settings in a file; `none` is a file that is not there. -/
def ofFile (content : Option Bytes) : Except Fault Config :=
  match content with
  | none => .error (.io .notFound)
  | some bytes =>
    match Text.utf8? bytes with
    | none => .error (.io .invalidData)
    | some text => ofText text

end Config

end Depot
