/-
  Depot — the settings of a node.

  `Config` holds them with their defaults, and `Config.check` refuses those
  that no node can run with, the first of several in a fixed order.  The port of
  a shard's peer listener is the base port plus the shard id.
-/
import Depot.Peer.Directory
import Depot.Wire.Deframer

namespace Depot

/-- The settings of a node. -/
structure Config where
  shard : ShardId := 0
  /-- Where clients connect. -/
  clientAddress : String := "127.0.0.1:8080"
  /-- The host of the peer listener. -/
  peerHost : String := "0.0.0.0"
  /-- The port of shard 0; that of another shard is as much higher as its id. -/
  peerPortBase : UInt16 := 8000
  /-- Where peers connect, in place of the derived address. -/
  peerAddress : Option String := none
  /-- Where connecting tells that the node is ready. -/
  readyAddress : Option String := some "127.0.0.1:8079"
  /-- The budget of the store in bytes. -/
  storeBudget : Nat := 2000000
  /-- The number of requests that may be out at a time. -/
  tagCapacity : Nat := 1000
  /-- How long a forwarded request may take, in milliseconds. -/
  timeout : Nat := 5000
  /-- The pause between two looks for requests that took too long. -/
  sweepInterval : Nat := 100
  /-- The largest frame accepted from clients. -/
  frameLimit : UInt32 := Deframer.defaultLimit
  /-- The number of frames that may wait on a link. -/
  queueCapacity : Nat := 4096
  /-- The number of further attempts to dial a peer. -/
  retries : UInt32 := 50
  /-- The pause between two attempts. -/
  backoff : Nat := 100
  peers : PeerDirectory := .fixed .empty

namespace Config

def portOf (c : Config) (shard : ShardId) : Except Fault UInt16 :=
  let port := c.peerPortBase.toNat + shard.toNat
  if port < UInt16.size then .ok (UInt16.ofNat port)
  else .error (.invalid s!"peer port {c.peerPortBase} + {shard} is out of range")

def listenAddress (c : Config) : Except Fault String :=
  match c.peerAddress with
  | some address => .ok address
  | none => (c.portOf c.shard).map fun port => c.peerHost ++ s!":{port}"

/-- Fail with a text if a setting is bad. -/
def refuse (bad : Bool) (text : String) : Except Fault Unit :=
  if bad then .error (.invalid text) else .ok ()

/-- Whether the coordinator is asked for groups of no shard. -/
def hasEmptyGroup (c : Config) : Bool :=
  match c.peers with
  | .coordinator _ groupSize => groupSize = 0
  | .fixed _ => false

def check (c : Config) : Except Fault Unit := do
  refuse (c.storeBudget = 0) "max_store_bytes must be non-zero"
  refuse (c.tagCapacity = 0) "tag_capacity must be non-zero"
  refuse (c.frameLimit ≤ 4) "max_frame_size must exceed the length field"
  refuse (c.queueCapacity = 0) "outbound_queue_frames must be non-zero"
  refuse (c.sweepInterval = 0) "sweep_interval_ms must be non-zero"
  refuse c.hasEmptyGroup "coordinator block_dim must be non-zero"
  let _ ← c.listenAddress
  return ()

end Config

end Depot
