/-
  Depot — nodes.

  A node holds a store, the links to its clients and peers, and the requests that
  it has forwarded and that wait for a reply.  It acts on one event at a time and
  never waits; frames leave through `wires`, which may refuse any of them.
-/
import Depot.Config
import Depot.Link.Basic

namespace Depot

/-- A forwarded request that waits for its reply. -/
structure PendingRequest where
  /-- The client and its reply slot; `none` once the client is gone. -/
  requester : Option (LinkId × Nat)
  /-- The link on which the request left. -/
  target : LinkId
  deadline : Nat
  deriving DecidableEq, Repr

/-- The request without its requester, if that is the link. -/
def PendingRequest.forget (o : PendingRequest) (link : LinkId) : PendingRequest :=
  if o.requester.any (·.1 = link) then { o with requester := none } else o

/-- What a node notices though it cannot happen; each stands in the log. -/
inductive Alarm where
  /-- The tag of a request that is over does not go back into the pool. -/
  | tag (error : TagError)
  /-- A reply is for a slot that is not owed one. -/
  | slot (link : LinkId) (slot : Nat)
  deriving DecidableEq, Repr

/-- A node, whose frames leave through `wires`. -/
structure Node (σ : Type u) where
  shard : ShardId
  store : Store
  tags : TagPool
  links : Table LinkId Link := {}
  /-- The link on which requests to a shard leave. -/
  peers : Table ShardId LinkId := {}
  waiting : Table Tag PendingRequest := {}
  nextLink : LinkId := 0
  /-- The time in milliseconds. -/
  clock : Nat := 0
  /-- How long a forwarded request may take. -/
  timeout : Nat
  alarms : List Alarm := []
  wires : σ

/-- Counts of what a node holds. -/
structure NodeStats where
  shard : ShardId
  objects : Nat
  used : Nat
  budget : Nat
  tagsOut : Nat
  links : Nat
  /-- The shards to which there is a link, ascending. -/
  peers : List ShardId
  deriving DecidableEq, Repr

namespace Node

variable {σ : Type u}

def ofConfig (c : Config) (wires : σ) : Node σ where
  shard := c.shard
  store := { budget := c.storeBudget }
  tags := TagPool.ofCapacity c.tagCapacity
  timeout := c.timeout
  wires := wires

/-- The shards to which there is a link, ascending. -/
def reachable (n : Node σ) : List ShardId := n.peers.keys.mergeSort fun a b => a ≤ b

def stats (n : Node σ) : NodeStats where
  shard := n.shard
  objects := n.store.size
  used := n.store.used
  budget := n.store.budget
  tagsOut := n.tags.outCount
  links := n.links.size
  peers := n.reachable

def elapse (n : Node σ) (milliseconds : Nat) : Node σ := { n with clock := n.clock + milliseconds }

end Node

end Depot
