/-
  Depot — links.

  A link is what a node knows of one connection: what is at its other end, how
  far it is closed, and the replies that its client is owed.  The bytes are
  someone else's work: an `Outbound` takes the frames of all links.
-/
import Depot.Link.Writer
import Depot.ReplyOrder

namespace Depot

/-- Identifies a link; no two links of a node ever have the same id. -/
abbrev LinkId := Nat

/-- What is at the other end of a link. -/
inductive LinkKind where
  | client
  /-- The node of a shard, to which this node connected; forwarded requests leave
      on it. -/
  | dialed (shard : ShardId)
  /-- A node that connected to this one; its requests are answered on it. -/
  | accepted
  deriving DecidableEq, Repr

namespace LinkKind

def hop : LinkKind → Hop
  | client => .client
  | dialed _ | accepted => .peer

def label : LinkKind → String
  | client => "client"
  | dialed shard => s!"peer(shard {shard})"
  | accepted => "peer(accepted)"

end LinkKind

/-- How far a link is closed. -/
inductive LinkState where
  | active
  | closing
  | closed
  deriving DecidableEq, Repr

/-- Takes the frames of all links. -/
class Outbound (σ : Type u) where
  /-- Offer a frame to the writer of a link. -/
  offer : σ → LinkId → Frame → σ × Offer
  /-- The link is given up: nothing is read from it, and nothing further is
      offered to its writer. -/
  hangUp : σ → LinkId → σ

/-- One writer that takes the frames of any link. -/
instance : Outbound Writer where
  offer w _ f := w.offer f
  hangUp w _ := w.hangUp

/-- A link of a node. -/
structure Link where
  id : LinkId
  kind : LinkKind
  state : LinkState := .active
  /-- The replies to forwarded requests. -/
  order : ReplyOrder Frame := {}
  deriving Repr

namespace Link

/-- Offer a frame to the writer, if the link is active. -/
def send [Outbound σ] (l : Link) (wires : σ) (f : Frame) : σ × Option Fault :=
  if l.state = .active then
    match Outbound.offer wires l.id f with
    | (wires, offer) => (wires, offer.fault?)
  else (wires, some .closed)

theorem send_of_active [Outbound σ] {l : Link} (h : l.state = .active) (wires : σ) (f : Frame) :
    l.send wires f =
      ((Outbound.offer wires l.id f).1, (Outbound.offer wires l.id f).2.fault?) := by
  rw [send, if_pos h]

/-- Send frames up to the first fault; those after it are lost. -/
def sendAll [Outbound σ] (l : Link) : σ → List Frame → σ × Option Fault
  | wires, [] => (wires, none)
  | wires, f :: fs =>
    match l.send wires f with
    | (wires, none) => sendAll l wires fs
    | (wires, some fault) => (wires, some fault)

def reserve (l : Link) : Link × Nat :=
  let (order, slot) := l.order.reserve
  ({ l with order }, slot)

/-- The number of replies to forwarded requests that are owed. -/
def owed (l : Link) : Nat := l.order.owed

def owes (l : Link) (slot : Nat) : Bool := l.order.isOwed slot

/-- Keep the reply of a slot, and send what is in order now.  A slot that is not
    owed a reply changes nothing. -/
def fulfil [Outbound σ] (l : Link) (wires : σ) (slot : Nat) (f : Frame) :
    Link × σ × Option Fault :=
  match l.order.fill? slot f with
  | none => (l, wires, none)
  | some order =>
    let (order, ready) := order.release
    (({ l with order }), l.sendAll wires ready)

/-- Begin to close; `false` if that was done before. -/
def toClosing (l : Link) : Link × Bool :=
  if l.state = .active then ({ l with state := .closing }, true) else (l, false)

def toClosed (l : Link) : Link := { l with state := .closed }

end Link

end Depot
