/-
  Depot — how a node comes up on a host.

  The settings are checked, the two listeners are set up, the peers are looked
  up and dialed in ascending order, and last the address that tells of readiness
  is opened.  The first of these that fails ends it.
-/
import Depot.Config
import Depot.Net.Host
import Depot.Peer.Readiness

namespace Depot.Startup

/-- What a host does, as a fault if it fails. -/
def orFault (result : Except IoKind α) : Except Fault α :=
  match result with
  | .ok a => .ok a
  | .error kind => .error (.io kind)

/-- Check the settings and listen for clients and for peers, `taken` being where
    somebody listens already.  Returns where both are. -/
def listen (h : Host) (taken : List Endpoint) (c : Config) :
    Except Fault (Endpoint × Endpoint) := do
  c.check
  let clients ← orFault (h.listen taken c.clientAddress)
  let address ← c.listenAddress
  let peers ← orFault (h.listen (clients :: taken) address)
  return (clients, peers)

def findPeers (h : Host) (c : Config) : Except Fault PeerMap :=
  match c.peers with
  | .fixed peers => .ok (peers.without c.shard)
  | .coordinator address groupSize => do
    let reads ← orFault (h.dial address)
    Announcement.ofReads address c.shard groupSize [] reads

/-- Dial peers in turn, the node itself left out.  Returns the shards that were
    reached, with the addresses dialed, and the fault that ended it. -/
def dialAll (h : Host) (c : Config) :
    List (ShardId × String) → List (ShardId × String) × Option Fault
  | [] => ([], none)
  | (shard, value) :: rest =>
    if shard = c.shard then dialAll h c rest
    else
      match c.portOf shard with
      | .error fault => ([], some fault)
      | .ok port =>
        let address := dialedAddress value port.toNat
        match h.dial address with
        | .error kind => ([], some (.io kind))
        | .ok _ =>
          let (more, fault) := dialAll h c rest
          ((shard, address) :: more, fault)

/-- Dial peers by ascending id. -/
def dialPeers (h : Host) (c : Config) (peers : PeerMap) :
    List (ShardId × String) × Option Fault :=
  dialAll h c peers.ascending

/-- Bring a node up.  Returns what it announces. -/
def run (h : Host) (c : Config) : Except Fault Readiness := do
  let (clients, peers) ← listen h [] c
  let (linked, fault) := dialPeers h c (← findPeers h c)
  match fault with
  | some fault => .error fault
  | none =>
    match c.readyAddress with
    | some address => let _ ← orFault (h.listen [clients, peers] address)
    | none => pure ()
    return ⟨c.shard, clients.text, peers.text, linked.map Prod.fst⟩

end Depot.Startup
