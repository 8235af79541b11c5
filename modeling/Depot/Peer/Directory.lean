/-
  Depot — where a node learns of its peers.
-/
import Depot.Peer.Announcement

namespace Depot

/-- Where the addresses of the peers come from. -/
inductive PeerDirectory where
  /-- A fixed map. -/
  | fixed (peers : PeerMap)
  /-- A coordinator, asked once, which serves groups of `groupSize` shards. -/
  | coordinator (address : String) (groupSize : UInt32)

end Depot
