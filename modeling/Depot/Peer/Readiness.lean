/-
  Depot — the line that announces a node.

  A node that takes traffic says so in one line of JSON, with its fields in a
  fixed order and without spaces.
-/
import Depot.Bytes
import Depot.Json.Escape

namespace Depot

/-- What a node announces once it takes traffic. -/
structure Readiness where
  shard : ShardId
  clientAddress : String
  peerAddress : String
  /-- The shards to which there is a link. -/
  peers : List ShardId
  deriving DecidableEq, Repr

namespace Readiness

/-- The fields of the line, in order. -/
def fields (l : Readiness) : List (String × String) :=
  [("event", Json.jsonString "ready"),
    ("shard_id", toString l.shard),
    ("client_addr", Json.jsonString l.clientAddress),
    ("peer_addr", Json.jsonString l.peerAddress),
    ("peers", "[" ++ String.intercalate "," (l.peers.map toString) ++ "]")]

def text (l : Readiness) : String :=
  let members := l.fields.map fun (name, value) => Json.jsonString name ++ ":" ++ value
  "\x7b" ++ String.intercalate "," members ++ "\x7d"

end Readiness

end Depot
