/-
  Depot — opcodes and the layout of the messages they announce.

  Messages travel on two kinds of hop: between a client and its node, and
  between two nodes.  Each hop has verbs of its own; a code is the verb's nibble,
  with the high nibble set on client hops.  Only the nibble is sent, as an ASCII
  digit, since a connection carries one kind of hop:

      frame length   opcode   tag           field length    …   last field
      u32, itself    1 byte   u32, peer     u32, then the       rest of the
      included                hops only     bytes               frame

  `Opcode.ofWire?` reads the byte back on a given hop, and `Opcode.layout` names
  the fields.
-/
import Depot.Bytes

namespace Depot

/-! ## Hops -/

/-- Between whom a message travels. -/
inductive Hop where
  /-- A client and the node that it is connected to. -/
  | client
  /-- Two nodes, on behalf of a client. -/
  | peer
  deriving DecidableEq, Repr

namespace Hop

def label : Hop → String
  | client => "local"
  | peer => "remote"

/-- The least length of a payload: the opcode, on peer hops also the tag. -/
def headerLength : Hop → Nat
  | client => 1
  | peer => 5

/-- The largest frame accepted on the hop if client hops accept `clientLimit`.  A
    peer hop carries the same fields and a tag, so what fits the one fits the
    other; the sum stops at the largest word. -/
def frameLimit (clientLimit : UInt32) : Hop → UInt32
  | client => clientLimit
  | peer => UInt32.ofNat (min (clientLimit.toNat + 4) (UInt32.size - 1))

end Hop

/-! ## Verbs -/

/-- What a message says on a client hop. -/
inductive ClientVerb where
  | success
  | lookup
  | store
  | peerLookup
  | peerStore
  | failure
  | delete
  | peerDelete
  deriving DecidableEq, Repr

/-- What a message says on a peer hop. -/
inductive PeerVerb where
  | success
  | lookup
  | store
  | delete
  | failure
  deriving DecidableEq, Repr

/-- A verb on the hop that has it. -/
inductive Opcode where
  | client (verb : ClientVerb)
  | peer (verb : PeerVerb)
  deriving DecidableEq, Repr

/-- What a field of a message holds. -/
inductive FieldKind where
  /-- The key of an object. -/
  | name
  /-- The bytes of an object. -/
  | object
  /-- Text for people. -/
  | text
  /-- The shard to forward to, four bytes. -/
  | shard
  deriving DecidableEq, Repr

def ClientVerb.nibble : ClientVerb → UInt8
  | success => 0
  | lookup => 1
  | store => 2
  | peerLookup => 3
  | peerStore => 4
  | failure => 5
  | delete => 6
  | peerDelete => 7

def PeerVerb.nibble : PeerVerb → UInt8
  | success => 0
  | lookup => 1
  | store => 2
  | delete => 3
  | failure => 5

namespace Opcode

/-- All opcodes, peer hops first, each hop by number. -/
def all : List Opcode :=
  [peer .success, peer .lookup, peer .store, peer .delete, peer .failure,
    client .success, client .lookup, client .store, client .peerLookup, client .peerStore,
    client .failure, client .delete, client .peerDelete]

def hop : Opcode → Hop
  | client _ => .client
  | peer _ => .peer

def nibble : Opcode → UInt8
  | client v => v.nibble
  | peer v => v.nibble

/-- The full code: the nibble, and a high nibble of ones on client hops. -/
def code : Opcode → UInt8
  | client v => 0xF0 + v.nibble
  | peer v => v.nibble

def name : Opcode → String
  | peer .success => "RemoteSuccess"
  | peer .lookup => "RemoteLookup"
  | peer .store => "RemoteStore"
  | peer .delete => "RemoteDelete"
  | peer .failure => "RemoteError"
  | client .success => "LocalSuccess"
  | client .lookup => "LocalLookup"
  | client .store => "LocalStore"
  | client .peerLookup => "LocalRemoteLookup"
  | client .peerStore => "LocalRemoteStore"
  | client .failure => "LocalError"
  | client .delete => "LocalDelete"
  | client .peerDelete => "LocalRemoteDelete"

/-- The fields of the message, in the order in which they are sent. -/
def layout : Opcode → List FieldKind
  | peer .lookup | peer .delete | client .lookup | client .delete => [.name]
  | peer .store | client .store => [.name, .object]
  | peer .success | peer .failure | client .success | client .failure => [.text]
  | client .peerLookup | client .peerDelete => [.name, .shard]
  | client .peerStore => [.name, .object, .shard]

/-- The byte that is sent: the nibble as an ASCII digit. -/
def wireByte (op : Opcode) : UInt8 := 0x30 + op.nibble

def ofCode? (c : UInt8) : Option Opcode := all.find? (·.code = c)

def ofWire? (h : Hop) (b : UInt8) : Option Opcode :=
  all.find? fun op => op.hop = h ∧ op.wireByte = b

theorem ofWire?_wireByte (op : Opcode) : ofWire? op.hop op.wireByte = some op := by
  cases op with
  | client v => cases v <;> decide
  | peer v => cases v <;> decide

theorem eq_of_ofWire? {h : Hop} {b : UInt8} {op : Opcode} (e : ofWire? h b = some op) :
    op.hop = h ∧ op.wireByte = b := by
  simpa using List.find?_some e

end Opcode

end Depot
