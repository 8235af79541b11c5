/-
  Depot — messages.

  A message is what a client hop says (`ClientBody`) or what a peer hop says
  (`PeerBody`) under a tag.  Seen from the wire it is an opcode and the opcode's
  fields as bytes: `Message.fields` takes a message apart and `Message.ofFields`
  puts one together (`ofFields_fields`).
-/
import Depot.Text.Lossy
import Depot.Wire.Error

namespace Depot

/-- What is said on a client hop. -/
inductive ClientBody where
  | success (text : Bytes)
  | failure (text : Bytes)
  | lookup (name : Bytes)
  /-- A request, and the reply to a lookup that finds the object. -/
  | store (name object : Bytes)
  | delete (name : Bytes)
  | peerLookup (name : Bytes) (shard : ShardId)
  | peerStore (name object : Bytes) (shard : ShardId)
  | peerDelete (name : Bytes) (shard : ShardId)
  deriving DecidableEq, Repr

/-- What is said on a peer hop. -/
inductive PeerBody where
  | success (text : Bytes)
  | failure (text : Bytes)
  | lookup (name : Bytes)
  /-- The reply to a lookup that finds the object. -/
  | store (name object : Bytes)
  | delete (name : Bytes)
  deriving DecidableEq, Repr

/-- A message. -/
inductive Message where
  | client (body : ClientBody)
  | peer (tag : Tag) (body : PeerBody)
  deriving DecidableEq, Repr

def ClientBody.verb : ClientBody → ClientVerb
  | success _ => .success
  | failure _ => .failure
  | lookup _ => .lookup
  | store _ _ => .store
  | delete _ => .delete
  | peerLookup _ _ => .peerLookup
  | peerStore _ _ _ => .peerStore
  | peerDelete _ _ => .peerDelete

def PeerBody.verb : PeerBody → PeerVerb
  | success _ => .success
  | failure _ => .failure
  | lookup _ => .lookup
  | store _ _ => .store
  | delete _ => .delete

def shardField (s : ShardId) : Bytes := Bytes.le32 s.toNat

/-- The shard id in a field, which has to be four bytes long. -/
def shardOfField (field : Bytes) : Except WireError ShardId :=
  match field with
  | [a, b, c, d] => .ok (UInt32.ofNat (Bytes.ofLe [a, b, c, d]))
  | _ => .error (.badShardField field.length)

theorem shardOfField_shardField (s : ShardId) : shardOfField (shardField s) = .ok s := by
  have h := Bytes.ofLe_le32 s.toNat
  rw [Nat.mod_eq_of_lt s.toNat_lt] at h
  show Except.ok (UInt32.ofNat (Bytes.ofLe (Bytes.le32 s.toNat))) = _
  rw [h, UInt32.ofNat_toNat]

namespace Message

def opcode : Message → Opcode
  | client body => .client body.verb
  | peer _ body => .peer body.verb

def hop (m : Message) : Hop := m.opcode.hop

/-- The tag; client hops have none. -/
def tag? : Message → Option Tag
  | client _ => none
  | peer tag _ => some tag

def success (text : String) : Message := client (.success (Bytes.ofText text))

/-- A reply to a client that its request failed. -/
def failure (text : String) : Message := client (.failure (Bytes.ofText text))

def peerSuccess (tag : Tag) (text : String) : Message := peer tag (.success (Bytes.ofText text))

/-- A reply to a peer that its request failed. -/
def peerFailure (tag : Tag) (text : String) : Message := peer tag (.failure (Bytes.ofText text))

/-! ## Fields -/

/-- The fields as bytes, in the order of the opcode's layout. -/
def fields : Message → List Bytes
  | client (.success text) | client (.failure text) => [text]
  | client (.lookup name) | client (.delete name) => [name]
  | client (.store name object) => [name, object]
  | client (.peerLookup name shard) | client (.peerDelete name shard) => [name, shardField shard]
  | client (.peerStore name object shard) => [name, object, shardField shard]
  | peer _ (.success text) | peer _ (.failure text) => [text]
  | peer _ (.lookup name) | peer _ (.delete name) => [name]
  | peer _ (.store name object) => [name, object]

/-- The message of an opcode with these fields.  Client hops drop the tag. -/
def ofFields (op : Opcode) (tag : Tag) (fields : List Bytes) : Except WireError Message :=
  match op, fields with
  | .client .success, [text] => .ok (client (.success text))
  | .client .failure, [text] => .ok (client (.failure text))
  | .client .lookup, [name] => .ok (client (.lookup name))
  | .client .delete, [name] => .ok (client (.delete name))
  | .client .store, [name, object] => .ok (client (.store name object))
  | .client .peerLookup, [name, shard] =>
    (shardOfField shard).map fun s => client (.peerLookup name s)
  | .client .peerDelete, [name, shard] =>
    (shardOfField shard).map fun s => client (.peerDelete name s)
  | .client .peerStore, [name, object, shard] =>
    (shardOfField shard).map fun s => client (.peerStore name object s)
  | .peer .success, [text] => .ok (peer tag (.success text))
  | .peer .failure, [text] => .ok (peer tag (.failure text))
  | .peer .lookup, [name] => .ok (peer tag (.lookup name))
  | .peer .delete, [name] => .ok (peer tag (.delete name))
  | .peer .store, [name, object] => .ok (peer tag (.store name object))
  | op, fields => .error (.badFieldCount op fields.length)

theorem length_fields (m : Message) : m.fields.length = m.opcode.layout.length := by
  cases m with
  | client body => cases body <;> rfl
  | peer tag body => cases body <;> rfl

theorem ofFields_fields (m : Message) : ofFields m.opcode (m.tag?.getD 0) m.fields = .ok m := by
  cases m with
  | client body =>
    cases body <;>
      simp [opcode, ClientBody.verb, fields, ofFields, shardOfField_shardField, Except.map]
  | peer tag body => cases body <;> rfl

/-! ## Log form -/

/-- A field as it stands in the log: keys and texts in full, objects by length. -/
def fieldSummary : FieldKind → Bytes → String
  | .name, value => "key=" ++ Text.lossy value
  | .object, value => "obj.len=" ++ toString value.length
  | .text, value => "message=" ++ Text.lossy value
  | .shard, value => "remote_node=" ++ toString (Bytes.ofLe value)

def summary (m : Message) : String :=
  let tag := match m.tag? with
    | some t => ["tag=" ++ toString t]
    | none => []
  let fields := (m.opcode.layout.zip m.fields).map fun (kind, value) => fieldSummary kind value
  m.opcode.name ++ "(" ++ String.intercalate ", " (tag ++ fields) ++ ")"

end Message

end Depot
