/-
  Depot — what a coordinator announces.

  A coordinator answers with one entry for each shard, `id:address`, between
  semicolons and up to the mark `;END`; what comes before the first semicolon
  does not count.  A node keeps the entries of its own group, which are the
  shards whose ids leave the same remainder by the size of a group, without
  itself.
-/
import Depot.Fault
import Depot.Text.Blank
import Depot.Text.Quoted
import Depot.Text.Split

namespace Depot

abbrev PeerMap := Table ShardId String

namespace PeerMap

/-- The entries by ascending id. -/
def ascending (m : PeerMap) : List (ShardId × String) := m.entries.mergeSort fun a b => a.1 ≤ b.1

def without (m : PeerMap) (own : ShardId) : PeerMap := m.erase own

end PeerMap

namespace Announcement

/-- The mark that ends an announcement. -/
def endMark : List Char := [';', 'E', 'N', 'D']

/-- The text before the first end mark, all of it if there is none. -/
def body : List Char → List Char
  | [] => []
  | c :: cs => if endMark.isPrefixOf (c :: cs) then [] else c :: body cs

/-- The entry in a piece; `none` for a blank one. -/
def entry? (piece : List Char) : Except Fault (Option (ShardId × String)) :=
  let entry := Text.trim piece
  if entry.isEmpty then .ok none
  else match Text.cut? ':' entry with
    | none => .error (.invalid ("malformed peer entry " ++ Text.quoted entry))
    | some (id, address) =>
      match Text.word32? id with
      | none => .error (.invalid ("bad shard id in " ++ Text.quoted entry))
      | some id => .ok (some (id, String.ofList address))

/-- The peers of `own` in an announcement to groups of `groupSize` shards. -/
def peers (own groupSize : ShardId) (text : List Char) : Except Fault PeerMap :=
  if groupSize = 0 then .error (.invalid "block_dim must be non-zero")
  else do
    let entries ← ((Text.pieces ';' (body text)).drop 1).mapM entry?
    let kept := entries.reduceOption.filter fun (id, _) =>
      id ≠ own ∧ id % groupSize = own % groupSize
    return Table.ofList kept

/-! ## Over a stream -/

/-- Whether the end mark occurs in the bytes. -/
def isComplete : Bytes → Bool
  | [] => false
  | b :: bs => (Bytes.ofText ";END").isPrefixOf (b :: bs) || isComplete bs

def request (own : ShardId) : String := s!"name:{own}"

/-- The peers of `own` in what the coordinator at `address` sends read by read,
    after the bytes `received`.  Reading stops with the end mark; an empty read
    is the end of the stream. -/
def ofReads (address : String) (own groupSize : ShardId) (received : Bytes) :
    List Bytes → Except Fault PeerMap
  | [] | [] :: _ => .error (.invalid ("coordinator " ++ address ++ " closed before ;END"))
  | read :: reads =>
    let received := received ++ read
    if isComplete received then peers own groupSize (Text.lossyChars received)
    else ofReads address own groupSize received reads

end Announcement

end Depot
