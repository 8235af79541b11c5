/-
  Depot — the object store of a node.

  Objects are byte strings under keys, within a budget of bytes.  An object is
  mutable until it is committed.  Every operation first decides whether it may
  happen and changes the store only if it may; the first violated condition is
  the error.  Zeros need memory that may not be there: `createZeros` and `extend`
  can break off after that (`Halt`).
-/
import Depot.Table
import Depot.Text.Lossy

namespace Depot

/-- Why a store operation is refused. -/
inductive StoreError where
  /-- The objects would exceed the budget. -/
  | overBudget (requested used budget : Nat)
  /-- There is an object under the key. -/
  | keyTaken (key : Bytes)
  /-- There is no object under the key. -/
  | noSuchKey (key : Bytes)
  /-- The object is committed. -/
  | committed (key : Bytes)
  /-- The write does not lie within the object. -/
  | outsideObject (key : Bytes) (offset length size : Nat)
  deriving DecidableEq, Repr

/-- The wording of the error, which clients see. -/
def StoreError.message : StoreError → String
  | overBudget requested used budget =>
    s!"allocation of {requested} bytes exceeds capacity ({used}/{budget} used)"
  | keyTaken key => "object " ++ Text.lossy key ++ " already exists"
  | noSuchKey key => "object " ++ Text.lossy key ++ " not found"
  | committed key => "object " ++ Text.lossy key ++ " is committed and cannot be modified"
  | outsideObject key offset length size =>
    s!"write of {length} bytes at offset {offset} is outside object " ++ Text.lossy key ++
      s!" of size {size}"

/-- A stored object. -/
structure StoredObject where
  data : Bytes
  /-- False once committed. -/
  isMutable : Bool := true
  deriving DecidableEq, Repr

def StoredObject.size (b : StoredObject) : Nat := b.data.length

/-- Objects under keys, of which `used` bytes of the `budget` are taken. -/
structure Store where
  budget : Nat
  objects : Table Bytes StoredObject := {}
  used : Nat := 0

namespace Store

/-- How an operation ends that is not done. -/
inductive Halt where
  /-- One of its conditions does not hold; the store is as it was. -/
  | refused (e : StoreError)
  /-- It breaks off, as there is no memory of the length that it needs; this is
      the store by then. -/
  | broken (left : Store)

instance : MonadLift (Except StoreError) (Except Halt) := ⟨Except.mapError .refused⟩

def get? (s : Store) (key : Bytes) : Option StoredObject := s.objects.get? key

def size (s : Store) : Nat := s.objects.size

/-- Whether `requested` more bytes fit. -/
def ensureRoom (s : Store) (requested : Nat) : Except StoreError Unit :=
  if s.budget - s.used < requested then .error (.overBudget requested s.used s.budget)
  else .ok ()

/-- The object under a key, which has to be there. -/
def require (s : Store) (key : Bytes) : Except StoreError StoredObject :=
  match s.get? key with
  | some old => .ok old
  | none => .error (.noSuchKey key)

/-- The object under a key, which has to be there and not committed. -/
def requireMutable (s : Store) (key : Bytes) : Except StoreError StoredObject := do
  let old ← s.require key
  if old.isMutable then .ok old else .error (.committed key)

/-- The store with other bytes in the object `old` under the key. -/
def replace (s : Store) (key : Bytes) (old : StoredObject) (data : Bytes) : Store :=
  { s with objects := s.objects.insert key { old with data }
           used := s.used - old.size + data.length }

/-- Add a mutable object under a key that has none. -/
def create (s : Store) (key data : Bytes) : Except StoreError Store :=
  match s.get? key with
  | some _ => .error (.keyTaken key)
  | none => do
    let size := data.length
    s.ensureRoom size
    .ok { s with objects := s.objects.insert key ⟨data, true⟩, used := s.used + size }

/-- Add a mutable object of `size` zeros under a key that has none.  They are
    counted before there is memory for them. -/
def createZeros (s : Store) (key : Bytes) (size : Nat) : Except Halt Store :=
  match s.get? key with
  | some _ => .error (.refused (.keyTaken key))
  | none => do
    s.ensureRoom size
    let counted := { s with used := s.used + size }
    match Bytes.padded? [] size with
    | some data => .ok { counted with objects := s.objects.insert key ⟨data, true⟩ }
    | none => .error (.broken counted)

/-- Put an object under a key, in place of a mutable one.  Only the bytes by
    which it grows have to fit.  Returns whether an object was replaced. -/
def put (s : Store) (key data : Bytes) : Except StoreError (Store × Bool) :=
  match s.get? key with
  | none => (s.create key data).map fun s => (s, false)
  | some old =>
    if old.isMutable then do
      s.ensureRoom (data.length - old.size)
      .ok (s.replace key old data, true)
    else .error (.committed key)

def erase (s : Store) (key : Bytes) : Except StoreError Store := do
  let old ← s.require key
  .ok { s with objects := s.objects.erase key, used := s.used - old.size }

def commit (s : Store) (key : Bytes) : Except StoreError Store := do
  let _ ← s.require key
  .ok { s with objects := s.objects.modify key fun old => { old with isMutable := false } }

/-- Extend a mutable object by `delta` zeros. -/
def extend (s : Store) (key : Bytes) (delta : Nat) : Except Halt Store := do
  let old ← s.requireMutable key
  s.ensureRoom delta
  match old.data.padded? (old.size + delta) with
  | some data => .ok (s.replace key old data)
  | none => .error (.broken s)

/-- Write bytes into a mutable object at an offset, within its size. -/
def write (s : Store) (key : Bytes) (offset : Nat) (data : Bytes) : Except StoreError Store := do
  let old ← s.requireMutable key
  let size := old.size
  let length := data.length
  if offset + length ≤ size then
    .ok (s.replace key old (old.data.take offset ++ data ++ old.data.drop (offset + length)))
  else .error (.outsideObject key offset length size)

/-- The store after an operation, as before if it failed. -/
def orBefore (s : Store) (result : Except StoreError Store) : Store := result.toOption.getD s

end Store

end Depot
