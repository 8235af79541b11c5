/-
  Depot — JSON values.

  `Value.ofText?` reads a text that is one value.  The tree is built by a machine
  over tokens that keeps the arrays and objects that are still open, so nesting
  of any depth is read.  `Value.members?` reads a value as a record with known
  names: unknown members do not count, a known one may not stand twice.
-/
import Depot.Json.Token

namespace Depot.Json

/-- A JSON value.  Numbers are kept as they are written. -/
inductive Value where
  | null
  | bool (value : Bool)
  | number (digits : List Char)
  | string (pieces : List Piece)
  | array (items : List Value)
  | object (members : List (List Piece × Value))
  deriving Repr

/-! ## Reading -/

/-- An array or an object that is still open, last item first. -/
inductive Frame where
  | array (items : List Value)
  /-- The key is that of the member whose value comes next. -/
  | object (members : List (List Piece × Value)) (key : List Piece)
  deriving Repr

/-- What may come next. -/
inductive Next where
  | value
  /-- A value or the end of the array. -/
  | firstItem
  | key
  /-- A key or the end of the object. -/
  | firstKey
  | colon
  /-- A comma or the end of the array or object. -/
  | more
  /-- Nothing: the text has its value. -/
  | nothing (value : Value)
  deriving Repr

/-- The tree under construction: what is open, innermost first, and what may come
    next. -/
structure Builder where
  stack : List Frame := []
  next : Next := .value
  deriving Repr

namespace Builder

/-- Put a complete value where it belongs. -/
def place (stack : List Frame) (v : Value) : Builder :=
  match stack with
  | [] => ⟨[], .nothing v⟩
  | .array items :: stack => ⟨.array (v :: items) :: stack, .more⟩
  | .object members key :: stack => ⟨.object ((key, v) :: members) key :: stack, .more⟩

def closeArray? : List Frame → Option Builder
  | .array items :: stack => some (place stack (.array items.reverse))
  | _ => none

def closeObject? : List Frame → Option Builder
  | .object members _ :: stack => some (place stack (.object members.reverse))
  | _ => none

def begin? (stack : List Frame) : Token → Option Builder
  | .null => some (place stack .null)
  | .bool b => some (place stack (.bool b))
  | .number digits => some (place stack (.number digits))
  | .string pieces => some (place stack (.string pieces))
  | .openBracket => some ⟨.array [] :: stack, .firstItem⟩
  | .openBrace => some ⟨.object [] [] :: stack, .firstKey⟩
  | _ => none

def withKey? (key : List Piece) : List Frame → Option Builder
  | .object members _ :: stack => some ⟨.object members key :: stack, .colon⟩
  | _ => none

/-- Read a token; `none` if no value goes on so. -/
def push? (b : Builder) (t : Token) : Option Builder :=
  match b.next, t with
  | .value, t => begin? b.stack t
  | .firstItem, .closeBracket => closeArray? b.stack
  | .firstItem, t => begin? b.stack t
  | .firstKey, .closeBrace => closeObject? b.stack
  | .firstKey, .string key | .key, .string key => withKey? key b.stack
  | .colon, .colon => some { b with next := .value }
  | .more, .closeBracket => closeArray? b.stack
  | .more, .closeBrace => closeObject? b.stack
  | .more, .comma =>
    match b.stack with
    | .array _ :: _ => some { b with next := .value }
    | .object .. :: _ => some { b with next := .key }
    | [] => none
  | _, _ => none

/-- The value, once it is complete. -/
def value? (b : Builder) : Option Value :=
  match b.next with
  | .nothing v => some v
  | _ => none

end Builder

namespace Value

def ofText? (cs : List Char) : Option Value := do
  let tokens ← tokens? cs
  let b ← tokens.foldlM Builder.push? {}
  b.value?

/-! ## Taking values apart -/

def text? : Value → Option String
  | string pieces => (textOf? pieces).map String.ofList
  | _ => none

/-- A number below `bound` that is written as digits alone. -/
def natural? (bound : Nat) : Value → Option Nat
  | number digits => Text.whole? 10 bound digits
  | _ => none

/-- Nothing for `null`, else what `f` reads. -/
def optional? (f : Value → Option α) : Value → Option (Option α)
  | null => some none
  | v => (f v).map some

/-- The members with the given names.  An array holds them in order, those at
    the end perhaps missing; in an object a known name may stand once and an
    unknown one does not count. -/
def members? (names : List String) : Value → Option (List (String × Value))
  | array items => if names.length < items.length then none else some (names.zip items)
  | object members => do
    let named ← members.mapM fun (key, v) => (textOf? key).map fun name => (String.ofList name, v)
    let known := named.filter fun (name, _) => names.contains name
    if (known.map Prod.fst).Nodup then some known else none
  | _ => none

def onlyMember? : Value → Option (String × Value)
  | object [(key, v)] => (textOf? key).map fun name => (String.ofList name, v)
  | _ => none

end Value

/-- What `f` reads in the member, `missing` if there is none. -/
def memberOr (members : List (String × Value)) (name : String) (missing : Option α)
    (f : Value → Option α) : Option α :=
  match members.lookup name with
  | some v => f v
  | none => missing

end Depot.Json
