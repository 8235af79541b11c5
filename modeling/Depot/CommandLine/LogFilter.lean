/-
  Depot — which log lines are shown.

  A filter is a list of directives between commas.  A directive is a level for all
  lines, or a target with the level for the lines of modules whose names it
  begins; between the two may stand, in brackets, the name of a span and, in
  braces, that of a field, perhaps with the value that it must have:

      target[span{field=value}]=level

  Of the directives that fit a line the one with the longest target decides.  Only
  the lines that report a failure matter here: they are of the most urgent level,
  so any level but `off` shows them.
-/
import Depot.Text.Blank
import Depot.Text.Pattern
import Depot.Text.Split

namespace Depot.LogFilter

/-! ## Directives -/

/-- What a directive says. -/
structure Directive where
  /-- How the names of the modules begin; all modules if it is empty. -/
  target : List Char := []
  /-- Whether it is about what happens in spans. -/
  inSpan : Bool := false
  /-- The field that a line must have, and whether with a value. -/
  field : Option (List Char × Bool) := none
  /-- Whether failures are shown. -/
  shows : Bool := true
  deriving DecidableEq, Repr

namespace Directive

/-- Whether a line is enough to tell if the directive fits it. -/
def isPlain (d : Directive) : Bool := !d.inSpan && !d.field.any Prod.snd

def fieldName (d : Directive) : String := String.ofList (d.field.elim [] Prod.fst)

/-- Whether the directive fits the lines of a module with some fields. -/
def fits (d : Directive) (name : String) (fields : List String) : Bool :=
  d.isPlain && d.target.isPrefixOf name.toList &&
    (d.field.isNone || fields.contains d.fieldName)

/-- Whether `d` decides where `e` came before it: its target is longer, or it is
    as long and the name of its field is not before the other. -/
def decidesOver (d e : Directive) : Bool :=
  e.target.length < d.target.length ||
    (d.target.length = e.target.length && !(d.fieldName < e.fieldName))

end Directive

/-! ## Levels and values -/

/-- The names of the levels, least talkative first. -/
def levels : List String := ["off", "error", "warn", "info", "debug", "trace"]

/-- Whether a level, by its number or by its name in any case, shows failures. -/
def level? (cs : List Char) : Option Bool :=
  let number := (Text.natural? UInt64.size cs).filter (· < levels.length)
  let place := levels.idxOf? (String.ofList (cs.map Char.toLower))
  (number.or place).map (0 < ·)

/-- Whether the text is a number without a sign in front. -/
def isNumber (cs : List Char) : Bool :=
  let isDigit c := (Text.digit? c).isSome
  let whole := cs.takeWhile isDigit
  let rest := cs.dropWhile isDigit
  let (fraction, rest) := match rest with
    | '.' :: more => (more.takeWhile isDigit, more.dropWhile isDigit)
    | _ => ([], rest)
  let isExponent := match rest with
    | [] => true
    | e :: more =>
      let digits := match more with
        | '+' :: digits | '-' :: digits => digits
        | digits => digits
      e.toLower = 'e' && !digits.isEmpty && digits.all isDigit
  let isFinite := !(whole ++ fraction).isEmpty && isExponent
  isFinite || ["inf", "infinity", "nan"].contains (String.ofList (cs.map Char.toLower))

/-- Whether the text can be asked for as the value of a field. -/
def isValue (cs : List Char) : Bool :=
  Text.isPattern cs || match cs with
    | '+' :: digits => isNumber digits
    | _ => false

/-! ## Reading -/

/-- Why a directive cannot be read. -/
inductive Unread where
  | senseless
  /-- One of its parts begins or ends within a character. -/
  | torn
  deriving DecidableEq, Repr

/-- The part of a directive between two offsets in bytes.  Offsets are counted
    from the first character that is not blank, but they are used from the start
    of the piece: blanks in front shift every part. -/
def part (piece : List Char) (start stop : Nat) : Except Unread (List Char) :=
  match (Text.dropBytes? start piece).bind (Text.takeBytes? (stop - start)) with
  | some cs => .ok cs
  | none => .error .torn

def partFrom (piece : List Char) (start : Nat) : Except Unread (List Char) :=
  match Text.dropBytes? start piece with
  | some cs => .ok cs
  | none => .error .torn

/-- Which part of a directive a character belongs to. -/
inductive Place where
  | start
  /-- The target, or the level if there is nothing else. -/
  | word
  | span (start : Nat)
  | field (start : Nat)
  /-- After the braces. -/
  | afterField
  /-- After the brackets. -/
  | afterSpan
  | level (start : Nat)
  deriving DecidableEq, Repr

/-- The field, and whether a value is asked for. -/
def readField (cs : List Char) : Except Unread (List Char × Bool) :=
  match Text.pieces '=' cs with
  | name :: value :: _ => if isValue value then .ok (name, true) else .error .senseless
  | _ => if cs.isEmpty then .error .senseless else .ok (cs, false)

def step (piece : List Char) (place : Place) (d : Directive) (offset : Nat) (c : Char) :
    Except Unread (Place × Directive) :=
  match place with
  | .start =>
    if c = '[' then .ok (.span (offset + 1), d)
    else if Text.isWordChar c || ['-', ':', '_'].contains c then .ok (.word, d)
    else .error .senseless
  | .word =>
    if c = '=' ∨ c = '[' then do
      let d := { d with target := ← part piece 0 offset }
      return (if c = '=' then .level (offset + 1) else .span (offset + 1), d)
    else .ok (.word, d)
  | .span start =>
    if c = ']' then do
      let _ ← part piece start offset
      return (.afterSpan, { d with inSpan := true })
    else if c = '\x7b' then do
      return (.field (offset + 1), { d with inSpan := !(← part piece start offset).isEmpty })
    else .ok (.span start, d)
  | .field start =>
    if c = '\x7d' then do
      return (.afterField, { d with field := some (← readField (← part piece start offset)) })
    else .ok (.field start, d)
  | .afterField => if c = ']' then .ok (.afterSpan, d) else .error .senseless
  | .afterSpan => if c = '=' then .ok (.level (offset + 1), d) else .error .senseless
  | .level start => .ok (.level start, d)

/-- What a directive says once all of it is taken. -/
def finish (piece : List Char) (place : Place) (d : Directive) : Except Unread Directive :=
  match place with
  | .word =>
    match level? piece with
    | some shows => .ok { d with shows }
    | none => .ok { d with target := piece }
  | .level start => do
    let cs ← partFrom piece start
    if cs.isEmpty then return d
    else match level? cs with
      | some shows => return { d with shows }
      | none => .error .senseless
  | .afterSpan => .ok d
  | _ => .error .senseless

/-- Read the characters of a directive from an offset on. -/
def readFrom (piece : List Char) : Place → Directive → Nat → List Char → Except Unread Directive
  | place, d, _, [] => finish piece place d
  | place, d, offset, c :: cs => do
    let (place, d) ← step piece place d offset c
    readFrom piece place d (offset + c.utf8Size) cs

def Directive.read (piece : List Char) : Except Unread Directive :=
  readFrom piece .start {} 0 (Text.trim piece)

/-- The directives of a filter.  One that makes no sense is passed over; `none` if
    one is torn. -/
def directives? (filter : String) : Option (List Directive) :=
  let read := ((Text.pieces ',' filter.toList).filter (!·.isEmpty)).map Directive.read
  if read.any (· matches .error .torn) then none
  else some (read.filterMap Except.toOption)

/-! ## Deciding -/

/-- The directive that decides about the lines of a module with some fields. -/
def deciding (name : String) (fields : List String) (ds : List Directive) : Option Directive :=
  (ds.filter (·.fits name fields)).foldl (fun best d =>
    if best.all d.decidesOver then some d else best) none

/-- Whether a filter shows the failures that a module reports on lines with some
    fields; `none` if it cannot be read.  A filter without a directive that makes
    sense shows them. -/
def showsFailures? (name : String) (fields : List String) (filter : String) : Option Bool :=
  (directives? filter).map fun ds =>
    ds.isEmpty || ((deciding name fields ds).map Directive.shows).getD false

end Depot.LogFilter
