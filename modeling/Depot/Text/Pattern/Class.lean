/-
  Depot — classes of characters between brackets.

  A class lists characters, ranges of them, and classes within it; `&&`, `--` and
  `~~` combine what stands before with what follows.  `class?` reads one and
  measures its height, which is how deep it is nested.
-/
import Depot.Text.Pattern.Item

namespace Depot.Text.Pattern

/-! ## Heights -/

def highest (heights : List Nat) : Nat := heights.foldl max 0

/-- The height of a row of parts: that of the part if there is only one. -/
def rowHeight : List Nat → Nat
  | [] => 0
  | [h] => h
  | heights => highest heights + 1

/-! ## Parts of a class -/

/-- The names of the classes that are written `[:name:]` within a class. -/
def classNames : List String :=
  ["alnum", "alpha", "ascii", "blank", "cntrl", "digit", "graph", "lower", "print", "punct",
    "space", "upper", "word", "xdigit"]

/-- A named class, of which the bracket is read: whether it is negated, and what
    follows it. -/
def namedClass? : List Char → Option (Bool × List Char)
  | ':' :: cs =>
    let isNegated := cs.head? = some '^'
    let cs := if isNegated then cs.tail else cs
    match cs.dropWhile (· ≠ ':') with
    | ':' :: ']' :: rest =>
      if classNames.contains (String.ofList (cs.takeWhile (· ≠ ':'))) then some (isNegated, rest)
      else none
    | _ => none
  | _ => none

def isNamedMember (s : Switches) (isNegated : Bool) : Bool :=
  if s.unicode then !s.anyCase else !isNegated

def classItem? (s : Switches) : List Char → Option (Item × List Char)
  | [] => none
  | '\\' :: cs => escape? s cs
  | c :: cs => some (.char c false, cs)

/-- The character that tells what a minus sign means.  Blanks before it are passed
    over, and a number sign, but not the comment that this begins. -/
def afterMinus? (s : Switches) (cs : List Char) : Option Char :=
  if s.spaced then
    match cs.dropWhile isBlank with
    | '#' :: cs => (cs.dropWhile isBlank).head?
    | cs => cs.head?
  else cs.head?

/-- The text after an item of a class, or after a range from one character to
    another. -/
def classPart? (s : Switches) (cs : List Char) : Option (List Char) := do
  let (first, rest) ← classItem? s cs
  let alone := if first.isMember s then some (s.skip rest) else none
  match s.skip rest with
  | '-' :: next =>
    if [some ']', some '-'].contains (afterMinus? s next) then alone
    else
      let (second, rest) ← classItem? s (s.skip next)
      match first, second with
      | .char a _, .char b _ =>
        if a ≤ b && first.isMember s && second.isMember s then some rest else none
      | _, _ => none
  | _ => alone

/-! ## Classes -/

/-- Where a class stands that is not closed yet. -/
inductive ClassStart where
  /-- Behind its bracket, where a closing one would stand for itself. -/
  | bracket
  /-- Behind minus signs at the start, which stand for themselves. -/
  | minus
  | inside
  deriving DecidableEq, Repr

/-- A class that is not closed yet. -/
structure OpenClass where
  start : ClassStart := .bracket
  /-- The height of what stands before the last operator. -/
  before : Option Nat := none
  /-- The heights of the parts behind it, last first. -/
  parts : List Nat := []
  deriving DecidableEq, Repr

namespace OpenClass

def height (c : OpenClass) : Nat :=
  match c.before with
  | none => rowHeight c.parts
  | some h => max h (rowHeight c.parts) + 1

def add (c : OpenClass) (height : Nat) (start : ClassStart := .inside) : OpenClass :=
  { c with start, parts := height :: c.parts }

def combine (c : OpenClass) : OpenClass := { start := .inside, before := some c.height }

end OpenClass

def isOperator (a b : Char) : Bool := a = b && ['&', '-', '~'].contains a

/-- The text after an opening bracket and the circumflex that negates a class. -/
def afterBracket? (s : Switches) (cs : List Char) : Option (List Char) :=
  match s.skip cs with
  | '^' :: cs => if s.unicode then some cs else none
  | cs => some cs

/-- The height of a class and the text after it; `outer` are the classes around
    it, innermost first.  Every step takes a character, so the length of the text
    is fuel enough. -/
def class? (s : Switches) : (fuel : Nat) → (outer : List OpenClass) → OpenClass →
    List Char → Option (Nat × List Char)
  | 0, _, _, _ => none
  | fuel + 1, outer, c, cs =>
    match s.skip cs with
    | [] => none
    | a :: cs =>
      if a = '-' ∧ c.start ≠ .inside ∨ a = ']' ∧ c.start = .bracket then
        if (Item.char a false).isMember s then
          class? s fuel outer (c.add 0 (if a = '-' then .minus else .inside)) cs
        else none
      else if a = ']' then
        match outer with
        | [] => some (c.height + 1, cs)
        | o :: outer => class? s fuel outer (o.add (c.height + 1)) cs
      else if a = '[' then
        match namedClass? cs with
        | some (isNegated, rest) =>
          if isNamedMember s isNegated then class? s fuel outer (c.add 0) rest else none
        | none => (afterBracket? s cs).bind (class? s fuel (c :: outer) {})
      else if cs.head?.any (isOperator a) then class? s fuel outer c.combine cs.tail
      else (classPart? s (a :: cs)).bind (class? s fuel outer (c.add 0))

end Depot.Text.Pattern
