/-
  Depot — which texts are patterns.

  A pattern describes texts: characters, classes between brackets, choices, groups
  and repetitions.  `isPattern` says whether a text is one that can be used, which
  it is not if it is nested too deep.  Repetitions with a count are left out: a
  pattern stands between braces and ends at the first that closes.
-/
import Depot.Text.Pattern.Class
import Depot.Text.Pattern.Group

namespace Depot.Text.Pattern

/-- The greatest height of a pattern. -/
def maxHeight : Nat := 250

/-- A group that is not closed yet; the whole pattern is one too. -/
structure OpenGroup where
  switches : Switches := {}
  /-- The heights of the choices before. -/
  choices : List Nat := []
  /-- The parts of the last choice, last first: their heights, and whether they
      can be repeated. -/
  parts : List (Nat × Bool) := []
  deriving DecidableEq, Repr

namespace OpenGroup

def add (g : OpenGroup) (height : Nat) : OpenGroup := { g with parts := (height, true) :: g.parts }

/-- The group with switches for what follows, which cannot be repeated. -/
def switch (g : OpenGroup) (switches : Switches) : OpenGroup :=
  { g with switches, parts := (0, false) :: g.parts }

/-- The height of the last choice. -/
def choiceHeight (g : OpenGroup) : Nat := rowHeight (g.parts.map Prod.fst)

/-- The group after a bar, behind which another choice begins. -/
def choose (g : OpenGroup) : OpenGroup :=
  { g with choices := g.choiceHeight :: g.choices, parts := [] }

def height (g : OpenGroup) : Nat := rowHeight (g.choiceHeight :: g.choices)

/-- The group with its last part repeated; `none` if there is nothing to
    repeat. -/
def repeat? (g : OpenGroup) : Option OpenGroup :=
  match g.parts with
  | (height, true) :: parts => some { g with parts := (height + 1, true) :: parts }
  | _ => none

end OpenGroup

/-- A part of a pattern that is a single item: whether it can be used, and what
    follows it. -/
def item? (s : Switches) (c : Char) (cs : List Char) : Option (List Char) :=
  match c with
  | '\x7b' => none
  | '.' => if s.unicode then some cs else none
  | '^' | '$' => some cs
  | '\\' => (escape? s cs).bind fun (item, rest) => if item.isKnown s then some rest else none
  | c => if (Item.char c false).isKnown s then some cs else none

/-- Whether the rest of a pattern makes sense: `names` are those of the groups so
    far, and `outer` are the groups around, innermost first.  Every step takes a
    character, so the length of the text is fuel enough. -/
def scan : (fuel : Nat) → (names : List (List Char)) → (outer : List OpenGroup) → OpenGroup →
    List Char → Bool
  | 0, _, outer, g, cs => cs.isEmpty && outer.isEmpty && g.height ≤ maxHeight
  | fuel + 1, names, outer, g, cs =>
    match g.switches.skip cs with
    | [] => outer.isEmpty && g.height ≤ maxHeight
    | '(' :: cs =>
      match opening? g.switches cs with
      | none => false
      | some (.switches s, rest) => scan fuel names outer (g.switch s) rest
      | some (.group name s, rest) =>
        !name.any names.contains &&
          scan fuel (name.toList ++ names) (g :: outer) { switches := s } rest
    | ')' :: cs =>
      match outer with
      | [] => false
      | o :: outer => scan fuel names outer (o.add (g.height + 1)) cs
    | '|' :: cs => scan fuel names outer g.choose cs
    | '[' :: cs =>
      match (afterBracket? g.switches cs).bind (class? g.switches (cs.length + 1) [] {}) with
      | none => false
      | some (height, rest) => scan fuel names outer (g.add height) rest
    | '*' :: cs | '+' :: cs | '?' :: cs =>
      g.repeat?.any fun g =>
        scan fuel names outer g (if cs.head? = some '?' then cs.tail else cs)
    | c :: cs => (item? g.switches c cs).any (scan fuel names outer (g.add 0))

end Depot.Text.Pattern

namespace Depot.Text

def isPattern (cs : List Char) : Bool := Pattern.scan cs.length [] [] {} cs

end Depot.Text
