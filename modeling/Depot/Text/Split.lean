/-
  Depot — text cut at separators and at counts of bytes.
-/

namespace Depot.Text

def pieces (separator : Char) : List Char → List (List Char)
  | [] => [[]]
  | c :: cs =>
    if c = separator then [] :: pieces separator cs
    else match pieces separator cs with
      | [] => [[c]]
      | piece :: more => (c :: piece) :: more

/-- The text before and after the first separator. -/
def cut? (separator : Char) : List Char → Option (List Char × List Char)
  | [] => none
  | c :: cs =>
    if c = separator then some ([], cs)
    else (cut? separator cs).map fun (before, after) => (c :: before, after)

/-- The text before and after the last separator. -/
def cutLast? (separator : Char) (cs : List Char) : Option (List Char × List Char) :=
  (cut? separator cs.reverse).map fun (after, before) => (before.reverse, after.reverse)

/-- The text after its first `count` bytes, unless they end within a character. -/
def dropBytes? : (count : Nat) → List Char → Option (List Char)
  | 0, cs => some cs
  | _, [] => none
  | count, c :: cs => if c.utf8Size ≤ count then dropBytes? (count - c.utf8Size) cs else none

/-- The first `count` bytes of a text, unless they end within a character. -/
def takeBytes? : (count : Nat) → List Char → Option (List Char)
  | 0, _ => some []
  | _, [] => none
  | count, c :: cs =>
    if c.utf8Size ≤ count then (takeBytes? (count - c.utf8Size) cs).map (c :: ·) else none

end Depot.Text
