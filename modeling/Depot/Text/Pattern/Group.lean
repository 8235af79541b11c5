/-
  Depot — groups of a pattern.

  An opening parenthesis begins a group, which may have a name or switches of its
  own, or it holds switches for what follows it in the group around.
-/
import Depot.Text.Letter
import Depot.Text.Pattern.Item
import Depot.Text.Split

namespace Depot.Text.Pattern

/-- What an opening parenthesis begins. -/
inductive Opening where
  /-- A group, perhaps with a name, and the switches in force in it. -/
  | group (name : Option (List Char)) (switches : Switches)
  /-- Switches for what follows; the parenthesis is closed. -/
  | switches (switches : Switches)
  deriving DecidableEq, Repr

def isGroupName : List Char → Bool
  | [] => false
  | c :: cs =>
    (c = '_' || isLetter c) &&
      cs.all fun c => ['_', '.', '[', ']'].contains c || isWordChar c

/-- Whether the text is a row of switches, each at most once, of which those after
    a minus sign are turned off. -/
def areSwitches (cs : List Char) : Bool :=
  cs.all ['i', 'm', 's', 'U', 'u', 'x', 'R', '-'].contains && cs.Nodup && cs.getLast? ≠ some '-'

def Switches.apply (s : Switches) (cs : List Char) : Switches :=
  match cut? '-' cs with
  | none => cs.foldl (·.turn true) s
  | some (on, off) => off.foldl (·.turn false) (on.foldl (·.turn true) s)

/-- The name of a group, and the text after the bracket that closes it. -/
def groupName? (cs : List Char) : Option (List Char × List Char) :=
  let name := cs.takeWhile (· ≠ '>')
  match cs.dropWhile (· ≠ '>') with
  | _ :: rest => if isGroupName name then some (name, rest) else none
  | [] => none

def opening? (s : Switches) (cs : List Char) : Option (Opening × List Char) :=
  match s.skip cs with
  | '?' :: 'P' :: '<' :: cs | '?' :: '<' :: cs =>
    (groupName? cs).map fun (name, rest) => (.group (some name) s, rest)
  | '?' :: cs =>
    let isEnd c := c = ':' || c = ')'
    let row := cs.takeWhile (!isEnd ·)
    if !areSwitches row then none
    else match cs.dropWhile (!isEnd ·) with
      | ':' :: rest => some (.group none (s.apply row), rest)
      | ')' :: rest => if row.isEmpty then none else some (.switches (s.apply row), rest)
      | _ => none
  | cs => some (.group none s, cs)

end Depot.Text.Pattern
