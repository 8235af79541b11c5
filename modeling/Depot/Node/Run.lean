/-
  Depot — runs of a node.

  A run is a list of actions, one after the other: links come up, events come in,
  time passes, and the node looks for requests that took too long.  Between them
  whoever works on the wires goes on as it likes.
-/
import Depot.Node.Event

namespace Depot

/-- What a node goes through. -/
inductive Action (σ : Type u) where
  /-- A connection comes up. -/
  | attach (kind : LinkKind)
  /-- Something happens on a link. -/
  | event (e : NodeEvent)
  /-- The node looks for requests whose deadline is not after `now`. -/
  | expire (now : Nat)
  | elapse (milliseconds : Nat)
  /-- Whoever works on the wires goes on. -/
  | rewire (f : σ → σ)

namespace Node

variable {σ : Type u} [Outbound σ]

def act (n : Node σ) : Action σ → Node σ
  | .attach kind => (n.attach kind).1
  | .event e => n.handle e
  | .expire now => n.expire now
  | .elapse milliseconds => n.elapse milliseconds
  | .rewire f => { n with wires := f n.wires }

/-- Go through actions, first one first. -/
def run (n : Node σ) (actions : List (Action σ)) : Node σ := actions.foldl act n

/-- Whether the action is one that readers raise: a message is said on the hop of
    its link. -/
def admits (n : Node σ) : Action σ → Bool
  | .event (.message id m) => (n.links.get? id).all fun l => m.hop = l.kind.hop
  | _ => true

/-- Whether every action of a run is one that readers raise. -/
def admitsAll (n : Node σ) : List (Action σ) → Bool
  | [] => true
  | a :: actions => n.admits a && (n.act a).admitsAll actions

theorem run_concat (n : Node σ) (actions : List (Action σ)) (a : Action σ) :
    n.run (actions ++ [a]) = (n.run actions).act a := by
  rw [run, List.foldl_append]
  rfl

theorem admitsAll_concat {n : Node σ} {actions : List (Action σ)} {a : Action σ} :
    n.admitsAll (actions ++ [a]) = (n.admitsAll actions && (n.run actions).admits a) := by
  induction actions generalizing n with
  | nil => simp [admitsAll, run]
  | cons b actions ih => rw [List.cons_append, admitsAll, ih, admitsAll, Bool.and_assoc]; rfl

end Node

end Depot
