/-
  Depot — failing requests and closing links.

  When a link to a peer closes, the requests that left on it fail; the error goes
  to each requester, whose link may refuse it and is closed then in turn.
  `Node.failAll` works off such failures, those that a closed link leaves behind
  first.  It ends because every link is closed at most once: either a link goes
  or the list of failures gets shorter.
-/
import Depot.Node.Basic

namespace Depot.Node

variable {σ : Type u}

/-- Put a tag back into the pool. -/
def reclaim (n : Node σ) (tag : Tag) : Node σ :=
  match n.tags.putBack tag with
  | .ok tags => { n with tags }
  | .error e => { n with alarms := n.alarms ++ [.tag e] }

/-- Take a request out of the table, and its tag back. -/
def release (n : Node σ) (tag : Tag) : Node σ :=
  { n with waiting := n.waiting.erase tag }.reclaim tag

/-- What the requesters of a closed link are told. -/
def lostText (shard : ShardId) : String := s!"connection to shard {shard} lost"

/-- Take a link out of every table.  Returns the requests that fail by it, with
    what their requesters are told. -/
def detach [Outbound σ] (n : Node σ) (id : LinkId) : Node σ × List (Tag × String) :=
  match n.links.get? id with
  | none => (n, [])
  | some l =>
    let n := { n with links := n.links.erase id, wires := Outbound.hangUp n.wires id }
    if l.toClosing.2 then
      match l.kind with
      | .client => ({ n with waiting := n.waiting.map fun _ o => o.forget id }, [])
      | .dialed shard =>
        let peers := if n.peers.get? shard = some id then n.peers.erase shard else n.peers
        let lost := n.waiting.entries.filter fun e => e.2.target = id
        ({ n with peers }, lost.map fun e => (e.1, lostText shard))
      | .accepted => (n, [])
    else (n, [])

/-- Hand a reply to the reply order of its requester.  Returns the link that
    refused it. -/
def fulfil [Outbound σ] (n : Node σ) (requester : Option (LinkId × Nat)) (m : Message) :
    Node σ × Option LinkId :=
  match requester with
  | none => (n, none)
  | some (id, slot) =>
    match n.links.get? id with
    | none => (n, none)
    | some l =>
      let alarms := if l.owes slot then n.alarms else n.alarms ++ [.slot id slot]
      match l.fulfil n.wires slot (Frame.ofMessage m) with
      | (l, wires, fault) =>
        ({ n with links := n.links.modify id fun _ => l, wires, alarms }, fault.map fun _ => id)

/-- Fail a request with a text if it still waits, and close the link that refuses
    to be told.  Returns the requests that fail by that. -/
def fail [Outbound σ] (n : Node σ) (tag : Tag) (text : String) : Node σ × List (Tag × String) :=
  match n.waiting.get? tag with
  | none => (n, [])
  | some o =>
    match (n.release tag).fulfil o.requester (Message.failure text) with
    | (n, none) => (n, [])
    | (n, some id) => n.detach id

theorem links_release (n : Node σ) (tag : Tag) : (n.release tag).links = n.links := by
  unfold release reclaim
  split <;> rfl

theorem size_links_fulfil [Outbound σ] (n : Node σ) (requester : Option (LinkId × Nat))
    (m : Message) : (n.fulfil requester m).1.links.size = n.links.size := by
  unfold fulfil
  split
  · rfl
  · split
    · rfl
    · simp

theorem size_links_detach [Outbound σ] (n : Node σ) (id : LinkId) :
    (n.detach id).1.links.size < n.links.size ∨ n.detach id = (n, []) := by
  unfold detach
  split
  · exact .inr rfl
  · rename_i l h
    have hl : (n.links.erase id).size < n.links.size := Table.size_erase_lt (by simp [h])
    refine .inl ?_
    dsimp only
    split
    · split <;> exact hl
    · exact hl

/-- Either a link goes, or no further request fails. -/
theorem size_links_fail [Outbound σ] (n : Node σ) (tag : Tag) (text : String) :
    (n.fail tag text).1.links.size < n.links.size ∨
      (n.fail tag text).1.links.size = n.links.size ∧ (n.fail tag text).2 = [] := by
  unfold fail
  split
  · exact .inr ⟨rfl, rfl⟩
  · rename_i o _
    have h := size_links_fulfil (n.release tag) o.requester (Message.failure text)
    rw [links_release] at h
    split
    · rename_i m hm
      rw [hm] at h
      exact .inr ⟨h, rfl⟩
    · rename_i m id hm
      rw [hm] at h
      rcases size_links_detach m id with hd | hd
      · exact .inl (h ▸ hd)
      · rw [hd]
        exact .inr ⟨h, rfl⟩

/-- Fail the listed requests with the text beside each, and those that fail by
    that. -/
def failAll [Outbound σ] (n : Node σ) : List (Tag × String) → Node σ
  | [] => n
  | (tag, text) :: work =>
    let failed := n.fail tag text
    failed.1.failAll (failed.2 ++ work)
termination_by work => (n.links.size, work.length)
decreasing_by
  rcases size_links_fail n tag text with h | ⟨h, hnil⟩
  · exact Prod.Lex.left _ _ h
  · rw [show failed.2 = [] from hnil, show failed.1.links.size = n.links.size from h]
    exact Prod.Lex.right _ (Nat.lt_succ_self _)

/-- Close a link: take it out of every table and fail what waited for it. -/
def close [Outbound σ] (n : Node σ) (id : LinkId) : Node σ :=
  let gone := n.detach id
  gone.1.failAll gone.2

/-- Hand a reply to its requester, and close the link if it refuses. -/
def tell [Outbound σ] (n : Node σ) (requester : Option (LinkId × Nat)) (m : Message) : Node σ :=
  match n.fulfil requester m with
  | (n, none) => n
  | (n, some id) => n.close id

def timeoutText : String := "remote request timed out"

/-- Fail every request whose deadline is not after `now`. -/
def expire [Outbound σ] (n : Node σ) (now : Nat) : Node σ :=
  let late := n.waiting.entries.filter fun e => e.2.deadline ≤ now
  n.failAll (late.map fun e => (e.1, timeoutText))

end Depot.Node
