/-
  Depot — what the changes that make up an action do.

  `detach_cases` and `fulfil_cases` list the outcomes of taking a link out and of
  handing over a reply, with all that is known in each; `release_eq` says what
  happens to the pool when a request is over.  Proofs about nodes use these in
  place of the definitions.
-/
import Depot.Node.Run
import Mathlib

namespace Depot

variable {σ : Type u}

/-- The link but for the replies that it is owed. -/
def Link.bare (l : Link) : Link := { l with order := {} }

namespace Node

/-- What is at the other end of a link of the node. -/
def kind? (n : Node σ) (id : LinkId) : Option LinkKind := (n.links.get? id).map Link.kind

theorem kind?_eq_some {n : Node σ} {id : LinkId} {k : LinkKind} :
    n.kind? id = some k ↔ ∃ l, n.links.get? id = some l ∧ l.kind = k := by
  rw [kind?, Option.map_eq_some_iff]

theorem kind?_erase {n m : Node σ} {id : LinkId} (k : LinkId)
    (hm : m.links = n.links.erase id := by rfl) :
    m.kind? k = if k = id then none else n.kind? k := by
  rw [kind?, hm, Table.get?_erase]
  split <;> rfl

/-- The node with a link more, and these links to shards. -/
def join (n : Node σ) (kind : LinkKind) (peers : Table ShardId LinkId) : Node σ :=
  { n with
    nextLink := n.nextLink + 1
    links := n.links.insert n.nextLink { id := n.nextLink, kind }
    peers }

theorem links_join (n : Node σ) (kind : LinkKind) (peers : Table ShardId LinkId) (k : LinkId) :
    (n.join kind peers).links.get? k =
      if k = n.nextLink then some { id := n.nextLink, kind } else n.links.get? k :=
  Table.get?_insert _ _ _ _

theorem kind?_join (n : Node σ) (kind : LinkKind) (peers : Table ShardId LinkId) (k : LinkId) :
    (n.join kind peers).kind? k = if k = n.nextLink then some kind else n.kind? k := by
  rw [kind?, links_join]
  split <;> rfl

/-! ## Requests that are over -/

theorem release_eq {n : Node σ} {tag : Tag} (h : n.tags.isOut tag = true) :
    ∃ tags : TagPool, n.release tag = { n with tags, waiting := n.waiting.erase tag } ∧
      ∀ t, tags.isOut t = (t != tag && n.tags.isOut t) := by
  obtain ⟨tags, hq, ht⟩ := TagPool.putBack_spec h
  refine ⟨tags, ?_, ht⟩
  rw [release, reclaim]
  simp only [hq]

theorem waiting_release (n : Node σ) (tag : Tag) :
    (n.release tag).waiting = n.waiting.erase tag := by
  unfold release reclaim
  split <;> rfl

theorem nextLink_release (n : Node σ) (tag : Tag) : (n.release tag).nextLink = n.nextLink := by
  unfold release reclaim
  split <;> rfl

theorem wires_release (n : Node σ) (tag : Tag) : (n.release tag).wires = n.wires := by
  unfold release reclaim
  split <;> rfl

theorem capacity_release (n : Node σ) (tag : Tag) :
    (n.release tag).tags.capacity = n.tags.capacity := by
  unfold release reclaim
  split
  · rename_i h
    exact TagPool.capacity_putBack h
  · rfl

variable [Outbound σ]

/-! ## Links that come -/

/-- The outcomes of adding a link. -/
inductive Entered (n : Node σ) : LinkKind → Node σ × List (Tag × String) → Prop
  | plain {kind : LinkKind} (hk : ∀ shard, kind ≠ .dialed shard) :
      Entered n kind (n.join kind n.peers, [])
  | alone {shard : ShardId} (h : n.peers.get? shard = none) :
      Entered n (.dialed shard)
        (n.join (.dialed shard) (n.peers.insert shard n.nextLink), [])
  | instead {shard : ShardId} {old : LinkId} (h : n.peers.get? shard = some old) :
      Entered n (.dialed shard)
        ((n.join (.dialed shard) (n.peers.insert shard n.nextLink)).detach old)

theorem enter_cases (n : Node σ) (kind : LinkKind) : Entered n kind (n.enter kind) := by
  unfold enter
  cases kind with
  | client | accepted => exact .plain nofun
  | dialed shard =>
    dsimp only
    split
    · rename_i old h
      exact .instead h
    · rename_i h
      exact .alone h

/-! ## Links that go -/

/-- The outcomes of taking a link out. -/
inductive Detached (n : Node σ) (id : LinkId) : Node σ × List (Tag × String) → Prop
  | absent (h : n.links.get? id = none) : Detached n id (n, [])
  /-- A link that is not active has been given up before. -/
  | idle {l : Link} (h : n.links.get? id = some l) (hs : l.state ≠ .active) :
      Detached n id
        ({ n with links := n.links.erase id, wires := Outbound.hangUp n.wires id }, [])
  | client {l : Link} (h : n.links.get? id = some l) (hk : l.kind = .client) :
      Detached n id
        ({ n with
            links := n.links.erase id
            wires := Outbound.hangUp n.wires id
            waiting := n.waiting.map fun _ o => o.forget id }, [])
  | dialed {l : Link} {shard : ShardId} (h : n.links.get? id = some l)
      (hk : l.kind = .dialed shard) :
      Detached n id
        ({ n with
            links := n.links.erase id
            wires := Outbound.hangUp n.wires id
            peers := if n.peers.get? shard = some id then n.peers.erase shard else n.peers },
          (n.waiting.entries.filter fun e => e.2.target = id).map fun e => (e.1, lostText shard))
  | accepted {l : Link} (h : n.links.get? id = some l) (hk : l.kind = .accepted) :
      Detached n id
        ({ n with links := n.links.erase id, wires := Outbound.hangUp n.wires id }, [])

theorem detach_cases (n : Node σ) (id : LinkId) : Detached n id (n.detach id) := by
  unfold detach
  split
  · rename_i h
    exact .absent h
  · rename_i l h
    by_cases hs : l.state = .active
    · rw [show l.toClosing.2 = true by simp [Link.toClosing, hs]]
      cases hk : l.kind with
      | client => exact .client h hk
      | dialed shard => exact .dialed h hk
      | accepted => exact .accepted h hk
    · rw [show l.toClosing.2 = false by simp [Link.toClosing, hs]]
      exact .idle h hs

theorem links_detach (n : Node σ) (id k : LinkId) :
    (n.detach id).1.links.get? k = if k = id then none else n.links.get? k := by
  have key : ∀ {q : Node σ × List (Tag × String)}, n.Detached id q →
      q.1.links.get? k = if k = id then none else n.links.get? k := by
    intro q hq
    cases hq with
    | absent h =>
      split
      · rename_i hk
        rw [hk, h]
      · rfl
    | idle | client | dialed | accepted => exact Table.get?_erase _ _ _
  exact key (detach_cases n id)

theorem kind?_detach (n : Node σ) (id k : LinkId) :
    (n.detach id).1.kind? k = if k = id then none else n.kind? k := by
  rw [kind?, links_detach]
  split <;> rfl

/-- What happens when a link to a shard goes. -/
theorem detach_dialed {n : Node σ} {id : LinkId} {l : Link} {shard : ShardId}
    (hl : n.links.get? id = some l) (hs : l.state = .active) (hk : l.kind = .dialed shard) :
    n.detach id = ({ n with
      links := n.links.erase id
      wires := Outbound.hangUp n.wires id
      peers := if n.peers.get? shard = some id then n.peers.erase shard else n.peers },
      (n.waiting.entries.filter fun e => e.2.target = id).map fun e => (e.1, lostText shard)) := by
  have ha : l.toClosing.2 = true := by simp [Link.toClosing, hs]
  simp only [detach, hl, ha, hk, if_true]

theorem alarms_detach (n : Node σ) (id : LinkId) : (n.detach id).1.alarms = n.alarms := by
  have key : ∀ {q : Node σ × List (Tag × String)}, n.Detached id q → q.1.alarms = n.alarms := by
    intro q hq
    cases hq <;> rfl
  exact key (detach_cases n id)

theorem nextLink_detach (n : Node σ) (id : LinkId) : (n.detach id).1.nextLink = n.nextLink := by
  have key : ∀ {q : Node σ × List (Tag × String)}, n.Detached id q → q.1.nextLink = n.nextLink := by
    intro q hq
    cases hq <;> rfl
  exact key (detach_cases n id)

/-! ## Replies handed over -/

/-- The outcomes of handing a reply to the reply order of a requester. -/
inductive Fulfilled (n : Node σ) (id : LinkId) (slot : Nat) (m : Message) :
    Node σ × Option LinkId → Prop
  | gone (h : n.links.get? id = none) : Fulfilled n id slot m (n, none)
  | stray {l : Link} (h : n.links.get? id = some l) (ho : l.owes slot = false) :
      Fulfilled n id slot m
        ({ n with
            links := n.links.modify id fun _ => l
            alarms := n.alarms ++ [.slot id slot] }, none)
  /-- The reply is kept, and what is in order now is sent. -/
  | kept {l : Link} {order : ReplyOrder Frame} {wires : σ} {fault : Option Fault}
      (h : n.links.get? id = some l) (ho : l.owes slot = true)
      (hf : l.order.fill? slot (Frame.ofMessage m) = some order)
      (hw : l.sendAll n.wires order.release.2 = (wires, fault)) :
      Fulfilled n id slot m
        ({ n with links := n.links.modify id fun _ => { l with order := order.release.1 }, wires },
          fault.map fun _ => id)

theorem fulfil_cases (n : Node σ) (id : LinkId) (slot : Nat) (m : Message) :
    Fulfilled n id slot m (n.fulfil (some (id, slot)) m) := by
  unfold fulfil
  dsimp only
  split
  · rename_i h
    exact .gone h
  · rename_i l h
    cases ho : l.owes slot with
    | false =>
      have hf : l.order.fill? slot (Frame.ofMessage m) = none := by
        rw [ReplyOrder.fill?, if_neg]
        rw [Link.owes] at ho
        simp [ho]
      have hl : l.fulfil n.wires slot (Frame.ofMessage m) = (l, n.wires, none) := by
        unfold Link.fulfil
        rw [hf]
      rw [hl]
      exact .stray h ho
    | true =>
      obtain ⟨order, hf⟩ : ∃ order, l.order.fill? slot (Frame.ofMessage m) = some order := by
        rw [Link.owes] at ho
        rw [ReplyOrder.fill?, if_pos ho]
        exact ⟨_, rfl⟩
      obtain ⟨⟨wires, fault⟩, hw⟩ : ∃ w, l.sendAll n.wires order.release.2 = w := ⟨_, rfl⟩
      have hl : l.fulfil n.wires slot (Frame.ofMessage m) =
          ({ l with order := order.release.1 }, wires, fault) := by
        unfold Link.fulfil
        rw [hf]
        exact Prod.ext rfl hw
      rw [hl]
      exact .kept h ho hf hw

/-- A link that refuses is the requester's, and is there. -/
theorem fulfil_refused {n told : Node σ} {r : LinkId × Nat} {m : Message} {id : LinkId}
    (h : n.fulfil (some r) m = (told, some id)) : id = r.1 ∧ n.links.get? r.1 ≠ none := by
  have key : ∀ {p : Node σ × Option LinkId}, Fulfilled n r.1 r.2 m p → p.2 = some id →
      id = r.1 ∧ n.links.get? r.1 ≠ none := by
    intro p hp hid
    cases hp with
    | gone | stray => cases hid
    | kept hl =>
      obtain ⟨-, -, rfl⟩ := Option.map_eq_some_iff.1 hid
      exact ⟨rfl, by simp [hl]⟩
  exact key (fulfil_cases n r.1 r.2 m) (congrArg Prod.snd h)

end Node

end Depot
