/-
  Depot — actions that close no link.

  An action that closes a link may set off others.  One after which every link is
  still there does exactly one thing: `Calm` lists what, with the node that comes of it,
  and `act_calm` says that nothing else can have happened.
-/
import Depot.Proofs.Node.Replies
import Depot.Proofs.Node.Stored

namespace Depot

variable {σ : Type u}

/-- Whether the action is of a kind that closes no link by itself: time passes, a link comes up
    that is not to a shard, or a message comes in. -/
def Action.isQuiet : Action σ → Bool
  | attach .client | attach .accepted | elapse _ | rewire _ | event (.message _ _) => true
  | attach (.dialed _) | expire _ | event (.closed _ _) => false

namespace Node

/-- Every link that ever came up is there. -/
def Whole (n : Node σ) : Prop := ∀ id < n.nextLink, n.kind? id ≠ none

variable [Outbound σ]

/-- What an action does that closes no link. -/
inductive Calm (n : Node σ) : Action σ → Node σ → Prop
  | elapse (milliseconds : Nat) : Calm n (.elapse milliseconds) (n.elapse milliseconds)
  | rewire (f : σ → σ) : Calm n (.rewire f) { n with wires := f n.wires }
  | enter {kind : LinkKind} (hk : ∀ shard, kind ≠ .dialed shard) :
      Calm n (.attach kind) (n.join kind n.peers)
  | trail {id : LinkId} {m : Message} (hl : n.links.get? id = none) :
      Calm n (.event (.message id m)) n
  | answer {id : LinkId} {m reply : Message} {l : Link} {store : Store} {wires : σ}
      (hl : n.links.get? id = some l) (hd : duty n.store m = .answer store reply)
      (hw : l.send n.wires (Frame.ofMessage reply) = (wires, none)) :
      Calm n (.event (.message id m)) { n with store, wires }
  /-- The request leaves. -/
  | forward {id : LinkId} {m : Message} {l : Link} {shard : ShardId} {request : PeerBody}
      {target : LinkId} {tags : TagPool} {tag : Tag} {wires : σ}
      (hl : n.links.get? id = some l) (hd : duty n.store m = .forward shard request)
      (ht : n.peers.get? shard = some target) (hg : n.tags.draw = .ok (tags, tag))
      (hw : (n.reserve id l).offerTo target shard (Frame.ofMessage (.peer tag request)) =
        (wires, none))
      (hf : ((n.reserve id l).issue (id, l.order.next) shard request).2 = .ok tag) :
      Calm n (.event (.message id m))
        { n.reserve id l with
          tags, wires
          waiting := n.waiting.insert tag
            ⟨some (id, l.order.next), target, n.clock + n.timeout⟩ }
  /-- There is no link to the shard, or no tag. -/
  | refuse {id : LinkId} {m : Message} {l : Link} {shard : ShardId} {request : PeerBody}
      {fault : Fault} {told : Node σ}
      (hl : n.links.get? id = some l) (hd : duty n.store m = .forward shard request)
      (hf : ((n.reserve id l).issue (id, l.order.next) shard request).2 = .error fault)
      (hn : n.peers.get? shard = none ∨ ∃ e, n.tags.draw = .error e)
      (ht : (n.reserve id l).fulfil (some (id, l.order.next)) (Message.failure fault.message) =
        (told, none)) :
      Calm n (.event (.message id m)) told
  /-- Nobody waits for the reply. -/
  | orphan {id : LinkId} {m reply : Message} {l : Link} {tag : Tag} {store : Store}
      (hl : n.links.get? id = some l) (hd : duty n.store m = .settle tag store reply)
      (ho : n.answered? id tag = none) :
      Calm n (.event (.message id m)) { n with store }
  | settle {id : LinkId} {m reply : Message} {l : Link} {tag : Tag} {store : Store}
      {o : PendingRequest} {told : Node σ}
      (hl : n.links.get? id = some l) (hd : duty n.store m = .settle tag store reply)
      (ho : n.answered? id tag = some o)
      (ht : ({ n with store }.release tag).fulfil o.requester reply = (told, none)) :
      Calm n (.event (.message id m)) told

end Node

variable [Outbound σ]

/-! ## What is left to do -/

/-- Where nothing is left to do, nothing happens. -/
theorem Phase.Moves.rest {n : Node σ} {q : Phase σ} (h : Phase.Moves ⟨n, [], []⟩ q) :
    q = ⟨n, [], []⟩ := by
  rcases Relation.ReflTransGen.cases_head h with rfl | ⟨p, hm, -⟩
  · rfl
  · cases hm

/-- A reply on its way is handed over, unless the requester's link goes. -/
theorem Phase.Moves.told {n m : Node σ} {r : LinkId × Nat} {reply : Message}
    (h : Phase.Moves ⟨n, [], [(r, reply)]⟩ ⟨m, [], []⟩)
    (hkept : n.links.get? r.1 ≠ none → m.kind? r.1 ≠ none) :
    n.fulfil (some r) reply = (m, none) := by
  rcases Relation.ReflTransGen.cases_head h with heq | ⟨p, hm, hrest⟩
  · cases heq
  · cases hm with
    | @tell n told r reply lost held ht =>
      cases Phase.Moves.rest hrest
      exact ht
    | @refuse n told r reply lost held id ht =>
      obtain ⟨rfl, hthere⟩ := Node.fulfil_refused ht
      refine absurd (Phase.Moves.gone hrest ?_) (hkept hthere)
      rw [Node.kind?_detach, if_pos rfl]

namespace Node

omit [Outbound σ] in
theorem kind?_ne_none {n : Node σ} {id : LinkId} : n.kind? id ≠ none ↔ n.links.get? id ≠ none := by
  rw [kind?, ne_eq, ne_eq, Option.map_eq_none_iff]

theorem act_calm {n : Node σ} {a : Action σ} (hc : Phase.Coherent ⟨n, [], []⟩)
    (ha : a.isQuiet = true) (hkept : ∀ id, n.kind? id ≠ none → (n.act a).kind? id ≠ none) :
    n.Calm a (n.act a) := by
  obtain ⟨p, ho, hm⟩ := n.act_opens a
  have hrest : ∀ {q : Node σ}, p = ⟨q, [], []⟩ → n.act a = q := by
    rintro q rfl
    exact congrArg Phase.node hm.rest
  -- A link that goes in the opening does not come back.
  have hgone : ∀ {q : Node σ} {lost held id}, p = ⟨(q.detach id).1, lost, held⟩ →
      n.kind? id ≠ none → False := by
    rintro q lost held id rfl hthere
    exact hkept id hthere (hm.gone (by rw [kind?_detach, if_pos rfl]))
  have htold : ∀ {q : Node σ} {r reply}, p = ⟨q, [], [(r, reply)]⟩ →
      (q.links.get? r.1 ≠ none → n.kind? r.1 ≠ none) →
      q.fulfil (some r) reply = (n.act a, none) := by
    rintro q r reply rfl hlinks
    exact hm.told fun hthere => hkept r.1 (hlinks hthere)
  cases ho with
  | elapse => rw [hrest rfl]; exact .elapse _
  | rewire => rw [hrest rfl]; exact .rewire _
  | trail hl => rw [hrest rfl]; exact .trail hl
  | expire | close => cases ha
  | enter kind =>
    cases kind with
    | client | accepted => rw [hrest rfl]; exact .enter nofun
    | dialed shard => cases ha
  | answer hl hd hw => rw [hrest rfl]; exact .answer hl hd hw
  | choke hl hd hw => exact (hgone rfl (by rw [kind?_ne_none, hl]; exact Option.some_ne_none _)).elim
  | forward hl hd ht hg hw hf => rw [hrest rfl]; exact .forward hl hd ht hg hw hf
  | @refuse id m l shard request fault hl hd hf hn =>
    have hthere : n.kind? id ≠ none := by rw [kind?_ne_none, hl]; exact Option.some_ne_none _
    exact .refuse hl hd hf hn (htold rfl fun _ => hthere)
  | sever hl hd ht hw hf =>
    refine (hgone rfl ?_).elim
    rw [(hc.peers _ _).1 ht]
    exact Option.some_ne_none _
  | orphan hl hd ho => rw [hrest rfl]; exact .orphan hl hd ho
  | @settle id m reply l tag store o hl hd ho =>
    refine .settle hl hd ho ?_
    cases hr : o.requester with
    | none =>
      rw [hrest (by rw [PendingRequest.replies, hr]; rfl)]
      rfl
    | some r =>
      refine htold (by rw [PendingRequest.replies, hr]; rfl) fun hthere => ?_
      rw [links_release] at hthere
      rw [kind?_ne_none]
      exact hthere

end Node

end Depot
