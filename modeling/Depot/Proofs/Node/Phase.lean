/-
  Depot — what a node does within one action.

  An action opens with one change (`Opens`), which may leave requests that are to
  fail and replies on their way; these are worked off by moves (`Phase.Move`), of
  which there are four kinds.  `act_opens` says that every action is an opening and
  then moves until nothing is left.  So whatever holds after each opening and is
  kept by each kind of move holds after every action.
-/
import Depot.Node.Run
import Mathlib

namespace Depot

variable {σ : Type u}

/-- A node in the middle of an action. -/
structure Phase (σ : Type u) where
  node : Node σ
  /-- The requests that are to fail, with what their requesters are told. -/
  lost : List (Tag × String) := []
  /-- The replies on their way to their requesters. -/
  held : List ((LinkId × Nat) × Message) := []

/-- The reply on its way to the requester, if there still is one. -/
def PendingRequest.replies (o : PendingRequest) (m : Message) : List ((LinkId × Nat) × Message) :=
  o.requester.toList.map fun r => (r, m)

theorem PendingRequest.mem_replies {o : PendingRequest} {m m' : Message} {r : LinkId × Nat} :
    (r, m') ∈ o.replies m ↔ o.requester = some r ∧ m' = m := by
  cases h : o.requester <;> simp [replies, h, eq_comm]

variable [Outbound σ]

/-- Work off one request that is to fail, or one reply. -/
inductive Phase.Move : Phase σ → Phase σ → Prop
  /-- The request does not wait any more. -/
  | skip {n : Node σ} {tag text lost held} (h : n.waiting.get? tag = none) :
      Move ⟨n, (tag, text) :: lost, held⟩ ⟨n, lost, held⟩
  /-- The request is over; its requester is to be told. -/
  | release {n : Node σ} {tag text lost held o} (h : n.waiting.get? tag = some o) :
      Move ⟨n, (tag, text) :: lost, held⟩
        ⟨n.release tag, lost, o.replies (Message.failure text) ++ held⟩
  /-- The requester is told. -/
  | tell {n told : Node σ} {r m lost held} (h : n.fulfil (some r) m = (told, none)) :
      Move ⟨n, lost, (r, m) :: held⟩ ⟨told, lost, held⟩
  /-- The requester's link refuses, and is closed. -/
  | refuse {n told : Node σ} {r m lost held id} (h : n.fulfil (some r) m = (told, some id)) :
      Move ⟨n, lost, (r, m) :: held⟩ ⟨(told.detach id).1, (told.detach id).2 ++ lost, held⟩

/-- Any number of moves. -/
def Phase.Moves : Phase σ → Phase σ → Prop := Relation.ReflTransGen Phase.Move

/-- What every move keeps, moves keep. -/
theorem Phase.Moves.keeps {P : Phase σ → Prop} (hP : ∀ {p q}, Phase.Move p q → P p → P q)
    {p q : Phase σ} (h : p.Moves q) (hp : P p) : P q := by
  induction h with
  | refl => exact hp
  | tail _ hm ih => exact hP hm ih

namespace Node

/-! ## Failures as moves -/

theorem fail_moves (n : Node σ) (tag : Tag) (text : String) (lost : List (Tag × String))
    (held : List ((LinkId × Nat) × Message)) :
    Phase.Moves ⟨n, (tag, text) :: lost, held⟩
      ⟨(n.fail tag text).1, (n.fail tag text).2 ++ lost, held⟩ := by
  unfold fail
  split
  · rename_i h
    exact Relation.ReflTransGen.single (.skip h)
  · rename_i o h
    refine Relation.ReflTransGen.head (.release h) ?_
    cases ho : o.requester with
    | none =>
      rw [PendingRequest.replies, ho]
      exact Relation.ReflTransGen.refl
    | some r =>
      rw [PendingRequest.replies, ho]
      refine Relation.ReflTransGen.single ?_
      split
      · rename_i ht
        exact .tell ht
      · rename_i ht
        exact .refuse ht

theorem failAll_moves (n : Node σ) (lost : List (Tag × String))
    (held : List ((LinkId × Nat) × Message)) :
    Phase.Moves ⟨n, lost, held⟩ ⟨n.failAll lost, [], held⟩ := by
  induction n, lost using failAll.induct with
  | case1 n =>
    rw [failAll]
    exact Relation.ReflTransGen.refl
  | case2 n tag text work _ ih =>
    rw [failAll]
    exact (fail_moves n tag text work held).trans ih

theorem tell_moves (n : Node σ) (o : PendingRequest) (m : Message) :
    Phase.Moves ⟨n, [], o.replies m⟩ ⟨n.tell o.requester m, [], []⟩ := by
  unfold tell PendingRequest.replies
  cases ho : o.requester with
  | none => exact Relation.ReflTransGen.refl
  | some r =>
    split
    · rename_i ht
      exact Relation.ReflTransGen.single (.tell ht)
    · rename_i told id ht
      refine Relation.ReflTransGen.head (.refuse ht) ?_
      rw [List.append_nil]
      exact failAll_moves _ _ _

/-! ## Openings -/

/-- The node once a slot of a link is reserved. -/
def reserve (n : Node σ) (id : LinkId) (l : Link) : Node σ :=
  { n with links := n.links.modify id fun _ => l.reserve.1 }

/-- The requests that are late, with what their requesters are told. -/
def late (n : Node σ) (now : Nat) : List (Tag × String) :=
  (n.waiting.entries.filter fun e => e.2.deadline ≤ now).map fun e => (e.1, timeoutText)

/-- The first change of an action. -/
inductive Opens (n : Node σ) : Action σ → Phase σ → Prop
  | elapse (milliseconds : Nat) : Opens n (.elapse milliseconds) ⟨n.elapse milliseconds, [], []⟩
  | rewire (f : σ → σ) : Opens n (.rewire f) ⟨{ n with wires := f n.wires }, [], []⟩
  | enter (kind : LinkKind) : Opens n (.attach kind) ⟨(n.enter kind).1, (n.enter kind).2, []⟩
  | expire (now : Nat) : Opens n (.expire now) ⟨n, n.late now, []⟩
  | close (id : LinkId) (error : Option Fault) :
      Opens n (.event (.closed id error)) ⟨(n.detach id).1, (n.detach id).2, []⟩
  /-- The message trails the end of its link. -/
  | trail {id : LinkId} {m : Message} (h : n.links.get? id = none) :
      Opens n (.event (.message id m)) ⟨n, [], []⟩
  | answer {id : LinkId} {m reply : Message} {l : Link} {store : Store} {wires : σ}
      (hl : n.links.get? id = some l) (hd : duty n.store m = .answer store reply)
      (hw : l.send n.wires (Frame.ofMessage reply) = (wires, none)) :
      Opens n (.event (.message id m)) ⟨{ n with store, wires }, [], []⟩
  /-- The link refuses the answer. -/
  | choke {id : LinkId} {m reply : Message} {l : Link} {store : Store} {wires : σ} {fault : Fault}
      (hl : n.links.get? id = some l) (hd : duty n.store m = .answer store reply)
      (hw : l.send n.wires (Frame.ofMessage reply) = (wires, some fault)) :
      Opens n (.event (.message id m))
        ⟨({ n with store, wires }.detach id).1, ({ n with store, wires }.detach id).2, []⟩
  /-- The request leaves. -/
  | forward {id : LinkId} {m : Message} {l : Link} {shard : ShardId} {request : PeerBody}
      {target : LinkId} {tags : TagPool} {tag : Tag} {wires : σ}
      (hl : n.links.get? id = some l) (hd : duty n.store m = .forward shard request)
      (ht : n.peers.get? shard = some target) (hg : n.tags.draw = .ok (tags, tag))
      (hw : (n.reserve id l).offerTo target shard (Frame.ofMessage (.peer tag request)) =
        (wires, none))
      (hf : ((n.reserve id l).issue (id, l.order.next) shard request).2 = .ok tag) :
      Opens n (.event (.message id m))
        ⟨{ n.reserve id l with
            tags, wires
            waiting := n.waiting.insert tag
              ⟨some (id, l.order.next), target, n.clock + n.timeout⟩ }, [], []⟩
  /-- There is no link to the shard, or no tag. -/
  | refuse {id : LinkId} {m : Message} {l : Link} {shard : ShardId} {request : PeerBody}
      {fault : Fault}
      (hl : n.links.get? id = some l) (hd : duty n.store m = .forward shard request)
      (hf : ((n.reserve id l).issue (id, l.order.next) shard request).2 = .error fault)
      (hn : n.peers.get? shard = none ∨ ∃ e, n.tags.draw = .error e) :
      Opens n (.event (.message id m))
        ⟨n.reserve id l, [], [((id, l.order.next), Message.failure fault.message)]⟩
  /-- The link to the shard refuses the request. -/
  | sever {id : LinkId} {m : Message} {l : Link} {shard : ShardId} {request : PeerBody}
      {target : LinkId} {tag : Tag} {wires : σ} {fault : Fault}
      (hl : n.links.get? id = some l) (hd : duty n.store m = .forward shard request)
      (ht : n.peers.get? shard = some target)
      (hw : (n.reserve id l).offerTo target shard (Frame.ofMessage (.peer tag request)) =
        (wires, some fault))
      (hf : ((n.reserve id l).issue (id, l.order.next) shard request).2 =
        .error (.invalid (severedText shard fault))) :
      Opens n (.event (.message id m))
        ⟨({ n.reserve id l with wires }.detach target).1,
          ({ n.reserve id l with wires }.detach target).2,
          [((id, l.order.next), Message.failure (severedText shard fault))]⟩
  /-- The reply is one that nobody waits for. -/
  | orphan {id : LinkId} {m reply : Message} {l : Link} {tag : Tag} {store : Store}
      (hl : n.links.get? id = some l) (hd : duty n.store m = .settle tag store reply)
      (ho : n.answered? id tag = none) :
      Opens n (.event (.message id m)) ⟨{ n with store }, [], []⟩
  | settle {id : LinkId} {m reply : Message} {l : Link} {tag : Tag} {store : Store}
      {o : PendingRequest}
      (hl : n.links.get? id = some l) (hd : duty n.store m = .settle tag store reply)
      (ho : n.answered? id tag = some o) :
      Opens n (.event (.message id m)) ⟨{ n with store }.release tag, [], o.replies reply⟩

omit [Outbound σ] in
/-- A tag that is drawn in vain goes back into the pool. -/
theorem reclaim_drawn {n : Node σ} {tags : TagPool} {tag : Tag} (wires : σ)
    (h : n.tags.draw = .ok (tags, tag)) :
    { n with tags, wires }.reclaim tag = { n with wires } := by
  rw [reclaim]
  simp only [TagPool.putBack_of_draw h]

theorem tell_some_moves (n : Node σ) (r : LinkId × Nat) (m : Message) :
    Phase.Moves ⟨n, [], [(r, m)]⟩ ⟨n.tell (some r) m, [], []⟩ :=
  tell_moves n ⟨some r, 0, 0⟩ m

theorem answer_opens {n : Node σ} {id : LinkId} {m reply : Message} {l : Link} {store : Store}
    (hl : n.links.get? id = some l) (hd : duty n.store m = .answer store reply) :
    ∃ p, n.Opens (.event (.message id m)) p ∧
      p.Moves ⟨{ n with store }.answer id reply, [], []⟩ := by
  unfold answer
  simp only [hl]
  split
  · rename_i wires hw
    exact ⟨_, .answer hl hd hw, Relation.ReflTransGen.refl⟩
  · rename_i wires fault hw
    exact ⟨_, .choke hl hd hw, failAll_moves _ _ _⟩

theorem settle_opens {n : Node σ} {id : LinkId} {m reply : Message} {l : Link} {tag : Tag}
    {store : Store} (hl : n.links.get? id = some l)
    (hd : duty n.store m = .settle tag store reply) :
    ∃ p, n.Opens (.event (.message id m)) p ∧
      p.Moves ⟨{ n with store }.settle id tag reply, [], []⟩ := by
  unfold settle
  cases ho : n.answered? id tag with
  | none =>
    simp only [show ({ n with store } : Node σ).answered? id tag = none from ho]
    exact ⟨_, .orphan hl hd ho, Relation.ReflTransGen.refl⟩
  | some o =>
    simp only [show ({ n with store } : Node σ).answered? id tag = some o from ho]
    exact ⟨_, .settle hl hd ho, tell_moves _ o reply⟩

section

variable {n m : Node σ} {id : LinkId} {l : Link} {shard : ShardId} {request : PeerBody}

theorem forward_ok {tag : Tag} (hl : n.links.get? id = some l)
    (hi : (n.reserve id l).issue (id, l.order.next) shard request = (m, .ok tag)) :
    n.forward id shard request = m := by
  replace hi : ({ n with links := n.links.modify id fun _ => l.reserve.1 } : Node σ).issue
    (id, l.reserve.2) shard request = (m, .ok tag) := hi
  simp only [forward, hl, hi]

theorem forward_error {fault : Fault} (hl : n.links.get? id = some l)
    (hi : (n.reserve id l).issue (id, l.order.next) shard request = (m, .error fault)) :
    n.forward id shard request =
      m.tell (some (id, l.order.next)) (Message.failure fault.message) := by
  replace hi : ({ n with links := n.links.modify id fun _ => l.reserve.1 } : Node σ).issue
    (id, l.reserve.2) shard request = (m, .error fault) := hi
  simp only [forward, hl, hi]
  rfl

end

theorem forward_opens {n : Node σ} {id : LinkId} {m : Message} {l : Link} {shard : ShardId}
    {request : PeerBody} (hl : n.links.get? id = some l)
    (hd : duty n.store m = .forward shard request) :
    ∃ p, n.Opens (.event (.message id m)) p ∧
      p.Moves ⟨n.forward id shard request, [], []⟩ := by
  cases ht : n.peers.get? shard with
  | none =>
    have hi : (n.reserve id l).issue (id, l.order.next) shard request =
        (n.reserve id l, .error (.noLink shard)) := by
      simp only [issue, show (n.reserve id l).peers.get? shard = none from ht]
    rw [forward_error hl hi]
    exact ⟨_, .refuse hl hd (by rw [hi]) (.inl ht), tell_some_moves _ _ _⟩
  | some target =>
    cases hg : n.tags.draw with
    | error e =>
      have hi : (n.reserve id l).issue (id, l.order.next) shard request =
          (n.reserve id l, .error (.tag e)) := by
        simp only [issue, show (n.reserve id l).peers.get? shard = some target from ht,
          show (n.reserve id l).tags.draw = .error e from hg]
      rw [forward_error hl hi]
      exact ⟨_, .refuse hl hd (by rw [hi]) (.inr ⟨e, hg⟩), tell_some_moves _ _ _⟩
    | ok drawn =>
      obtain ⟨tags, tag⟩ := drawn
      obtain ⟨⟨wires, fault⟩, hw⟩ : ∃ w, (n.reserve id l).offerTo target shard
        (Frame.ofMessage (.peer tag request)) = w := ⟨_, rfl⟩
      have hi := issue.eq_1 (n.reserve id l) (id, l.order.next) shard request
      simp only [show (n.reserve id l).peers.get? shard = some target from ht,
        show (n.reserve id l).tags.draw = .ok (tags, tag) from hg, hw] at hi
      cases fault with
      | none =>
        rw [forward_ok hl hi]
        exact ⟨_, .forward hl hd ht hg hw (by rw [hi]), Relation.ReflTransGen.refl⟩
      | some fault =>
        simp only [reclaim_drawn (n := n.reserve id l) wires hg] at hi
        rw [forward_error hl hi]
        refine ⟨_, .sever hl hd ht hw (by rw [hi]), (failAll_moves _ _ _).trans ?_⟩
        exact tell_some_moves _ _ _

/-- Every action is an opening and then moves until nothing is left. -/
theorem act_opens (n : Node σ) (a : Action σ) :
    ∃ p, n.Opens a p ∧ p.Moves ⟨n.act a, [], []⟩ := by
  cases a with
  | attach kind => exact ⟨_, .enter kind, failAll_moves _ _ _⟩
  | expire now => exact ⟨_, .expire now, failAll_moves _ _ _⟩
  | elapse milliseconds => exact ⟨_, .elapse milliseconds, Relation.ReflTransGen.refl⟩
  | rewire f => exact ⟨_, .rewire f, Relation.ReflTransGen.refl⟩
  | event e =>
    cases e with
    | closed id error => exact ⟨_, .close id error, failAll_moves _ _ _⟩
    | message id m =>
      show ∃ p, _ ∧ Phase.Moves p ⟨n.receive id m, [], []⟩
      unfold receive
      cases hl : n.links.get? id with
      | none =>
        rw [if_neg (by simp [Table.contains, hl])]
        exact ⟨_, .trail hl, Relation.ReflTransGen.refl⟩
      | some l =>
        rw [if_pos (by simp [Table.contains, hl])]
        cases hd : duty n.store m with
        | answer store reply => exact answer_opens hl hd
        | forward shard request => exact forward_opens hl hd
        | settle tag store reply => exact settle_opens hl hd

end Node

end Depot
