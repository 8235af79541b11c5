/-
  Depot — what a run brings to a node, and what becomes of it.

  The messages that a client's link brings fall into those that are answered at
  once (`direct?`) and those that are forwarded (`forwarded?`), by their kind.
  `Resolves` lists what can make an action resolve a forwarded request: its reply,
  the end of its time, the loss of its link, or that it could not leave.
-/
import Depot.Proofs.Node.Owed
import Depot.Proofs.Node.Requests

namespace Depot

variable {σ : Type u}

/-- A list is made of two others, each in its order. -/
inductive Interleaves {α : Type u} : List α → List α → List α → Prop
  | nil : Interleaves [] [] []
  | left {x : α} {xs ys zs : List α} (h : Interleaves xs ys zs) :
      Interleaves (x :: xs) ys (x :: zs)
  | right {y : α} {xs ys zs : List α} (h : Interleaves xs ys zs) :
      Interleaves xs (y :: ys) (y :: zs)

namespace Interleaves

variable {α : Type u} {xs ys zs : List α}

theorem swap (h : Interleaves xs ys zs) : Interleaves ys xs zs := by
  induction h with
  | nil => exact .nil
  | left _ ih => exact .right ih
  | right _ ih => exact .left ih

theorem append_left (h : Interleaves xs ys zs) (us : List α) :
    Interleaves (xs ++ us) ys (zs ++ us) := by
  induction h with
  | nil =>
    induction us with
    | nil => exact .nil
    | cons u us ih => exact .left ih
  | left _ ih => exact .left ih
  | right _ ih => exact .right ih

theorem append_right (h : Interleaves xs ys zs) (us : List α) :
    Interleaves xs (ys ++ us) (zs ++ us) :=
  (h.swap.append_left us).swap

theorem length_eq (h : Interleaves xs ys zs) : zs.length = xs.length + ys.length := by
  induction h with
  | nil => rfl
  | left _ ih => rw [List.length_cons, List.length_cons, ih]; omega
  | right _ ih => rw [List.length_cons, List.length_cons, ih]; omega

end Interleaves

namespace Node

/-! ## What a run brings -/

/-- The message that an action brings on a link that is there. -/
def heard? (id : LinkId) (n : Node σ) : Action σ → Option Message
  | .event (.message link m) => if link = id ∧ n.links.contains id then some m else none
  | _ => none

/-- The reply to a message that is answered at once. -/
def direct? (id : LinkId) (n : Node σ) (a : Action σ) : Option Message :=
  (n.heard? id a).bind (Message.direct? n.store)

/-- What a message asks to be forwarded. -/
def forwarded? (id : LinkId) (n : Node σ) (a : Action σ) : Option (ShardId × PeerBody) :=
  (n.heard? id a).bind Message.forwarded?

/-- The link that comes up to a client. -/
def client? (n : Node σ) : Action σ → Option LinkId
  | .attach .client => some n.nextLink
  | _ => none

theorem heard?_of_get? {n : Node σ} {id link : LinkId} {l : Link} (hl : n.links.get? link = some l)
    (m : Message) :
    n.heard? id (.event (.message link m)) = if link = id then some m else none := by
  show (if link = id ∧ n.links.contains id = true then some m else none) = _
  by_cases h : link = id
  · subst h
    rw [if_pos ⟨rfl, Table.contains_eq_true.2 ⟨l, hl⟩⟩, if_pos rfl]
  · rw [if_neg fun hc => h hc.1, if_neg h]

/-- Nothing is heard on a link before it comes up. -/
theorem heard?_of_le {n : Node σ} (hc : Phase.Coherent ⟨n, [], []⟩) {id : LinkId}
    (hid : n.nextLink ≤ id) (a : Action σ) : n.heard? id a = none := by
  unfold heard?
  split
  · refine if_neg fun ⟨_, hin⟩ => ?_
    obtain ⟨l, hl⟩ := Table.contains_eq_true.1 hin
    exact Nat.not_lt.2 hid (hc.links id l hl).2.2
  · rfl

theorem mem_client? {n : Node σ} {a : Action σ} {id : LinkId}
    (h : id ∈ (n.client? a).toList) : a = .attach .client ∧ n.nextLink = id := by
  unfold client? at h
  split at h
  · exact ⟨rfl, (List.mem_singleton.1 h).symm⟩
  · cases h

section

variable {n : Node σ} (id : LinkId) {link : LinkId} {l : Link} {m reply : Message} {store : Store}
  {shard : ShardId} {request : PeerBody} {tag : Tag}

theorem direct?_of_get? (hl : n.links.get? link = some l) (m : Message) :
    n.direct? id (.event (.message link m)) = if link = id then m.direct? n.store else none := by
  rw [direct?, heard?_of_get? hl]
  split <;> rfl

theorem forwarded?_of_get? (hl : n.links.get? link = some l) (m : Message) :
    n.forwarded? id (.event (.message link m)) = if link = id then m.forwarded? else none := by
  rw [forwarded?, heard?_of_get? hl]
  split <;> rfl

theorem asks_answer (hl : n.links.get? link = some l) (hd : duty n.store m = .answer store reply) :
    (n.direct? id (.event (.message link m))).toList = (if link = id then [reply] else []) ∧
      n.forwarded? id (.event (.message link m)) = none := by
  have hb := duty_befits n.store m
  rw [hd] at hb
  cases hb with
  | answer hdirect hforwarded =>
    rw [direct?_of_get? id hl, forwarded?_of_get? id hl, hdirect, hforwarded]
    split <;> exact ⟨rfl, rfl⟩

theorem asks_forward (hl : n.links.get? link = some l)
    (hd : duty n.store m = .forward shard request) :
    n.direct? id (.event (.message link m)) = none ∧
      (n.forwarded? id (.event (.message link m))).toList.length = if link = id then 1 else 0 := by
  have hb := duty_befits n.store m
  rw [hd] at hb
  cases hb with
  | forward hdirect hforwarded =>
    rw [direct?_of_get? id hl, forwarded?_of_get? id hl, hdirect, hforwarded]
    split <;> exact ⟨rfl, rfl⟩

theorem asks_settle (hl : n.links.get? link = some l)
    (hd : duty n.store m = .settle tag store reply) :
    n.direct? id (.event (.message link m)) = none ∧
      n.forwarded? id (.event (.message link m)) = none := by
  have hb := duty_befits n.store m
  rw [hd] at hb
  cases hb with
  | settle hdirect hforwarded =>
    rw [direct?_of_get? id hl, forwarded?_of_get? id hl, hdirect, hforwarded]
    split <;> exact ⟨rfl, rfl⟩

end

/-- What a client says is answered at once or forwarded. -/
theorem length_heard? {n : Node σ} {id : LinkId} {a : Action σ} (ha : n.admits a = true)
    (hk : ∀ k, n.kind? id = some k → k = .client) :
    (n.heard? id a).toList.length =
      (n.direct? id a).toList.length + (n.forwarded? id a).toList.length := by
  unfold direct? forwarded?
  cases hm : n.heard? id a with
  | none => rfl
  | some m =>
    obtain ⟨rfl, hc⟩ : a = .event (.message id m) ∧ n.links.contains id = true := by
      unfold heard? at hm
      split at hm
      · split at hm
        · rename_i h
          cases hm
          exact ⟨by rw [h.1], h.2⟩
        · cases hm
      · cases hm
    obtain ⟨l, hl⟩ := Table.contains_eq_true.1 hc
    have hclient : l.kind = .client := hk l.kind (kind?_eq_some.2 ⟨l, hl, rfl⟩)
    have hop : m.hop = .client := by
      simpa [admits, hl, hclient, LinkKind.hop] using ha
    exact ((duty_befits n.store m).length_asks hop).symm

variable [Outbound σ]

/-- What the actions of a run bring, in order, where `f` says what one brings. -/
def collect (f : Node σ → Action σ → Option α) (n : Node σ) : List (Action σ) → List α
  | [] => []
  | a :: actions => (f n a).toList ++ (n.act a).collect f actions

theorem collect_concat (f : Node σ → Action σ → Option α) (n : Node σ) (actions : List (Action σ))
    (a : Action σ) :
    n.collect f (actions ++ [a]) = n.collect f actions ++ (f (n.run actions) a).toList := by
  induction actions generalizing n with
  | nil => simp [collect, run]
  | cons b actions ih =>
    rw [List.cons_append, collect, ih, collect, List.append_assoc]
    rfl

/-! ## What becomes of requests -/

/-- Why a requester is told of its request in an action. -/
inductive Resolves (n : Node σ) (a : Action σ) (r : LinkId × Nat) : Message → Prop
  | answered {id : LinkId} {m reply : Message} {tag : Tag} {o : PendingRequest}
      (ha : a = .event (.message id m)) (hd : m.settled? n.store = some (tag, reply))
      (ho : n.answered? id tag = some o) (hr : o.requester = some r) : Resolves n a r reply
  | expired {now : Nat} {tag : Tag} {o : PendingRequest}
      (ha : a = .expire now) (ho : n.waiting.get? tag = some o) (hr : o.requester = some r)
      (hd : o.deadline ≤ now) : Resolves n a r (Message.failure timeoutText)
  /-- The link on which the request left goes. -/
  | lost {tag : Tag} {o : PendingRequest} {shard : ShardId}
      (ho : n.waiting.get? tag = some o) (hr : o.requester = some r)
      (hk : n.kind? o.target = some (.dialed shard)) (hg : (n.act a).kind? o.target = none) :
      Resolves n a r (Message.failure (lostText shard))
  /-- The request cannot leave. -/
  | refused {m : Message} {l : Link} {shard : ShardId} {request : PeerBody} {fault : Fault}
      (ha : a = .event (.message r.1 m)) (hl : n.links.get? r.1 = some l)
      (hs : r.2 = l.order.next) (hd : m.forwarded? = some (shard, request))
      (hf : ((n.reserve r.1 l).issue r shard request).2 = .error fault) :
      Resolves n a r (Message.failure fault.message)

/-- An action of the run resolves the request. -/
def Resolved (n : Node σ) (actions : List (Action σ)) (r : LinkId × Nat) (m : Message) : Prop :=
  ∃ before a after, actions = before ++ a :: after ∧ (n.run before).Resolves a r m

theorem resolved_concat {n : Node σ} {actions : List (Action σ)} {a : Action σ} {r : LinkId × Nat}
    {m : Message} (h : n.Resolved actions r m ∨ (n.run actions).Resolves a r m) :
    n.Resolved (actions ++ [a]) r m := by
  rcases h with ⟨before, b, after, rfl, hb⟩ | h
  · exact ⟨before, b, after ++ [a], by simp, hb⟩
  · exact ⟨actions, a, [], rfl, h⟩

end Node

/-! ## Links that are there -/

variable [Outbound σ]

theorem Node.kind?_of_detach {n : Node σ} {id k : LinkId} {kind : LinkKind}
    (h : (n.detach id).1.kind? k = some kind) : n.kind? k = some kind := by
  rw [kind?_detach] at h
  split at h
  · cases h
  · exact h

/-- No link comes up in the middle of an action. -/
theorem Phase.Move.kept {p q : Phase σ} (hm : p.Move q) {k : LinkId} {kind : LinkKind}
    (h : q.node.kind? k = some kind) : p.node.kind? k = some kind := by
  cases hm with
  | skip => exact h
  | @release n tag =>
    replace h : (n.release tag).kind? k = some kind := h
    rwa [Node.kind?, Node.links_release] at h
  | @tell n told r m lost held ht =>
    have ha : n.Alike told := Node.fulfil_alike ht
    exact (ha.kind? k).symm.trans h
  | @refuse n told r m lost held id ht =>
    have ha : n.Alike told := Node.fulfil_alike ht
    have ht : told.kind? k = some kind := Node.kind?_of_detach h
    exact (ha.kind? k).symm.trans ht

theorem Phase.Moves.kept {p q : Phase σ} (h : p.Moves q) {k : LinkId} {kind : LinkKind}
    (hk : q.node.kind? k = some kind) : p.node.kind? k = some kind := by
  induction h with
  | refl => exact hk
  | tail _ hm ih => exact ih (hm.kept hk)

theorem Phase.Moves.gone {p q : Phase σ} (h : p.Moves q) {k : LinkId}
    (hk : p.node.kind? k = none) : q.node.kind? k = none := by
  cases hq : q.node.kind? k with
  | none => rfl
  | some kind =>
    rw [h.kept hq] at hk
    cases hk

/-! ## Ids given out -/

theorem Phase.Move.nextLink {p q : Phase σ} (hm : p.Move q) :
    q.node.nextLink = p.node.nextLink := by
  cases hm with
  | skip => rfl
  | release => exact Node.nextLink_release _ _
  | @tell n told r m lost held ht =>
    have ha : n.Alike told := Node.fulfil_alike ht
    exact ha.nextLink
  | @refuse n told r m lost held id ht =>
    have ha : n.Alike told := Node.fulfil_alike ht
    exact (Node.nextLink_detach _ _).trans ha.nextLink

theorem Node.Opens.nextLink {n : Node σ} {a : Action σ} {p : Phase σ} (ho : n.Opens a p) :
    n.nextLink ≤ p.node.nextLink ∧ ∀ kind, a = .attach kind → n.nextLink < p.node.nextLink := by
  cases ho with
  | elapse | rewire | expire | trail | answer | forward | refuse | orphan =>
    exact ⟨Nat.le_refl _, nofun⟩
  | enter kind =>
    have key : ∀ {q : Node σ × List (Tag × String)}, n.Entered kind q →
        q.1.nextLink = n.nextLink + 1 := by
      intro q hq
      cases hq with
      | plain | alone => rfl
      | instead => exact Node.nextLink_detach _ _
    show n.nextLink ≤ (n.enter kind).1.nextLink ∧
      ∀ k, Action.attach kind = .attach k → n.nextLink < (n.enter kind).1.nextLink
    rw [key (n.enter_cases kind)]
    exact ⟨Nat.le_succ _, fun _ _ => Nat.lt_succ_self _⟩
  | close | choke | sever =>
    refine ⟨Nat.le_of_eq (Eq.symm ?_), nofun⟩
    exact Node.nextLink_detach _ _
  | settle =>
    refine ⟨Nat.le_of_eq (Eq.symm ?_), nofun⟩
    exact Node.nextLink_release _ _

theorem Node.nextLink_act (n : Node σ) (a : Action σ) :
    n.nextLink ≤ (n.act a).nextLink ∧
      ∀ kind, a = .attach kind → n.nextLink < (n.act a).nextLink := by
  obtain ⟨p, ho, hm⟩ := n.act_opens a
  have hn : (n.act a).nextLink = p.node.nextLink :=
    hm.keeps (P := fun q => q.node.nextLink = p.node.nextLink)
      (fun hm hp => hm.nextLink.trans hp) rfl
  rw [hn]
  exact ho.nextLink

/-- A link that is there was there before, or has come up now. -/
theorem Node.Opens.kept {n : Node σ} {a : Action σ} {p : Phase σ} (ho : n.Opens a p) {k : LinkId}
    {kind : LinkKind} (h : p.node.kind? k = some kind) :
    n.kind? k = some kind ∨ a = .attach kind ∧ n.nextLink = k := by
  cases ho with
  | elapse | rewire | expire | trail | answer | orphan => exact .inl h
  | forward hl | refuse hl => exact .inl (((Node.reserve_alike hl).kind? k).symm.trans h)
  | close => exact .inl (Node.kind?_of_detach h)
  | choke =>
    have hd := Node.kind?_of_detach h
    exact .inl hd
  | sever hl =>
    have hd := Node.kind?_of_detach h
    exact .inl (((Node.reserve_alike hl).kind? k).symm.trans hd)
  | @settle id m reply l tag store =>
    replace h : (Node.release { n with store } tag).kind? k = some kind := h
    rw [Node.kind?, Node.links_release] at h
    exact .inl h
  | enter new =>
    have hjoin : ∀ {peers}, (n.join new peers).kind? k = some kind →
        n.kind? k = some kind ∨ (Action.attach new : Action σ) = .attach kind ∧ n.nextLink = k := by
      intro peers hk
      rw [Node.kind?_join] at hk
      split at hk
      · rename_i hid
        cases hk
        exact .inr ⟨rfl, hid.symm⟩
      · exact .inl hk
    have key : ∀ {q : Node σ × List (Tag × String)}, n.Entered new q → q.1.kind? k = some kind →
        n.kind? k = some kind ∨ (Action.attach new : Action σ) = .attach kind ∧ n.nextLink = k := by
      intro q hq hk
      cases hq with
      | plain | alone => exact hjoin hk
      | instead => exact hjoin (Node.kind?_of_detach hk)
    exact key (n.enter_cases new) h

theorem Node.kind?_act {n : Node σ} {a : Action σ} {k : LinkId} {kind : LinkKind}
    (h : (n.act a).kind? k = some kind) :
    n.kind? k = some kind ∨ a = .attach kind ∧ n.nextLink = k := by
  obtain ⟨p, ho, hm⟩ := n.act_opens a
  exact ho.kept (hm.kept h)

end Depot
