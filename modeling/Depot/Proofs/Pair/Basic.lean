/-
  Depot — two nodes with a link between them.

  The near node has dialed the far one.  Clients come and go about their business on
  both; what the nodes say to each other on the link between them arrives frame by
  frame, at any time but in order.  A pair writes down what the near node's clients ask
  for, which is what their messages want of other shards (`asked_run`), and how the
  stores stood when a request or a reply arrived; by this `Outcome` says what a client
  is to be told.
-/
import Depot.Proofs.Node.Calm
import Depot.Proofs.Store
import Depot.Proofs.Wire.Codec

namespace Depot

variable {σ : Type u} {τ : Type v}

/-! ## Requests -/

/-- A request of a client that is to be forwarded. -/
structure Asked where
  requester : LinkId × Nat
  shard : ShardId
  request : PeerBody
  /-- The number of tags that were out. -/
  out : Nat
  /-- The tag under which it left, or why it could not leave. -/
  sent : Except Fault Tag
  deriving Repr

/-- What was asked, with the client's link and the shard. -/
def Asked.what (q : Asked) : LinkId × ShardId × PeerBody := (q.requester.1, q.shard, q.request)

/-- The request with its tag, if it left. -/
def Asked.left? (q : Asked) : Option (Tag × Asked) := q.sent.toOption.map fun tag => (tag, q)

namespace Node

variable [Outbound σ]

/-- The request that an action brings to be forwarded. -/
def asks? (n : Node σ) : Action σ → Option Asked
  | .event (.message id m) =>
    match n.links.get? id, m.forwarded? with
    | some l, some (shard, request) =>
      some ⟨(id, l.order.next), shard, request, n.tags.outCount,
        ((n.reserve id l).issue (id, l.order.next) shard request).2⟩
    | _, _ => none
  | _ => none

/-- The reply that an action gives at once, with the link. -/
def answers? (n : Node σ) : Action σ → Option (LinkId × Message)
  | .event (.message id m) => (n.direct? id (.event (.message id m))).map fun reply => (id, reply)
  | _ => none

end Node

/-! ## Pairs -/

/-- Two nodes with a link between them. -/
structure Pair (σ : Type u) (τ : Type v) where
  near : Node (Recorded σ)
  far : Node (Recorded τ)
  /-- The link as the near node knows it. -/
  nearEnd : LinkId
  /-- The link as the far node knows it. -/
  farEnd : LinkId
  /-- What the near node's clients asked to be forwarded. -/
  asked : List Asked := []
  /-- What the near node's clients were told at once. -/
  direct : List (LinkId × Message) := []
  /-- The far store when each request arrived, and once it was answered. -/
  handled : List (Store × Store) := []
  /-- The near store when each reply arrived, and once it was dealt with. -/
  met : List (Store × Store) := []

namespace Pair

/-- The frames from the near node to the far one. -/
def outward (p : Pair σ τ) : List Frame := p.near.wires.takenOn p.nearEnd

/-- The frames from the far node to the near one. -/
def homeward (p : Pair σ τ) : List Frame := p.far.wires.takenOn p.farEnd

/-- The requests that left, each with its tag. -/
def left (p : Pair σ τ) : List (Tag × Asked) := p.asked.filterMap Asked.left?

/-- What a client asked to be forwarded. -/
def askedOn (p : Pair σ τ) (id : LinkId) : List Asked := p.asked.filter fun q => q.requester.1 = id

/-- What a client was told at once. -/
def directOn (p : Pair σ τ) (id : LinkId) : List Message :=
  (p.direct.filter fun e => e.1 = id).map Prod.snd

/-- What happens next. -/
inductive Event (σ : Type u) (τ : Type v) where
  /-- Something happens to the near node, not on the link to the far one. -/
  | near (a : Action σ)
  /-- Something happens to the far node, not on the link to the near one. -/
  | far (a : Action τ)
  /-- The next frame gets to the far node. -/
  | outward
  /-- The next frame gets to the near node. -/
  | homeward

/-- What comes of a frame at the end of the link. -/
def arrival (id : LinkId) (f : Frame) : Action σ :=
  match Message.decode .peer (f.bytes.drop 4) with
  | .ok m => .event (.message id m)
  | .error e => .event (.closed id (some (.wire e)))

/-- Whether the action is one of a node's own clients, or of nobody's.  What a reader hands on
    of a client was in a frame, so it can be encoded. -/
def isOwn : Action σ → Bool
  | .attach .client | .elapse _ | .rewire _ => true
  | .event (.message _ m) => decide (m.hop = .client ∧ m.Encodable)
  | .attach (.dialed _) | .attach .accepted | .expire _ | .event (.closed _ _) => false

variable [Outbound σ] [Outbound τ]

/-- The near node acts on its own. -/
def ask (p : Pair σ τ) (a : Action (Recorded σ)) : Pair σ τ :=
  { p with
    near := p.near.act a
    asked := p.asked ++ (p.near.asks? a).toList
    direct := p.direct ++ (p.near.answers? a).toList }

/-- The far node acts on what came of a frame. -/
def handle (p : Pair σ τ) (a : Action (Recorded τ)) : Pair σ τ :=
  let far := p.far.act a
  { p with far, handled := p.handled ++ [(p.far.store, far.store)] }

/-- The near node acts on what came of a frame. -/
def meet (p : Pair σ τ) (a : Action (Recorded σ)) : Pair σ τ :=
  let near := p.near.act a
  { p with near, met := p.met ++ [(p.near.store, near.store)] }

def next (p : Pair σ τ) : Event σ τ → Pair σ τ
  | .near a => p.ask a.recorded
  | .far a => { p with far := p.far.act a.recorded }
  | .outward =>
    match p.outward[p.handled.length]? with
    | none => p
    | some f => p.handle (arrival p.farEnd f)
  | .homeward =>
    match p.homeward[p.met.length]? with
    | none => p
    | some f => p.meet (arrival p.nearEnd f)

def run (p : Pair σ τ) (events : List (Event σ τ)) : Pair σ τ := events.foldl next p

/-- Whether the event is one that clients, wires and the link between the nodes can raise. -/
def admits (p : Pair σ τ) : Event σ τ → Bool
  | .near a => isOwn a && p.near.admits a.recorded
  | .far a => isOwn a && p.far.admits a.recorded
  | .outward | .homeward => true

def admitsAll (p : Pair σ τ) : List (Event σ τ) → Bool
  | [] => true
  | v :: events => p.admits v && (p.next v).admitsAll events

/-- What a message of the near node's clients asks to be forwarded, with its link. -/
def brings? (p : Pair σ τ) : Event σ τ → Option (LinkId × ShardId × PeerBody)
  | .near (.event (.message id m)) =>
    if p.near.links.contains id then m.forwarded?.map fun request => (id, request) else none
  | _ => none

/-- What the messages of the near node's clients ask to be forwarded, first one first. -/
def brought (p : Pair σ τ) : List (Event σ τ) → List (LinkId × ShardId × PeerBody)
  | [] => []
  | v :: events => (p.brings? v).toList ++ (p.next v).brought events

/-- The near node dials the far one for a shard; some clients were there before. -/
def start (c d : Config) (wires : σ) (wires' : τ) (shard : ShardId) (early late : Nat) :
    Pair σ τ where
  near := (Node.ofConfig c wires).recorded.run
    (List.replicate early (.attach .client) ++ [.attach (.dialed shard)])
  far := (Node.ofConfig d wires').recorded.run
    (List.replicate late (.attach .client) ++ [.attach .accepted])
  nearEnd := early
  farEnd := late

section

variable {p : Pair σ τ} {f : Frame}

theorem next_outward_none (h : p.outward[p.handled.length]? = none) : p.next .outward = p := by
  simp only [next, h]

theorem next_outward_some (h : p.outward[p.handled.length]? = some f) :
    p.next .outward = p.handle (arrival p.farEnd f) := by
  simp only [next, h]

theorem next_homeward_none (h : p.homeward[p.met.length]? = none) : p.next .homeward = p := by
  simp only [next, h]

theorem next_homeward_some (h : p.homeward[p.met.length]? = some f) :
    p.next .homeward = p.meet (arrival p.nearEnd f) := by
  simp only [next, h]

end

theorem run_concat (p : Pair σ τ) (events : List (Event σ τ)) (v : Event σ τ) :
    p.run (events ++ [v]) = (p.run events).next v := by
  rw [run, List.foldl_append]
  rfl

theorem asked_next (p : Pair σ τ) (v : Event σ τ) :
    (p.next v).asked.map Asked.what = p.asked.map Asked.what ++ (p.brings? v).toList := by
  cases v with
  | far a => exact (List.append_nil _).symm
  | outward =>
    cases h : p.outward[p.handled.length]? with
    | none => rw [next_outward_none h]; exact (List.append_nil _).symm
    | some f => rw [next_outward_some h]; exact (List.append_nil _).symm
  | homeward =>
    cases h : p.homeward[p.met.length]? with
    | none => rw [next_homeward_none h]; exact (List.append_nil _).symm
    | some f => rw [next_homeward_some h]; exact (List.append_nil _).symm
  | near a =>
    show (p.asked ++ (p.near.asks? a.recorded).toList).map Asked.what = _
    rw [List.map_append]
    congr 1
    cases a with
    | attach | expire | elapse | rewire => rfl
    | event e =>
      cases e with
      | closed => rfl
      | message id m =>
        show (p.near.asks? (.event (.message id m))).toList.map Asked.what =
          (if p.near.links.contains id then m.forwarded?.map fun request => (id, request)
            else none).toList
        rw [Node.asks?, Table.contains]
        cases p.near.links.get? id with
        | none => rfl
        | some l => cases m.forwarded? <;> rfl

/-- What was asked is what the clients' messages ask. -/
theorem asked_run (p : Pair σ τ) (events : List (Event σ τ)) :
    (p.run events).asked.map Asked.what = p.asked.map Asked.what ++ p.brought events := by
  induction events generalizing p with
  | nil => exact (List.append_nil _).symm
  | cons v events ih =>
    show ((p.next v).run events).asked.map Asked.what = _
    rw [ih, asked_next, brought, List.append_assoc]

theorem admitsAll_concat {p : Pair σ τ} {events : List (Event σ τ)} {v : Event σ τ} :
    p.admitsAll (events ++ [v]) = (p.admitsAll events && (p.run events).admits v) := by
  induction events generalizing p with
  | nil => simp [admitsAll, run]
  | cons w events ih => rw [List.cons_append, admitsAll, ih, admitsAll, Bool.and_assoc]; rfl

end Pair

/-! ## What clients are to be told -/

/-- A request that got to the far store `s` leaves `s'` there; its reply, which got to the near
    store `t`, leaves `t'` there, and a client is told `m`. -/
inductive Relays : PeerBody → (s s' t t' : Store) → (m : Message) → Prop
  /-- The object is in both stores now. -/
  | hit {name : Bytes} {found : StoredObject} {s t t' : Store} (h : s.get? name = some found)
      (hroom : t.growth name found.data ≤ t.budget - t.used)
      (ht : ∀ key, t'.get? key = if key = name then some ⟨found.data, true⟩ else t.get? key) :
      Relays (.lookup name) s s t t' (.client (.store name found.data))
  /-- The near store has no room for the object. -/
  | full {name : Bytes} {found : StoredObject} {s t : Store} (h : s.get? name = some found)
      (hroom : t.budget - t.used < t.growth name found.data) :
      Relays (.lookup name) s s t t (Message.failure
        (StoreError.overBudget (t.growth name found.data) t.used t.budget).message)
  | miss {name : Bytes} {s t : Store} (h : s.get? name = none) :
      Relays (.lookup name) s s t t (Message.failure (StoreError.noSuchKey name).message)
  | deleted {name : Bytes} {found : StoredObject} {s s' t : Store} (h : s.get? name = some found)
      (hs : ∀ key, s'.get? key = if key = name then none else s.get? key) :
      Relays (.delete name) s s' t t (Message.success (Node.deletedText name))
  | absent {name : Bytes} {s t : Store} (h : s.get? name = none) :
      Relays (.delete name) s s t t (Message.failure (StoreError.noSuchKey name).message)

namespace Pair

/-- What a client is told of its request. -/
inductive Outcome (p : Pair σ τ) (q : Asked) : Message → Prop
  | refused {fault : Fault} (h : q.sent = .error fault) :
      Outcome p q (Message.failure fault.message)
  | relayed {k : Nat} {tag : Tag} {s s' t t' : Store} {m : Message}
      (hk : p.left[k]? = some (tag, q)) (hs : p.handled[k]? = some (s, s'))
      (ht : p.met[k]? = some (t, t')) (h : Relays q.request s s' t t' m) : Outcome p q m

/-- The message is what the requester is told of the request with its slot. -/
def Answers (p : Pair σ τ) (r : LinkId × Nat) (m : Message) : Prop :=
  ∃ q ∈ p.asked, q.requester = r ∧ p.Outcome q m

/-- More has happened. -/
structure Extends (p p' : Pair σ τ) : Prop where
  asked : p.asked <+: p'.asked := by exact List.prefix_rfl
  handled : p.handled <+: p'.handled := by exact List.prefix_rfl
  met : p.met <+: p'.met := by exact List.prefix_rfl

theorem Extends.left {p p' : Pair σ τ} (h : p.Extends p') : p.left <+: p'.left :=
  h.asked.filterMap _

theorem Answers.extend {p p' : Pair σ τ} (he : p.Extends p') {r : LinkId × Nat} {m : Message}
    (h : p.Answers r m) : p'.Answers r m := by
  obtain ⟨q, hq, hr, ho⟩ := h
  refine ⟨q, he.asked.subset hq, hr, ?_⟩
  cases ho with
  | refused hf => exact .refused hf
  | relayed hk hs ht hrelay =>
    have get : ∀ {α : Type} {xs ys : List α} {k : Nat} {x : α}, xs <+: ys → xs[k]? = some x →
        ys[k]? = some x := by
      rintro α xs - k x ⟨zs, rfl⟩ hx
      rw [List.getElem?_append_left (List.getElem?_eq_some_iff.1 hx).1, hx]
    exact .relayed (get he.left hk) (get he.handled hs) (get he.met ht) hrelay

end Pair

end Depot
