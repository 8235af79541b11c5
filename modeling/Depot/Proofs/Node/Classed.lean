/-
  Depot — whether the other end of a link understands what is said on it.

  The hop of a message is not sent; a reader takes it from its link.  `run_classed` says that
  what a link of a node takes is of the link's hop, so that it is read as what it is.  What
  can go wrong beside the hop is the length of a field that is no word.  The names in what a
  node says are those that it was told or that it stores (`Store.Sendable`), so they are as
  short as those that come in.
-/
import Depot.Client.Session
import Depot.Proofs.Node.Said
import Depot.Proofs.Node.Stored
import Depot.Proofs.Store
import Depot.Proofs.Wire.Framing

namespace Depot

variable {σ : Type u}

/-- Every object can be sent under its key. -/
def Store.Sendable (s : Store) : Prop :=
  s.Every fun key found => (Message.client (.store key found.data)).Encodable

/-- A message of the hop of its link, whose fields can be sent if names are `short`. -/
def Message.Classed (short : Prop) (kind : LinkKind) (m : Message) : Prop :=
  m.hop = kind.hop ∧ (short → m.Encodable)

namespace Node

/-! ## One message -/

theorem clientReply_classed {α : Type} (short : Prop) (result : Except StoreError α)
    (success : String) : (clientReply result success).Classed short .client := by
  cases result with
  | ok => exact ⟨rfl, fun _ => Message.encodable_of_fields rfl⟩
  | error e => exact ⟨rfl, fun _ => Message.encodable_of_fields rfl⟩

theorem peerReply_classed {α : Type} (short : Prop) (tag : Tag) (result : Except StoreError α)
    (success : String) : (peerReply tag result success).Classed short .accepted := by
  cases result with
  | ok => exact ⟨rfl, fun _ => Message.encodable_of_fields rfl⟩
  | error e => exact ⟨rfl, fun _ => Message.encodable_of_fields rfl⟩

section

variable {short : Prop} {s store : Store} {m reply : Message} (hs : short → s.Sendable)
  (hm : short → m.Encodable)
include hs hm

/-- The answer to a message is of its hop. -/
theorem answer_classed (hd : duty s m = .answer store reply) :
    (short → store.Sendable) ∧ reply.hop = m.hop ∧ (short → reply.Encodable) := by
  cases m with
  | client body =>
    cases body with
    | success | failure | peerStore =>
      cases hd
      exact ⟨hs, rfl, fun _ => Message.encodable_of_fields rfl⟩
    | lookup name =>
      cases hd
      refine ⟨hs, ?_⟩
      unfold lookupReply
      split
      · rename_i found hfound
        exact ⟨rfl, fun h => hs h name found hfound⟩
      · exact ⟨rfl, fun _ => Message.encodable_of_fields rfl⟩
    | store name object =>
      cases hd
      exact ⟨fun h => Store.Every.create (hs h) (hm h), clientReply_classed ..⟩
    | delete name =>
      cases hd
      exact ⟨fun h => Store.Every.erase (hs h) name, clientReply_classed ..⟩
    | peerLookup | peerDelete => cases hd
  | peer tag body =>
    cases body with
    | success | failure | store => cases hd
    | lookup name =>
      cases hd
      refine ⟨hs, ?_⟩
      unfold peerLookupReply
      split
      · rename_i found hfound
        exact ⟨rfl, fun h => hs h name found hfound⟩
      · exact ⟨rfl, fun _ => Message.encodable_of_fields rfl⟩
    | delete name =>
      cases hd
      exact ⟨fun h => Store.Every.erase (hs h) name, peerReply_classed ..⟩

/-- What is handed on of a reply of a peer is for a client. -/
theorem settle_classed {tag : Tag} (hd : duty s m = .settle tag store reply) :
    (short → store.Sendable) ∧ reply.Classed short .client := by
  cases m with
  | client body => cases body <;> cases hd
  | peer tag body =>
    cases body with
    | lookup | delete => cases hd
    | success | failure =>
      cases hd
      exact ⟨hs, rfl, fun _ => Message.encodable_of_fields rfl⟩
    | store name object =>
      cases hd
      refine ⟨fun h => Store.Every.put (hs h) (hm h), ?_⟩
      unfold fetchedReply
      split
      · exact ⟨rfl, hm⟩
      · exact ⟨rfl, fun _ => Message.encodable_of_fields rfl⟩

omit hs hm in
/-- What is forwarded of a request of a client is for a peer, and a single name. -/
theorem forward_classed {shard : ShardId} {request : PeerBody}
    (hd : duty s m = .forward shard request) (tag : Tag) :
    (Message.peer tag request).Classed short (.dialed shard) := by
  cases m with
  | client body =>
    cases body with
    | peerLookup | peerDelete =>
      cases hd
      exact ⟨rfl, fun _ => Message.encodable_of_fields rfl⟩
    | success | failure | lookup | store | delete | peerStore => cases hd
  | peer tag body => cases body <;> cases hd

end

end Node

/-! ## One action -/

/-- Whether the fields of the message that the action brings, if it brings one, have lengths that
    are words. -/
def Action.isEncodable : Action σ → Bool
  | .event (.message _ m) => decide m.Encodable
  | _ => true

theorem Action.isEncodable_recorded (a : Action σ) : a.recorded.isEncodable = a.isEncodable := by
  cases a with
  | event e => cases e <;> rfl
  | attach | expire | elapse | rewire => rfl

namespace Node

section

variable {n : Node σ} {a : Action σ} {short : Prop} (hs : short → n.store.Sendable)
  (ha : short → a.isEncodable = true)
include hs ha

theorem voices_classed (hadmits : n.admits a = true) : n.Voices (Message.Classed short) a where
  answer := by
    rintro id l m store reply rfl hl hd
    obtain ⟨-, hhop, hreply⟩ := answer_classed hs (fun h => of_decide_eq_true (ha h)) hd
    have hop : m.hop = l.kind.hop := by simpa [admits, hl] using hadmits
    exact ⟨hhop.trans hop, hreply⟩
  forward := by
    rintro id l m shard request rfl hl hd tag
    exact forward_classed hd tag
  settle := by
    rintro id l m tag store reply rfl hl hd
    exact (settle_classed hs (fun h => of_decide_eq_true (ha h)) hd).2
  failure _ := ⟨rfl, fun _ => Message.encodable_of_fields rfl⟩

theorem storeAfter_sendable (h : short) : (n.storeAfter a).Sendable := by
  unfold storeAfter
  split
  · rename_i id m
    have hm : short → m.Encodable := fun h => of_decide_eq_true (ha h)
    split
    · cases hd : duty n.store m with
      | answer store reply => exact (answer_classed hs hm hd).1 h
      | settle tag store reply => exact (settle_classed hs hm hd).1 h
      | forward shard request => exact hs h
    · exact hs h
  · exact hs h

end

/-! ## Runs -/

variable [Outbound σ]

/-- Each link has taken messages of its hop, whose fields can be sent if those that came in
    can. -/
theorem says_classed {c : Config} {wires : σ} {actions : List (Action σ)} {short : Prop}
    (h : (ofConfig c wires).admitsAll actions = true) (hshort : short → actions.all Action.isEncodable = true) :
    let n := (ofConfig c wires).recorded.run (actions.map Action.recorded)
    n.Says (Message.Classed short) (kindsOf actions) ∧ (short → n.store.Sendable) := by
  induction actions using List.reverseRecOn with
  | nil => exact ⟨⟨rfl, nofun, nofun, nofun⟩, fun _ => nofun⟩
  | append_singleton actions a ih =>
    have hrec := (admitsAll_recorded (ofConfig c wires) (actions ++ [a])).trans h
    rw [List.map_append, List.map_singleton, admitsAll_concat, Bool.and_eq_true] at hrec
    rw [admitsAll_concat, Bool.and_eq_true] at h
    simp only [List.all_append, List.all_cons, List.all_nil, Bool.and_true, Bool.and_eq_true]
      at hshort
    obtain ⟨hsaid, hsendable⟩ := ih h.1 fun hs => (hshort hs).1
    have ha : short → a.recorded.isEncodable = true := by
      intro hs
      rw [Action.isEncodable_recorded]
      exact (hshort hs).2
    have hm : Phase.Matched
        ⟨(ofConfig c wires).recorded.run (actions.map Action.recorded), [], []⟩ :=
      Phase.Matched.run hrec.1
    dsimp only
    rw [List.map_append, List.map_singleton, run_concat, kindsOf_concat, ← Action.kind?_recorded]
    refine ⟨hsaid.act hrec.2 (Phase.Coherent.run c _ _) hm (voices_classed hsendable ha hrec.2)
      fun f hf => Action.takenOn_recorded hf, fun hs => ?_⟩
    rw [store_act]
    exact storeAfter_sendable hsendable ha hs

/-- **Whoever is at the other end of a link understands what a node says on it.**  In a run in
    which links bring messages of their hop, every frame that a link takes, whatever the node
    made it for, is that of a message of the link's hop.  If the fields of the messages that
    come in can be sent, so can its fields, and then its payload is read as that message by who
    reads the hop of the link, a node or a session. -/
theorem run_classed {c : Config} {wires : σ} {actions : List (Action σ)}
    (h : (ofConfig c wires).admitsAll actions = true) :
    let n := (ofConfig c wires).recorded.run (actions.map Action.recorded)
    n.through Recorded.wires = (ofConfig c wires).run actions ∧
      (∀ id l, n.links.get? id = some l → (kindsOf actions)[id]? = some l.kind) ∧
      ∀ id f, f ∈ n.wires.takenOn id →
        ∃ kind m, (kindsOf actions)[id]? = some kind ∧ f = Frame.ofMessage m ∧
          m.hop = kind.hop ∧
          (actions.all Action.isEncodable = true → m.Encodable ∧
            Message.decode kind.hop (f.bytes.drop 4) = .ok m ∧
            (kind = .client → Session.decoded (f.bytes.drop 4) = .done m)) := by
  intro n
  have hsays : n.Says (Message.Classed (actions.all Action.isEncodable = true)) (kindsOf actions) :=
    (says_classed h id).1
  refine ⟨run_recorded _ actions, hsays.links, fun id f hf => ?_⟩
  obtain ⟨kind, hkind, m, rfl, hhop, hencodable⟩ := hsays.said id f hf
  refine ⟨kind, m, hkind, rfl, hhop, fun hshort => ?_⟩
  have hpayload : (Frame.ofMessage m).bytes.drop 4 = m.encode := by
    rw [Frame.bytes_ofMessage, drop_frameBytes]
  have hdecode : Message.decode kind.hop m.encode = .ok m :=
    Message.decode_eq_ok_iff.2 ⟨hhop, rfl, hencodable hshort⟩
  rw [hpayload]
  refine ⟨hencodable hshort, hdecode, ?_⟩
  rintro rfl
  rw [Session.decoded, show Hop.client = LinkKind.client.hop from rfl, hdecode]

/-- A client fetches an object through the node, and understands what it gets. -/
theorem run_classed_fetch :
    let actions : List (Action Unit) :=
      lookupRun ++ [.event (.message 1 (.peer 0 (.store [] [49])))]
    let n := (ofConfig {} ()).recorded.run (actions.map Action.recorded)
    (ofConfig {} ()).admitsAll actions = true ∧ actions.all Action.isEncodable = true ∧
      n.wires.takenOn 0 = [Frame.ofMessage (.client (.store [] [49]))] ∧
      ∀ f ∈ n.wires.takenOn 0, ∃ m, Session.decoded (f.bytes.drop 4) = .done m := by
  intro actions n
  have ha : (ofConfig {} ()).admitsAll actions = true := by cbv
  have hshort : actions.all Action.isEncodable = true := by decide
  obtain ⟨-, -, hclassed⟩ := run_classed ha
  refine ⟨ha, hshort, ?_, fun f hf => ?_⟩
  · simp only [n, actions]
    cbv
  · obtain ⟨kind, m, hkind, -, -, hread⟩ := hclassed 0 f hf
    cases hkind
    exact ⟨m, (hread hshort).2.2 rfl⟩

end Node

end Depot
