/-
  Depot — a request and its reply, on the way between two nodes.

  A frame arrives as the message that was sent (`arrival_ofMessage`).  What the far node
  answers to a request is a reply to the near one, and what the near node makes of that
  is what the request is to be told (`duty_request`).
-/
import Depot.Proofs.Pair.Basic
import Depot.Proofs.Wire.Framing

namespace Depot

/-- The body is a request whose name has a length that a field can have. -/
def PeerBody.Asks : PeerBody → Prop
  | .lookup name | .delete name => name.length < UInt32.size
  | .success _ | .failure _ | .store _ _ => False

theorem PeerBody.Asks.encodable {request : PeerBody} (h : request.Asks) (tag : Tag) :
    (Message.peer tag request).Encodable := by
  cases request with
  | success | failure | store => exact h.elim
  | lookup name | delete name => exact Message.encodable_of_fields (rfl : _ = [name])

theorem Pair.arrival_ofMessage {σ : Type u} {id : LinkId} {m : Message} (hop : m.hop = .peer)
    (henc : m.Encodable) :
    (arrival id (Frame.ofMessage m) : Action σ) = .event (.message id m) := by
  have hdrop : (Frame.ofMessage m).bytes.drop 4 = m.encode := by
    rw [Frame.bytes_ofMessage, drop_frameBytes]
  rw [arrival, hdrop, Message.decode_eq_ok_iff.2 ⟨hop, rfl, henc⟩]

/-! ## Stores in which nothing is committed -/

/-- Every object is mutable. -/
def Store.Open (s : Store) : Prop := s.Every fun _ found => found.isMutable = true

theorem Store.Open.not_committed {s : Store} (h : s.Open) (key : Bytes) : ¬ s.Committed key := by
  rintro ⟨found, hfound, hm⟩
  cases (h key found hfound).symm.trans hm

namespace Node

/-- Nothing that a message asks commits an object. -/
theorem duty_open {s store : Store} {m : Message} (h : s.Open)
    (hd : (duty s m).store? = some store) : store.Open := by
  cases m with
  | client body =>
    cases body with
    | store name object => cases hd; exact h.create rfl
    | delete name => cases hd; exact h.erase name
    | lookup | peerStore | success | failure => cases hd; exact h
    | peerLookup | peerDelete => cases hd
  | peer tag body =>
    cases body with
    | store name object => cases hd; exact h.put rfl
    | delete name => cases hd; exact h.erase name
    | lookup | success | failure => cases hd; exact h

theorem storeAfter_open {σ : Type u} {n : Node σ} (h : n.store.Open) (a : Action σ) :
    (n.storeAfter a).Open := by
  unfold storeAfter
  split
  · rename_i id m
    split
    · cases hd : (duty n.store m).store? with
      | none => exact h
      | some store => exact duty_open h hd
    · exact h
  · exact h

/-! ## Requests and replies -/

/-- What the near node makes of the object that it is sent. -/
theorem duty_fetched {s t : Store} {tag : Tag} {name : Bytes} {found : StoredObject}
    (hfound : s.get? name = some found) (ht : t.Open) :
    ∃ t' m, duty t (.peer tag (.store name found.data)) = .settle tag t' m ∧
      Relays (.lookup name) s s t t' m := by
  refine ⟨_, _, rfl, ?_⟩
  have hput := t.put_cases name found.data
  cases hp : t.put name found.data with
  | ok out =>
    rw [hp] at hput
    cases hput with
    | done hc hroom hget => exact .hit hfound hroom hget
  | error e =>
    rw [hp] at hput
    cases hput with
    | committed hc => exact (ht.not_committed name hc).elim
    | overBudget hc hroom => exact .full hfound hroom

/-- A request is answered with a reply that can be sent, and whoever gets it hands on what the
    request is to be told. -/
theorem duty_request {s : Store} {tag : Tag} {request : PeerBody} (hr : request.Asks) :
    ∃ s' reply, duty s (.peer tag request) = .answer s' reply ∧ reply.hop = .peer ∧
      reply.Encodable ∧ ∀ t : Store, t.Open → ∃ t' m, duty t reply = .settle tag t' m ∧
        Relays request s s' t t' m := by
  cases request with
  | success | failure | store => exact hr.elim
  | lookup name =>
    cases hfound : s.get? name with
    | some found =>
      have hd : duty s (.peer tag (.lookup name)) =
          .answer s (.peer tag (.store name found.data)) := by
        simp only [duty, peerDuty, peerLookupReply, hfound]
      refine ⟨_, _, hd, rfl, fun field hfield => ?_, fun t ht => duty_fetched hfound ht⟩
      cases List.mem_singleton.1 hfield
      exact hr
    | none =>
      have hd : duty s (.peer tag (.lookup name)) =
          .answer s (Message.peerFailure tag (StoreError.noSuchKey name).message) := by
        simp only [duty, peerDuty, peerLookupReply, hfound]
      exact ⟨_, _, hd, rfl, Message.encodable_of_fields rfl,
        fun t _ => ⟨_, _, rfl, .miss hfound⟩⟩
  | delete name =>
    cases hfound : s.get? name with
    | some found =>
      have he := Store.erase_of_some hfound
      have hd : duty s (.peer tag (.delete name)) =
          .answer (s.orBefore (s.erase name)) (Message.peerSuccess tag (deletedText name)) := by
        simp only [duty, peerDuty, peerReply, he]
      refine ⟨_, _, hd, rfl, Message.encodable_of_fields rfl,
        fun t _ => ⟨_, _, rfl, .deleted hfound ?_⟩⟩
      rw [he]
      exact Store.get?_erase he
    | none =>
      have he := Store.erase_of_none hfound
      have hd : duty s (.peer tag (.delete name)) =
          .answer s (Message.peerFailure tag (StoreError.noSuchKey name).message) := by
        simp only [duty, peerDuty, peerReply, he]
        rfl
      exact ⟨_, _, hd, rfl, Message.encodable_of_fields rfl,
        fun t _ => ⟨_, _, rfl, .absent hfound⟩⟩

/-- What is forwarded of a client's message is a request. -/
theorem asks_of_forward {s : Store} {m : Message} {shard : ShardId} {request : PeerBody}
    (henc : m.Encodable) (hd : duty s m = .forward shard request) : request.Asks := by
  have hname : ∀ {fields : List Bytes} {name field : Bytes}, fields = [name, field] →
      areInline fields → name.length < UInt32.size := by
    rintro fields name field rfl hin
    exact hin name (List.mem_singleton_self name)
  cases m with
  | client body =>
    cases body with
    | peerLookup | peerDelete =>
      cases hd
      exact hname rfl henc
    | success | failure | lookup | store | delete | peerStore => cases hd
  | peer tag body => cases body <;> cases hd

/-- A client neither brings replies nor requests of other nodes. -/
theorem duty_client {s : Store} {m : Message} (hop : m.hop = .client) {tag : Tag} {store : Store}
    {reply : Message} : duty s m ≠ .settle tag store reply := by
  cases m with
  | client body => cases body <;> exact nofun
  | peer tag body => cases hop

end Node

end Depot
