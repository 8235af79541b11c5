/-
  Depot — what a message asks, by its kind.

  * `Message.forwarded?`: a client's requests for objects of another shard.
  * `Message.direct?`: what is answered at once, with the reply, which is every other
    message of a client and a peer's requests.
  * `Message.settled?`: a peer's replies, with what the requester is told.

  All three go by the kind of message and by what is under a key of the store, and not by
  what a node does.  `duty_befits` says that a node does the one of them that there is.
-/
import Depot.Node.Event
import Depot.Proofs.Store

namespace Depot

namespace Message

/-- The request as which a message is forwarded, and the shard. -/
def forwarded? : Message → Option (ShardId × PeerBody)
  | .client (.peerLookup name shard) => some (shard, .lookup name)
  | .client (.peerDelete name shard) => some (shard, .delete name)
  | _ => none

/-- The reply to a message that is answered at once. -/
def direct? (s : Store) : Message → Option Message
  | .client (.store name object) =>
    if (s.get? name).isSome then some (failure (StoreError.keyTaken name).message)
    else if object.length ≤ s.budget - s.used then some (success Node.createdText)
    else some (failure (StoreError.overBudget object.length s.used s.budget).message)
  | .client (.lookup name) =>
    some ((s.get? name).elim (failure (StoreError.noSuchKey name).message)
      fun found => .client (.store name found.data))
  | .client (.delete name) =>
    some ((s.get? name).elim (failure (StoreError.noSuchKey name).message)
      fun _ => success (Node.deletedText name))
  | .client (.peerStore ..) => some (failure Node.unsupportedText)
  | .client (.success _) | .client (.failure _) => some (failure Node.unexpectedText)
  | .peer tag (.lookup name) =>
    some ((s.get? name).elim (peerFailure tag (StoreError.noSuchKey name).message)
      fun found => .peer tag (.store name found.data))
  | .peer tag (.delete name) =>
    some ((s.get? name).elim (peerFailure tag (StoreError.noSuchKey name).message)
      fun _ => peerSuccess tag (Node.deletedText name))
  | .client (.peerLookup ..) | .client (.peerDelete ..) => none
  | .peer _ (.store ..) | .peer _ (.success _) | .peer _ (.failure _) => none

/-- The tag of a reply, and what is told to whoever waits under it.  An object is put into the
    store first, and an error takes its place if that is refused. -/
def settled? (s : Store) : Message → Option (Tag × Message)
  | .peer tag (.success text) => some (tag, .client (.success text))
  | .peer tag (.failure text) => some (tag, .client (.failure text))
  | .peer tag (.store name object) =>
    if (s.get? name).any fun found => !found.isMutable then
      some (tag, failure (StoreError.committed name).message)
    else if s.growth name object ≤ s.budget - s.used then
      some (tag, .client (.store name object))
    else some (tag, failure (StoreError.overBudget (s.growth name object) s.used s.budget).message)
  | _ => none

end Message

namespace Node

variable {s : Store} {m reply : Message} {shard : ShardId} {request : PeerBody} {tag : Tag}

theorem direct?_store (s : Store) (name object : Bytes) :
    (Message.client (.store name object)).direct? s =
      some (clientReply (s.create name object) createdText) := by
  cases hk : s.get? name with
  | some old =>
    rw [Store.create_of_some hk]
    simp [Message.direct?, hk, clientReply]
  | none =>
    rw [Store.create_of_none hk]
    cases hr : s.ensureRoom object.length with
    | ok u =>
      have hroom : object.length ≤ s.budget - s.used := Store.ensureRoom_eq_ok_iff.1 hr
      simp [Message.direct?, hk, hroom, clientReply, Except.map]
    | error e =>
      have hroom : ¬ object.length ≤ s.budget - s.used := fun hle => by
        cases hr.symm.trans (Store.ensureRoom_eq_ok_iff (u := ()).2 hle)
      simp [Message.direct?, hk, hroom, Store.ensureRoom_eq_error hr, clientReply, Except.map]

theorem settled?_store (s : Store) (tag : Tag) (name object : Bytes) :
    (Message.peer tag (.store name object)).settled? s =
      some (tag, fetchedReply (s.put name object) name object) := by
  have hany : (s.get? name).any (fun found => !found.isMutable) = true ↔ s.Committed name := by
    simp [Option.any_eq_true, Store.Committed]
  have hput := s.put_cases name object
  generalize s.put name object = result at hput
  cases hput with
  | done hc hroom =>
    rw [← hany] at hc
    simp [Message.settled?, hc, hroom, fetchedReply]
  | committed hc =>
    rw [← hany] at hc
    simp [Message.settled?, hc, fetchedReply]
  | overBudget hc hroom =>
    rw [← hany] at hc
    simp [Message.settled?, hc, Nat.not_le.2 hroom, fetchedReply]

/-- The duty is the one that there is by the kind of the message. -/
inductive Duty.Befits (s : Store) (m : Message) : Duty → Prop
  | answer {store : Store} {reply : Message} (hd : m.direct? s = some reply)
      (hf : m.forwarded? = none) (hs : m.settled? s = none) : Befits s m (.answer store reply)
  | forward {shard : ShardId} {request : PeerBody} (hd : m.direct? s = none)
      (hf : m.forwarded? = some (shard, request)) (hs : m.settled? s = none) :
      Befits s m (.forward shard request)
  | settle {tag : Tag} {store : Store} {reply : Message} (hd : m.direct? s = none)
      (hf : m.forwarded? = none) (hs : m.settled? s = some (tag, reply)) :
      Befits s m (.settle tag store reply)

theorem duty_befits (s : Store) (m : Message) : (duty s m).Befits s m := by
  cases m with
  | client body =>
    cases body with
    | store name object => exact .answer (direct?_store s name object) rfl rfl
    | lookup name =>
      refine .answer (congrArg some ?_) rfl rfl
      unfold lookupReply
      cases s.get? name <;> rfl
    | delete name =>
      refine .answer (congrArg some ?_) rfl rfl
      cases hk : s.get? name with
      | none => rw [Store.erase_of_none hk]; rfl
      | some old => rw [Store.erase_of_some hk]; rfl
    | peerLookup | peerDelete => exact .forward rfl rfl rfl
    | peerStore | success | failure => exact .answer rfl rfl rfl
  | peer tag body =>
    cases body with
    | lookup name =>
      refine .answer (congrArg some ?_) rfl rfl
      unfold peerLookupReply
      cases s.get? name <;> rfl
    | delete name =>
      refine .answer (congrArg some ?_) rfl rfl
      cases hk : s.get? name with
      | none => rw [Store.erase_of_none hk]; rfl
      | some old => rw [Store.erase_of_some hk]; rfl
    | store name object => exact .settle rfl rfl (settled?_store s tag name object)
    | success | failure => exact .settle rfl rfl rfl

namespace Duty.Befits

variable {d : Duty}

theorem forward_iff (h : d.Befits s m) :
    d = .forward shard request ↔ m.forwarded? = some (shard, request) := by
  cases h with
  | answer hd hf | forward hd hf | settle hd hf => simp [hf]

theorem answer_iff (h : d.Befits s m) :
    (∃ store, d = .answer store reply) ↔ m.direct? s = some reply := by
  cases h with
  | answer hd | forward hd | settle hd => simp [hd]

theorem settle_iff (h : d.Befits s m) :
    (∃ store, d = .settle tag store reply) ↔ m.settled? s = some (tag, reply) := by
  cases h with
  | answer hd hf hs | forward hd hf hs | settle hd hf hs => simp [hs]

/-- What a client says is answered at once or forwarded. -/
theorem length_asks (h : d.Befits s m) (hop : m.hop = .client) :
    (m.direct? s).toList.length + m.forwarded?.toList.length = 1 := by
  cases h with
  | answer hd hf | forward hd hf => rw [hd, hf]; rfl
  | settle hd hf hs =>
    cases m with
    | client body => cases hs
    | peer tag body => cases hop

end Duty.Befits

/-- A node forwards what is to be forwarded. -/
theorem duty_eq_forward_iff :
    duty s m = .forward shard request ↔ m.forwarded? = some (shard, request) :=
  (duty_befits s m).forward_iff

theorem forwarded?_eq_none (h : ∀ shard request, duty s m ≠ .forward shard request) :
    m.forwarded? = none := by
  cases hf : m.forwarded? with
  | none => rfl
  | some e => exact absurd (duty_eq_forward_iff.2 hf) (h e.1 e.2)

/-- It answers what is to be answered at once. -/
theorem duty_answers_iff :
    (∃ store, duty s m = .answer store reply) ↔ m.direct? s = some reply :=
  (duty_befits s m).answer_iff

/-- It hands a reply to whoever waits for it. -/
theorem duty_settles_iff :
    (∃ store, duty s m = .settle tag store reply) ↔ m.settled? s = some (tag, reply) :=
  (duty_befits s m).settle_iff

end Node

end Depot
