/-
  Depot — a node's store as a bounded map.

  `BoundedMap budget` is a map from keys to objects that take at most `budget` bytes in
  all.  `after` says what a message does to it and `answer?` how a message is answered,
  both in terms of the map alone; `store` is the store that holds what the map holds.
  `duty_store` and `duty_answer` say that on such a store a node does its duty as the map
  does.
-/
import Depot.Proofs.Node.Stored
import Depot.Proofs.Store
import Depot.Proofs.Table

namespace Depot

/-! ## The map -/

/-- A map from keys to objects that take at most `budget` bytes in all. -/
structure BoundedMap (budget : Nat) where
  objects : Table Bytes Bytes := {}
  fits : objects.weight ≤ budget := by exact Nat.zero_le _

namespace BoundedMap

def empty (budget : Nat) : BoundedMap budget := {}

variable {budget : Nat} (s : BoundedMap budget) (key data : Bytes)

def get? : Option Bytes := s.objects.get? key

def used : Nat := s.objects.weight

/-- The map with an object under the key, if then the objects are within the budget. -/
def put? : Option (BoundedMap budget) :=
  if h : (s.objects.insert key data).weight ≤ budget then some ⟨s.objects.insert key data, h⟩
  else none

/-- The map without an object under the key. -/
def remove : BoundedMap budget where
  objects := s.objects.erase key
  fits := (s.objects.weight_erase_le key).trans s.fits

/-- The map once a message is worked off.  A client's object goes only under a key that has
    none, a peer's in place of the one that is there; both only within the budget. -/
def after : Message → BoundedMap budget
  | .client (.store key data) =>
    if (s.get? key).isSome then s else (s.put? key data).getD s
  | .peer _ (.store key data) => (s.put? key data).getD s
  | .client (.delete key) | .peer _ (.delete key) => s.remove key
  | _ => s

/-- The map once messages are worked off, first one first. -/
def feed (ms : List Message) : BoundedMap budget := ms.foldl after s

/-- What a client is told that asks to store an object. -/
def storeReply : Message :=
  if (s.get? key).isSome then Message.failure (StoreError.keyTaken key).message
  else if (s.put? key data).isSome then Message.success Node.createdText
  else Message.failure (StoreError.overBudget data.length s.used budget).message

/-- The answer to a message that asks something of the map. -/
def answer? : Message → Option Message
  | .client (.store key data) => some (s.storeReply key data)
  | .client (.lookup key) =>
    some ((s.get? key).elim (Message.failure (StoreError.noSuchKey key).message)
      fun data => .client (.store key data))
  | .peer tag (.lookup key) =>
    some ((s.get? key).elim (Message.peerFailure tag (StoreError.noSuchKey key).message)
      fun data => .peer tag (.store key data))
  | .client (.delete key) =>
    some ((s.get? key).elim (Message.failure (StoreError.noSuchKey key).message)
      fun _ => Message.success (Node.deletedText key))
  | .peer tag (.delete key) =>
    some ((s.get? key).elim (Message.peerFailure tag (StoreError.noSuchKey key).message)
      fun _ => Message.peerSuccess tag (Node.deletedText key))
  | _ => none

/-! ## The store that holds what the map holds -/

/-- The store with the objects of the map, none of them committed. -/
def store : Store where
  budget := budget
  objects := s.objects.map fun _ data => ⟨data, true⟩
  used := s.used

variable {s key data}

theorem get?_store : s.store.get? key = (s.get? key).map fun data => ⟨data, true⟩ :=
  Table.get?_map _ _ _

theorem store_put (h : (s.objects.insert key data).weight ≤ budget) :
    (BoundedMap.mk (s.objects.insert key data) h).store =
      { s.store with
        objects := s.store.objects.insert key ⟨data, true⟩
        used := (s.objects.insert key data).weight } := by
  simp only [store, used, Table.map_insert]

/-- The map can have an object exactly if the bytes by which it grows are free. -/
theorem insert_fits_iff (key data : Bytes) :
    (s.objects.insert key data).weight ≤ budget ↔ s.store.growth key data ≤ budget - s.used := by
  have hfits := s.fits
  rw [Store.growth, get?_store, used, get?]
  cases h : s.objects.get? key with
  | none =>
    rw [Table.weight_insert_new h]
    show _ ↔ data.length - 0 ≤ _
    omega
  | some old =>
    have hinsert := Table.weight_insert_over h data
    have herase := Table.weight_erase h
    show _ ↔ data.length - old.length ≤ _
    omega

theorem growth_store (h : s.get? key = none) : s.store.growth key data = data.length := by
  rw [Store.growth, get?_store, h]
  rfl

theorem room_store (requested : Nat) :
    s.store.ensureRoom requested =
      if requested ≤ budget - s.used then .ok ()
      else .error (.overBudget requested s.used budget) := by
  show (if budget - s.used < requested then _ else _) = _
  rw [← ite_not]
  simp only [Nat.not_lt]
  rfl

/-- On a key that is free, an object is created exactly if the map can have it. -/
theorem create_store (h : s.get? key = none) :
    s.store.create key data =
      (s.put? key data).elim
        (.error (.overBudget data.length s.used budget)) fun s' => .ok s'.store := by
  have hfree : s.store.get? key = none := by rw [get?_store, h]; rfl
  have hiff := s.insert_fits_iff key data
  rw [growth_store h] at hiff
  rw [Store.create_of_none hfree]
  rw [room_store, put?]
  by_cases hroom : data.length ≤ budget - s.used
  · rw [dif_pos (hiff.2 hroom), if_pos hroom]
    simp only [Except.map, Option.elim, store_put, Table.weight_insert_new h]
    rfl
  · rw [dif_neg fun hw => hroom (hiff.1 hw), if_neg hroom]
    rfl

/-- An object is put exactly if the map can have it. -/
theorem put_store :
    s.store.orBefore ((s.store.put key data).map Prod.fst) = ((s.put? key data).getD s).store := by
  cases h : s.get? key with
  | none =>
    have hfree : s.store.get? key = none := by rw [get?_store, h]; rfl
    rw [Store.put_of_none hfree, create_store h]
    cases s.put? key data <;> rfl
  | some old =>
    have hthere : s.store.get? key = some ⟨old, true⟩ := by rw [get?_store, h]; rfl
    have hgrowth : s.store.growth key data = data.length - old.length := by
      rw [Store.growth, hthere]
      rfl
    have hiff := s.insert_fits_iff key data
    rw [hgrowth] at hiff
    have hsize : StoredObject.size ⟨old, true⟩ = old.length := rfl
    rw [Store.put_of_mutable hthere rfl, room_store, hsize, put?]
    by_cases hroom : data.length - old.length ≤ budget - s.used
    · have hused : s.objects.weight - old.length + data.length =
          (s.objects.insert key data).weight := by
        have hinsert := Table.weight_insert_over h data
        have herase := Table.weight_erase h
        omega
      rw [dif_pos (hiff.2 hroom), if_pos hroom, Option.getD_some, store_put, ← hused]
      rfl
    · rw [dif_neg fun hw => hroom (hiff.1 hw), if_neg hroom]
      rfl

theorem erase_store :
    s.store.erase key =
      (s.get? key).elim (.error (.noSuchKey key)) fun _ => .ok (s.remove key).store := by
  cases h : s.get? key with
  | none =>
    have hnone : s.store.get? key = none := by rw [get?_store, h]; rfl
    exact Store.erase_of_none hnone
  | some old =>
    have hthere : s.store.get? key = some ⟨old, true⟩ := by rw [get?_store, h]; rfl
    have hweight := Table.weight_erase h
    rw [Store.erase_of_some hthere]
    have hused : s.objects.weight - old.length = (s.objects.erase key).weight := by omega
    simp only [store, used, remove, Option.elim, Table.map_erase, StoredObject.size, hused]

theorem remove_of_none (h : s.get? key = none) : s.remove key = s := by
  cases s
  simp only [remove, mk.injEq]
  exact Table.erase_of_none h

/-- What the map answers, a node answers whose store holds what the map holds. -/
theorem duty_answer {m reply : Message} (h : s.answer? m = some reply) :
    Node.duty s.store m = .answer (s.after m).store reply := by
  cases m with
  | client body =>
    cases body with
    | store key data =>
      cases h
      simp only [Node.duty, Node.clientDuty, after, storeReply]
      cases hk : s.get? key with
      | some old =>
        have hthere : s.store.get? key = some ⟨old, true⟩ := by rw [get?_store, hk]; rfl
        rw [Store.create_of_some hthere]
        rfl
      | none =>
        rw [create_store hk]
        cases s.put? key data <;> rfl
    | lookup key =>
      cases h
      simp only [Node.duty, Node.clientDuty, Node.lookupReply, get?_store, after]
      cases s.get? key <;> rfl
    | delete key =>
      cases h
      simp only [Node.duty, Node.clientDuty, erase_store, after]
      cases hk : s.get? key with
      | none => rw [remove_of_none hk]; rfl
      | some old => rfl
    | peerLookup | peerStore | peerDelete | success | failure => cases h
  | peer tag body =>
    cases body with
    | lookup key =>
      cases h
      simp only [Node.duty, Node.peerDuty, Node.peerLookupReply, get?_store, after]
      cases s.get? key <;> rfl
    | delete key =>
      cases h
      simp only [Node.duty, Node.peerDuty, erase_store, after]
      cases hk : s.get? key with
      | none => rw [remove_of_none hk]; rfl
      | some old => rfl
    | store | success | failure => cases h

/-- Whatever a message asks, the store goes on as the map does. -/
theorem duty_store (m : Message) :
    ((Node.duty s.store m).store?).getD s.store = (s.after m).store := by
  cases h : s.answer? m with
  | some reply => rw [duty_answer h]; rfl
  | none =>
    cases m with
    | client body => cases body <;> first | rfl | cases h
    | peer tag body =>
      cases body with
      | store key data => exact put_store
      | success | failure => rfl
      | lookup | delete => cases h

end BoundedMap

end Depot
