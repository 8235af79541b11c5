/-
  Depot — what an operation of a store does.

  An operation has conditions, in the order in which they are looked at, and leaves an object
  under its key, or none.  `Operation.refusal?` is the error of the first condition that does
  not hold, `Operation.memory` the length of the memory that is needed then, and `Store.set`
  the store with another object under one key.  On a store that is `Accounted` this is all that
  there is to an operation: it fails with its refusal, breaks off for want of memory, or sets
  what it leaves (`Accounted.act_eq`).  So the account goes on from one operation to the next
  (`Accounted.after`, `accounted_run`); what it counts beside the objects was lost where
  operations broke off (`lost_run`).
-/
import Depot.Proofs.Store
import Depot.Proofs.Table
import Mathlib

namespace Depot

/-- The bytes with `new` written over those from `offset` on. -/
def Bytes.overlay (old : Bytes) (offset : Nat) (new : Bytes) : Bytes :=
  old.mapIdx fun i b => if i < offset then b else new[i - offset]?.getD b

theorem Bytes.overlay_eq {old new : Bytes} {offset : Nat} (h : offset + new.length ≤ old.length) :
    old.overlay offset new = old.take offset ++ new ++ old.drop (offset + new.length) := by
  refine List.ext_getElem? fun i => ?_
  have hlength : (old.take offset).length = offset := by
    rw [List.length_take]
    omega
  rw [overlay, List.getElem?_mapIdx, List.append_assoc]
  by_cases hbefore : i < offset
  · rw [List.getElem?_append_left (by omega), List.getElem?_take_of_lt hbefore]
    simp [hbefore]
  · rw [List.getElem?_append_right (by omega), hlength]
    by_cases hwithin : i - offset < new.length
    · have hi : i < old.length := by omega
      rw [List.getElem?_append_left hwithin]
      simp [hbefore, hi, List.getElem?_eq_getElem hwithin]
    · rw [List.getElem?_append_right (by omega), List.getElem?_drop,
        show offset + new.length + (i - offset - new.length) = i by omega]
      simp [hbefore, List.getElem?_eq_none (not_lt.1 hwithin)]

namespace Store

/-! ## Operations -/

/-- What may be done to a store. -/
inductive Operation where
  | createZeros (key : Bytes) (size : Nat)
  | create (key data : Bytes)
  | put (key data : Bytes)
  | erase (key : Bytes)
  | commit (key : Bytes)
  | extend (key : Bytes) (delta : Nat)
  | write (key : Bytes) (offset : Nat) (data : Bytes)
  deriving DecidableEq, Repr

/-- Do an operation. -/
def act (s : Store) : Operation → Except Halt Store
  | .createZeros key size => s.createZeros key size
  | .create key data => (s.create key data).mapError .refused
  | .put key data => ((s.put key data).map Prod.fst).mapError .refused
  | .erase key => (s.erase key).mapError .refused
  | .commit key => (s.commit key).mapError .refused
  | .extend key delta => s.extend key delta
  | .write key offset data => (s.write key offset data).mapError .refused

/-- The store that is there once an operation has ended. -/
def leftBy (s : Store) : Except Halt Store → Store
  | .ok s' | .error (.broken s') => s'
  | .error (.refused _) => s

/-- The store after an operation, however it ends. -/
def after (s : Store) (op : Operation) : Store := s.leftBy (s.act op)

/-- A new store. -/
def ofBudget (budget : Nat) : Store where
  budget := budget
  objects := .empty

/-- A new store after operations, first one first. -/
def run (budget : Nat) (ops : List Operation) : Store := ops.foldl after (ofBudget budget)

theorem run_concat (budget : Nat) (ops : List Operation) (op : Operation) :
    run budget (ops ++ [op]) = (run budget ops).after op := List.foldl_concat ..

/-! ## Sizes -/

/-- The sum of the sizes of all objects. -/
def load (s : Store) : Nat := (s.objects.map fun _ found => found.data).weight

/-- The bytes that are counted and belong to no object. -/
def lost (s : Store) : Nat := s.used - s.load

/-- The size of the object under a key, 0 if there is none. -/
def sizeAt (s : Store) (key : Bytes) : Nat := ((s.get? key).map StoredObject.size).getD 0

theorem sizeAt_of_some {s : Store} {key : Bytes} {old : StoredObject} (h : s.get? key = some old) :
    s.sizeAt key = old.size := by
  rw [sizeAt, h]
  rfl

theorem sizeAt_of_none {s : Store} {key : Bytes} (h : s.get? key = none) : s.sizeAt key = 0 := by
  rw [sizeAt, h]
  rfl

/-! ## Another object under one key -/

/-- The store with this object under the key, or with none. -/
def set (s : Store) (key : Bytes) (object? : Option StoredObject) : Store :=
  { s with
    objects := object?.elim (s.objects.erase key) (s.objects.insert key)
    used := s.used - s.sizeAt key + (object?.map StoredObject.size).getD 0 }

section

variable (s : Store) (key : Bytes) (object? : Option StoredObject)

theorem get?_set (k : Bytes) :
    (s.set key object?).get? k = if k = key then object? else s.get? k := by
  cases object? with
  | none => exact Table.get?_erase _ _ _
  | some found => exact Table.get?_insert _ _ _ _

theorem load_set :
    (s.set key object?).load + s.sizeAt key =
      s.load + (object?.map StoredObject.size).getD 0 := by
  have hget : (s.objects.map fun _ => StoredObject.data).get? key =
      (s.get? key).map StoredObject.data := Table.get?_map _ _ _
  unfold load sizeAt set
  cases hk : s.get? key with
  | none =>
    rw [hk] at hget
    cases object? with
    | none => simp [Table.map_erase, Table.erase_of_none hget]
    | some found => simp [Table.map_insert, Table.weight_insert_new hget, StoredObject.size]
  | some old =>
    rw [hk] at hget
    cases object? with
    | none => simpa [Table.map_erase, StoredObject.size] using Table.weight_erase hget
    | some found =>
      simpa [Table.map_insert, StoredObject.size] using Table.weight_insert_over hget found.data

theorem load_set_le {object? : Option StoredObject}
    (h : (object?.map StoredObject.size).getD 0 ≤ s.sizeAt key) :
    (s.set key object?).load ≤ s.load := by
  have hset := s.load_set key object?
  omega

theorem sizeAt_le : s.sizeAt key ≤ s.load := by
  have h := s.load_set key none
  rw [Option.map_none, Option.getD_none] at h
  omega

end

theorem replace_eq {s : Store} {key : Bytes} {old : StoredObject} (h : s.get? key = some old)
    (data : Bytes) : s.replace key old data = s.set key (some { old with data }) := by
  simp [replace, set, sizeAt_of_some h, StoredObject.size]

/-! ## Conditions -/

/-- A condition of an operation, and the error if it does not hold. -/
structure Condition where
  holds : Bool
  error : StoreError
  deriving DecidableEq, Repr

/-- The error of the first of these conditions that does not hold. -/
def firstUnmet? (conditions : List Condition) : Option StoreError :=
  (conditions.find? fun c => !c.holds).map Condition.error

@[simp] theorem firstUnmet?_nil : firstUnmet? [] = none := rfl

@[simp] theorem firstUnmet?_cons (c : Condition) (cs : List Condition) :
    firstUnmet? (c :: cs) = if c.holds then firstUnmet? cs else some c.error := by
  cases h : c.holds <;> simp [firstUnmet?, h]

theorem firstUnmet?_eq_none_iff {conditions : List Condition} :
    firstUnmet? conditions = none ↔ ∀ c ∈ conditions, c.holds = true := by
  simp [firstUnmet?]

section

variable (s : Store) (key : Bytes)

/-- There is no object under the key. -/
@[simp] def absent : Condition := ⟨(s.get? key).isNone, .keyTaken key⟩

/-- There is an object under the key. -/
@[simp] def present : Condition := ⟨(s.get? key).isSome, .noSuchKey key⟩

/-- An object that is there is not committed. -/
@[simp] def uncommitted : Condition := ⟨(s.get? key).all StoredObject.isMutable, .committed key⟩

/-- With this object under the key, or with none, the sizes of all objects are together
    within the budget, with the bytes that are lost. -/
def roomFor (object? : Option StoredObject) : Condition where
  holds := (s.set key object?).load + s.lost ≤ s.budget
  error := .overBudget ((object?.map StoredObject.size).getD 0 - s.sizeAt key) s.used s.budget

/-- So many bytes from the offset on lie within the object under the key. -/
def encloses (offset length : Nat) : Condition where
  holds := offset + length ≤ s.sizeAt key
  error := .outsideObject key offset length (s.sizeAt key)

end

namespace Operation

@[simp] def key : Operation → Bytes
  | createZeros key _ | create key _ | put key _ | erase key | commit key | extend key _
  | write key _ _ => key

/-- What an operation leaves under its key where it found `before`. -/
@[simp] def leaves (before : Option StoredObject) : Operation → Option StoredObject
  | createZeros _ size => some ⟨List.replicate size 0, true⟩
  | create _ data => some ⟨data, true⟩
  | put _ data => some ⟨data, (before.map StoredObject.isMutable).getD true⟩
  | erase _ => none
  | commit _ => before.map fun found => { found with isMutable := false }
  | extend _ delta =>
    before.map fun found => { found with data := found.data ++ List.replicate delta 0 }
  | write _ offset data =>
    before.map fun found => { found with data := found.data.overlay offset data }

variable (s : Store) (op : Operation)

/-- The store that an operation leaves if it is not refused. -/
def result : Store := s.set op.key (op.leaves (s.get? op.key))

/-- The conditions of an operation, in the order in which they are looked at. -/
@[simp] def conditions : List Condition :=
  let room := s.roomFor op.key (op.leaves (s.get? op.key))
  match op with
  | createZeros key _ | create key _ => [s.absent key, room]
  | put key _ => [s.uncommitted key, room]
  | erase key | commit key => [s.present key]
  | extend key _ => [s.present key, s.uncommitted key, room]
  | write key offset data =>
    [s.present key, s.uncommitted key, s.encloses key offset data.length]

/-- Why an operation is refused, if it is. -/
@[simp] def refusal? : Option StoreError := firstUnmet? (op.conditions s)

/-- The length of the new memory that an operation needs for zeros. -/
@[simp] def memory : Operation → Nat
  | createZeros _ size => size
  | extend key delta => s.sizeAt key + delta
  | create .. | put .. | erase _ | commit _ | write .. => 0

/-- The bytes that an operation has counted when it breaks off. -/
@[simp] def counted : Operation → Nat
  | createZeros _ size => size
  | create .. | put .. | erase _ | commit _ | extend .. | write .. => 0

/-- How an operation goes whose conditions hold: there is memory, and it leaves its result, or
    it breaks off. -/
def finish : Except Halt Store :=
  if op.memory s ≤ Bytes.most then .ok (op.result s)
  else .error (.broken { s with used := s.used + op.counted })

/-- How an operation goes. -/
def outcome : Except Halt Store :=
  (op.refusal? s).elim (op.finish s) fun e => .error (.refused e)

variable {s op}

theorem outcome_of_some (e : StoreError) (h : op.refusal? s = some e) :
    op.outcome s = .error (.refused e) := by
  rw [outcome, h]
  rfl

theorem outcome_of_none (h : op.refusal? s = none) : op.outcome s = op.finish s := by
  rw [outcome, h]
  rfl

theorem finish_of_le (h : op.memory s ≤ Bytes.most) : op.finish s = .ok (op.result s) := if_pos h

theorem finish_of_lt (h : Bytes.most < op.memory s) :
    op.finish s = .error (.broken { s with used := s.used + op.counted }) :=
  if_neg (Nat.not_le.2 h)

end Operation

/-! ## Operations by their conditions -/

theorem createZeros_of_some {s : Store} {key : Bytes} {old : StoredObject}
    (h : s.get? key = some old) (size : Nat) :
    s.createZeros key size = .error (.refused (.keyTaken key)) := by
  unfold createZeros
  rw [h]

theorem createZeros_of_none {s : Store} {key : Bytes} (h : s.get? key = none) (size : Nat) :
    s.createZeros key size = ((s.ensureRoom size).mapError .refused).bind fun _ =>
      match Bytes.padded? [] size with
      | some data => .ok
          { s with objects := s.objects.insert key ⟨data, true⟩, used := s.used + size }
      | none => .error (.broken { s with used := s.used + size }) := by
  unfold createZeros
  rw [h]
  rfl

theorem commit_of_none {s : Store} {key : Bytes} (h : s.get? key = none) :
    s.commit key = .error (.noSuchKey key) := by
  unfold Store.commit require
  rw [h]
  rfl

theorem commit_of_some {s : Store} {key : Bytes} {old : StoredObject}
    (h : s.get? key = some old) :
    s.commit key = .ok { s with objects := s.objects.insert key { old with isMutable := false } } := by
  have hmodify := Table.modify_eq_insert h fun old => { old with isMutable := false }
  unfold Store.commit require
  rw [h, ← hmodify]
  rfl

theorem requireMutable_of_none {s : Store} {key : Bytes} (h : s.get? key = none) :
    s.requireMutable key = .error (.noSuchKey key) := by
  unfold requireMutable require
  rw [h]
  rfl

theorem requireMutable_of_some {s : Store} {key : Bytes} {old : StoredObject}
    (h : s.get? key = some old) :
    s.requireMutable key = if old.isMutable then .ok old else .error (.committed key) := by
  unfold requireMutable require
  rw [h]
  rfl

theorem requireMutable_cases (s : Store) (key : Bytes) :
    (∃ e, s.requireMutable key = .error e) ∨
      ∃ old, s.get? key = some old ∧ s.requireMutable key = .ok old := by
  cases hk : s.get? key with
  | none => exact .inl ⟨_, requireMutable_of_none hk⟩
  | some old =>
    rw [requireMutable_of_some hk]
    split
    · exact .inr ⟨old, rfl, rfl⟩
    · exact .inl ⟨_, rfl⟩

theorem extend_of_none {s : Store} {key : Bytes} (h : s.get? key = none) (delta : Nat) :
    s.extend key delta = .error (.refused (.noSuchKey key)) := by
  unfold Store.extend
  rw [requireMutable_of_none h]
  rfl

theorem extend_of_some {s : Store} {key : Bytes} {old : StoredObject} (h : s.get? key = some old)
    (delta : Nat) : s.extend key delta =
      if old.isMutable then
        ((s.ensureRoom delta).mapError .refused).bind fun _ =>
          match old.data.padded? (old.size + delta) with
          | some data => .ok (s.replace key old data)
          | none => .error (.broken s)
      else .error (.refused (.committed key)) := by
  unfold Store.extend
  rw [requireMutable_of_some h]
  cases old.isMutable <;> rfl

/-- All objects are counted, and what is counted is within the budget. -/
structure Accounted (s : Store) : Prop where
  load_le : s.load ≤ s.used
  used_le : s.used ≤ s.budget

namespace Accounted

variable {s : Store} {key : Bytes} {op : Operation} (h : s.Accounted)
include h

theorem used_eq : s.used = s.load + s.lost := (Nat.add_sub_cancel' h.load_le).symm

theorem size_le {old : StoredObject} (hk : s.get? key = some old) : old.size ≤ s.used := by
  rw [← sizeAt_of_some hk]
  exact (s.sizeAt_le key).trans h.load_le

/-- There is room for another object under the key exactly if the bytes by which it is
    larger are free. -/
theorem roomFor_holds_iff {object? : Option StoredObject} : (s.roomFor key object?).holds = true ↔
    (object?.map StoredObject.size).getD 0 - s.sizeAt key ≤ s.budget - s.used := by
  have hset := s.load_set key object?
  have hsize := s.sizeAt_le key
  have hused := h.used_eq
  have hle := h.used_le
  rw [roomFor, decide_eq_true_iff]
  omega

theorem ensureRoom_eq {object? : Option StoredObject} {requested : Nat}
    (hr : requested = (object?.map StoredObject.size).getD 0 - s.sizeAt key) :
    s.ensureRoom requested =
      if (s.roomFor key object?).holds then .ok () else .error (s.roomFor key object?).error := by
  have hiff : s.budget - s.used < requested ↔ ¬ (s.roomFor key object?).holds = true := by
    rw [h.roomFor_holds_iff, hr, Nat.not_le]
  rw [ensureRoom, if_congr hiff rfl rfl, ite_not]
  simp only [roomFor, decide_eq_true_eq, hr]

/-- Zeros are let through behind an object that is not committed if so many bytes are free. -/
theorem refusal?_extend {old : StoredObject} (hk : s.get? key = some old)
    (hm : old.isMutable = true) {delta : Nat} (hroom : delta ≤ s.budget - s.used) :
    (Operation.extend key delta).refusal? s = none := by
  have hholds : (s.roomFor key (some ⟨old.data ++ List.replicate delta 0, true⟩)).holds = true := by
    rw [h.roomFor_holds_iff, sizeAt_of_some hk]
    simpa [StoredObject.size] using hroom
  simp [hk, hm, hholds]

/-- An operation whose other conditions hold goes as there is room for what it leaves. -/
theorem grows (requested : Nat)
    (hc : op.refusal? s = firstUnmet? [s.roomFor op.key (op.leaves (s.get? op.key))])
    (hr : requested =
      ((op.leaves (s.get? op.key)).map StoredObject.size).getD 0 - s.sizeAt op.key) :
    ((s.ensureRoom requested).mapError .refused).bind (fun _ => op.finish s) = op.outcome s := by
  rw [h.ensureRoom_eq hr, Operation.outcome, hc, firstUnmet?_cons]
  split <;> rfl

theorem create_eq (data : Bytes) :
    (s.create key data).mapError .refused = (Operation.create key data).outcome s := by
  cases hk : s.get? key with
  | some old =>
    rw [create_of_some hk, Operation.outcome_of_some (.keyTaken key) (by simp [hk])]
    rfl
  | none =>
    have hsize := sizeAt_of_none hk
    rw [← h.grows data.length (by simp [hk]) (by simp [StoredObject.size, hsize]),
      create_of_none hk, Operation.finish_of_le (Nat.zero_le _), Operation.result]
    simp only [Operation.key, Operation.leaves, set, hsize]
    cases s.ensureRoom data.length <;> rfl

theorem createZeros_eq (size : Nat) :
    s.createZeros key size = (Operation.createZeros key size).outcome s := by
  cases hk : s.get? key with
  | some old =>
    rw [createZeros_of_some hk, Operation.outcome_of_some (.keyTaken key) (by simp [hk])]
  | none =>
    have hsize := sizeAt_of_none hk
    rw [← h.grows size (by simp [hk]) (by simp [StoredObject.size, hsize]),
      createZeros_of_none hk]
    congr 1
    funext _
    have hmemory : (Operation.createZeros key size).memory s = size := rfl
    rcases Nat.lt_or_ge Bytes.most size with hlt | hle
    · rw [Bytes.padded?_of_lt hlt, Operation.finish_of_lt (hmemory ▸ hlt)]
      rfl
    · rw [Bytes.padded?_of_le hle, Operation.finish_of_le (hmemory.trans_le hle),
        Operation.result]
      simp [set, StoredObject.size, hsize, List.rightpad]

theorem put_eq (data : Bytes) :
    ((s.put key data).map Prod.fst).mapError .refused = (Operation.put key data).outcome s := by
  cases hk : s.get? key with
  | none =>
    have hsize := sizeAt_of_none hk
    rw [← h.grows data.length (by simp [hk]) (by simp [StoredObject.size, hsize]),
      put_of_none hk, create_of_none hk, Operation.finish_of_le (Nat.zero_le _), Operation.result]
    simp only [Operation.key, Operation.leaves, hk, set, hsize]
    cases s.ensureRoom data.length <;> rfl
  | some old =>
    have hsize := sizeAt_of_some hk
    cases hm : old.isMutable with
    | false =>
      rw [put_of_committed hk hm, Operation.outcome_of_some (.committed key) (by simp [hk, hm])]
      rfl
    | true =>
      rw [← h.grows (data.length - old.size) (by simp [hk, hm])
        (by simp [StoredObject.size, hsize]), put_of_mutable hk hm,
        Operation.finish_of_le (Nat.zero_le _), Operation.result, replace_eq hk]
      simp only [Operation.key, Operation.leaves, hk, Option.map_some, Option.getD_some]
      cases s.ensureRoom (data.length - old.size) <;> rfl

omit h in
theorem erase_eq (s : Store) (key : Bytes) :
    (s.erase key).mapError .refused = (Operation.erase key).outcome s := by
  cases hk : s.get? key with
  | none =>
    rw [erase_of_none hk, Operation.outcome_of_some (.noSuchKey key) (by simp [hk])]
    rfl
  | some old =>
    rw [erase_of_some hk, Operation.outcome_of_none (by simp [hk]),
      Operation.finish_of_le (Nat.zero_le _)]
    simp [Operation.result, set, sizeAt_of_some hk, Except.mapError]

theorem commit_eq : (s.commit key).mapError .refused = (Operation.commit key).outcome s := by
  cases hk : s.get? key with
  | none =>
    rw [commit_of_none hk, Operation.outcome_of_some (.noSuchKey key) (by simp [hk])]
    rfl
  | some old =>
    have hsame : s.used - old.data.length + old.data.length = s.used :=
      Nat.sub_add_cancel (h.size_le hk)
    rw [commit_of_some hk, Operation.outcome_of_none (by simp [hk]),
      Operation.finish_of_le (Nat.zero_le _)]
    simp [Operation.result, set, sizeAt_of_some hk, hk, StoredObject.size, hsame, Except.mapError]

theorem extend_eq (delta : Nat) :
    s.extend key delta = (Operation.extend key delta).outcome s := by
  cases hk : s.get? key with
  | none => rw [extend_of_none hk, Operation.outcome_of_some (.noSuchKey key) (by simp [hk])]
  | some old =>
    have hsize := sizeAt_of_some hk
    rw [extend_of_some hk]
    cases hm : old.isMutable with
    | false =>
      rw [Operation.outcome_of_some (.committed key) (by simp [hk, hm])]
      rfl
    | true =>
      rw [← h.grows delta (by simp [hk, hm]) (by simp [StoredObject.size, hsize, hk]), if_pos rfl]
      congr 1
      funext _
      have hmemory : (Operation.extend key delta).memory s = old.size + delta := by simp [hsize]
      rcases Nat.lt_or_ge Bytes.most (old.size + delta) with hlt | hle
      · rw [Bytes.padded?_of_lt hlt, Operation.finish_of_lt (hlt.trans_eq hmemory.symm)]
        rfl
      · rw [Bytes.padded?_of_le hle, Operation.finish_of_le (hmemory.trans_le hle),
          Operation.result]
        simp [replace_eq hk, hk, List.rightpad, StoredObject.size]

omit h in
theorem write_eq (s : Store) (key : Bytes) (offset : Nat) (data : Bytes) :
    (s.write key offset data).mapError .refused =
      (Operation.write key offset data).outcome s := by
  unfold Store.write
  cases hk : s.get? key with
  | none =>
    rw [requireMutable_of_none hk, Operation.outcome_of_some (.noSuchKey key) (by simp [hk])]
    rfl
  | some old =>
    have hsize := sizeAt_of_some hk
    rw [requireMutable_of_some hk]
    cases hm : old.isMutable with
    | false =>
      rw [Operation.outcome_of_some (.committed key) (by simp [hk, hm])]
      rfl
    | true =>
      show (if offset + data.length ≤ old.size then _ else _ : Except StoreError Store).mapError
        _ = _
      by_cases hle : offset + data.length ≤ old.size
      · rw [if_pos hle, Operation.outcome_of_none (by simp [hk, hm, encloses, hsize, hle]),
          Operation.finish_of_le (Nat.zero_le _), replace_eq hk, ← Bytes.overlay_eq hle,
          Operation.result]
        simp [hk, Except.mapError]
      · rw [if_neg hle, Operation.outcome_of_some (.outsideObject key offset data.length old.size)
          (by simp [hk, hm, encloses, hsize, hle])]
        rfl

/-- **An operation goes as its conditions, the memory and the object under its key say.** -/
theorem act_eq (op : Operation) : s.act op = op.outcome s := by
  cases op with
  | createZeros key size => exact h.createZeros_eq size
  | create key data => exact h.create_eq data
  | put key data => exact h.put_eq data
  | erase key => exact erase_eq s key
  | commit key => exact h.commit_eq
  | extend key delta => exact h.extend_eq delta
  | write key offset data => exact write_eq s key offset data

/-! ## The account goes on -/

/-- What an operation leaves that is not refused is within the budget: it had to have room
    for that, or the object under its key grows no larger. -/
theorem load_result_le (hr : op.refusal? s = none) :
    (op.result s).load + s.lost ≤ s.budget := by
  have hunmet := firstUnmet?_eq_none_iff.1 hr
  have hbudget : s.load + s.lost ≤ s.budget := h.used_eq ▸ h.used_le
  cases op with
  | createZeros | create | put | extend =>
    exact of_decide_eq_true (hunmet (s.roomFor _ _) (by simp [Operation.conditions]))
  | erase key =>
    exact (Nat.add_le_add_right (s.load_set_le key (Nat.zero_le _)) _).trans hbudget
  | commit key =>
    refine (Nat.add_le_add_right (s.load_set_le key ?_) _).trans hbudget
    cases hk : s.get? key <;> simp [sizeAt, hk, StoredObject.size]
  | write key offset data =>
    refine (Nat.add_le_add_right (s.load_set_le key ?_) _).trans hbudget
    cases hk : s.get? key <;> simp [sizeAt, hk, StoredObject.size, Bytes.overlay]

omit h in
theorem used_result (h : s.Accounted) (op : Operation) :
    (op.result s).used = (op.result s).load + s.lost := by
  have hset := s.load_set op.key (op.leaves (s.get? op.key))
  have hsize := s.sizeAt_le op.key
  have hused := h.used_eq
  show s.used - s.sizeAt op.key + _ = (s.set op.key _).load + s.lost
  omega

/-- An operation that breaks off had room for the zeros that it counted. -/
theorem counted_le (hr : op.refusal? s = none) : s.used + op.counted ≤ s.budget := by
  have hload := h.load_result_le hr
  have hused := h.used_result op
  cases op with
  | createZeros key size =>
    have hunmet := firstUnmet?_eq_none_iff.1 hr
    have habsent := hunmet (s.absent key) (by simp [Operation.conditions])
    have hsize := sizeAt_of_none (Option.isNone_iff_eq_none.1 habsent)
    have hresult : s.used - s.sizeAt key + (List.replicate size (0 : UInt8)).length =
      ((Operation.createZeros key size).result s).used := rfl
    rw [hsize, List.length_replicate] at hresult
    show s.used + size ≤ s.budget
    omega
  | create | put | erase | commit | extend | write => exact h.used_le

end Accounted

namespace Operation

/-- The bytes that are lost in an operation: what it has counted when it breaks off. -/
def loses (s : Store) (op : Operation) : Nat :=
  if op.refusal? s = none ∧ Bytes.most < op.memory s then op.counted else 0

theorem loses_of_some {s : Store} {op : Operation} {e : StoreError}
    (h : op.refusal? s = some e) : op.loses s = 0 :=
  if_neg fun hnone => Option.some_ne_none e (h.symm.trans hnone.1)

theorem loses_of_le {s : Store} {op : Operation} (h : op.memory s ≤ Bytes.most) :
    op.loses s = 0 := if_neg fun hlt => Nat.not_lt.2 h hlt.2

/-- Only zeros that are to be an object of their own are lost. -/
theorem loses_eq_zero_iff {s : Store} {op : Operation} : op.loses s = 0 ↔
    ∀ key size, op = .createZeros key size → op.refusal? s = none → size ≤ Bytes.most := by
  cases op with
  | createZeros key size =>
    unfold loses
    constructor
    · rintro hzero _ _ ⟨⟩ hr
      by_contra hlt
      rw [if_pos ⟨hr, Nat.not_le.1 hlt⟩] at hzero
      exact hlt (hzero.trans_le (Nat.zero_le _))
    · intro hall
      rw [if_neg fun hlt => Nat.not_lt.2 (hall key size rfl hlt.1) hlt.2]
  | create | put | erase | commit | extend | write =>
    refine iff_of_true ?_ (by rintro _ _ ⟨⟩)
    exact ite_self 0

end Operation

namespace Accounted

variable {s : Store} (h : s.Accounted)
include h

theorem after_eq (op : Operation) :
    s.after op = (op.refusal? s).elim (s.leftBy (op.finish s)) fun _ => s := by
  rw [Store.after, h.act_eq, Operation.outcome]
  cases op.refusal? s <;> rfl

theorem after (op : Operation) : (s.after op).Accounted := by
  rw [h.after_eq]
  cases hr : op.refusal? s with
  | some e => exact h
  | none =>
    have hused := h.used_result op
    rcases Nat.lt_or_ge Bytes.most (op.memory s) with hlt | hle
    · show (s.leftBy (op.finish s)).Accounted
      rw [Operation.finish_of_lt hlt]
      exact ⟨Nat.le_add_right_of_le h.load_le, h.counted_le hr⟩
    · show (s.leftBy (op.finish s)).Accounted
      rw [Operation.finish_of_le hle]
      exact ⟨hused ▸ Nat.le_add_right _ _, hused ▸ h.load_result_le hr⟩

theorem lost_after (op : Operation) : (s.after op).lost = s.lost + op.loses s := by
  rw [h.after_eq]
  cases hr : op.refusal? s with
  | some e =>
    rw [Operation.loses_of_some hr]
    rfl
  | none =>
    show (s.leftBy (op.finish s)).lost = _
    rcases Nat.lt_or_ge Bytes.most (op.memory s) with hlt | hle
    · rw [Operation.finish_of_lt hlt, Operation.loses, if_pos ⟨hr, hlt⟩]
      exact Nat.sub_add_comm h.load_le
    · rw [Operation.finish_of_le hle, Operation.loses_of_le hle]
      show (op.result s).used - (op.result s).load = _
      rw [h.used_result, Nat.add_sub_cancel_left]
      rfl

theorem budget_after (op : Operation) : (s.after op).budget = s.budget := by
  rw [h.after_eq]
  cases op.refusal? s with
  | some e => rfl
  | none =>
    show (s.leftBy (op.finish s)).budget = s.budget
    unfold Operation.finish
    split <;> rfl

end Accounted

/-! ## Runs -/

/-- **All objects are counted, within the budget, after any operations.** -/
theorem accounted_run (budget : Nat) (ops : List Operation) : (run budget ops).Accounted := by
  induction ops using List.reverseRecOn with
  | nil => exact ⟨Nat.le_refl _, Nat.zero_le _⟩
  | append_singleton ops op ih =>
    rw [run_concat]
    exact ih.after op

theorem budget_run (budget : Nat) (ops : List Operation) : (run budget ops).budget = budget := by
  induction ops using List.reverseRecOn with
  | nil => rfl
  | append_singleton ops op ih =>
    rw [run_concat]
    exact ((accounted_run budget ops).budget_after op).trans ih

/-- The bytes that are lost in operations, first one first. -/
def lostIn (s : Store) : List Operation → Nat
  | [] => 0
  | op :: ops => op.loses s + (s.after op).lostIn ops

theorem lostIn_concat (s : Store) (ops : List Operation) (op : Operation) :
    s.lostIn (ops ++ [op]) = s.lostIn ops + op.loses (ops.foldl after s) := by
  induction ops generalizing s with
  | nil => exact Nat.add_comm _ _
  | cons op' ops ih => rw [List.cons_append, lostIn, ih, ← Nat.add_assoc]; rfl

/-- What is counted beside the objects was lost in the operations. -/
theorem lost_run (budget : Nat) (ops : List Operation) :
    (run budget ops).lost = (ofBudget budget).lostIn ops := by
  induction ops using List.reverseRecOn with
  | nil => rfl
  | append_singleton ops op ih =>
    rw [run_concat, (accounted_run budget ops).lost_after, ih, lostIn_concat]
    rfl

/-- Nothing is lost exactly if no object of zeros is let through that there is no memory for. -/
theorem lostIn_eq_zero_iff {budget : Nat} {ops : List Operation} :
    (ofBudget budget).lostIn ops = 0 ↔
      ∀ before key size, before ++ [.createZeros key size] <+: ops →
        (Operation.createZeros key size).refusal? (run budget before) = none →
        size ≤ Bytes.most := by
  induction ops using List.reverseRecOn with
  | nil => exact iff_of_true rfl fun before key size hle => by simp at hle
  | append_singleton ops op ih =>
    rw [lostIn_concat, Nat.add_eq_zero_iff, ih, Operation.loses_eq_zero_iff]
    constructor
    · rintro ⟨hbefore, hlast⟩ before key size hle hr
      rcases List.prefix_concat_iff.1 hle with heq | hle
      · obtain ⟨rfl, hop⟩ := List.append_inj' heq rfl
        exact hlast key size (List.cons.inj hop).1.symm ((List.cons.inj hop).1 ▸ hr)
      · exact hbefore before key size hle hr
    · refine fun hall => ⟨fun before key size hle => ?_, ?_⟩
      · exact hall before key size (hle.trans (List.prefix_append ops [op]))
      · rintro key size rfl hr
        exact hall ops key size List.prefix_rfl hr

/-- Whether each of the operations is done or refused, none breaking off. -/
def allEnd (s : Store) : List Operation → Bool
  | [] => true
  | op :: ops =>
    (match s.act op with
      | .error (.broken _) => false
      | _ => true) && (s.after op).allEnd ops

theorem lostIn_of_allEnd {s : Store} (hs : s.Accounted) {ops : List Operation}
    (h : s.allEnd ops = true) : s.lostIn ops = 0 := by
  induction ops generalizing s with
  | nil => rfl
  | cons op ops ih =>
    obtain ⟨hop, hops⟩ := Bool.and_eq_true_iff.1 h
    rw [lostIn, ih (hs.after op) hops, Operation.loses, if_neg]
    rintro ⟨hr, hlt⟩
    rw [hs.act_eq, Operation.outcome_of_none hr, Operation.finish_of_lt hlt] at hop
    cases hop

end Store

end Depot
