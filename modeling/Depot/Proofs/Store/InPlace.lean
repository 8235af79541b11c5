/-
  Depot — the operations of a store, done in place.

  A store that is changed in place computes with words of 64 bits, asks for memory and changes
  one field after the other.  `InPlace` is a computation that does so: a sum or difference that
  is no word ends it without a result, and one that fails or finds no memory leaves the store
  as it is by then.  `Accounted.on_inPlace` says of every operation that, done in place, it
  meets no such sum or difference and ends as the operation does, with the store that this
  leaves.  From it, `run_accounted` is about any operations one after the other, and
  `run_settled` about one operation after them.  Both have their limit where zeros are counted
  that there is no memory for (`run_overcounted`, `act_broken`).
-/
import Depot.Proofs.Store.Operation
import Mathlib

namespace Depot.Store

/-- A computation that changes a store step by step.  It may end without a result; else it
    returns something, fails or breaks off, and leaves the store as it is by then. -/
abbrev InPlace := ExceptT Halt (StateT Store Option)

namespace InPlace

variable {α β : Type}

/-- How a computation on a store ends. -/
def on (s : Store) (x : InPlace α) : Option (Except Halt α × Store) := x.run.run s

/-! ## Words -/

/-- A number, if it is a word of 64 bits. -/
def word? (n : Nat) : Option Nat := if n < UInt64.size then some n else none

/-- The sum of two words, which has to be one. -/
def plus (a b : Nat) : InPlace Nat := ExceptT.lift (StateT.lift (word? (a + b)))

/-- The difference of two words, which has to be one. -/
def minus (a b : Nat) : InPlace Nat :=
  ExceptT.lift (StateT.lift (if b ≤ a then some (a - b) else none))

/-! ## Operations -/

/-- Fail. -/
def refuse (e : StoreError) : InPlace α := throw (.refused e)

/-- The bytes with zeros behind them in new memory of this length. -/
def padded (bytes : Bytes) (length : Nat) : InPlace Bytes := do
  match bytes.padded? length with
  | some data => pure data
  | none => throw (.broken (← get))

/-- Fail unless so many more bytes fit. -/
def reserve (requested : Nat) : InPlace Unit := do
  let s ← get
  let free ← minus s.budget s.used
  if free < requested then refuse (.overBudget requested s.used s.budget)

/-- Fail unless the bytes fit by which the second size is above the first. -/
def reserveGrowth (size size' : Nat) : InPlace Unit := do
  if size < size' then reserve (← minus size' size)

/-- Find the object under a key. -/
def find (key : Bytes) : InPlace StoredObject := do
  match (← get).get? key with
  | some found => pure found
  | none => refuse (.noSuchKey key)

/-- Find an object that is not committed under a key. -/
def findMutable (key : Bytes) : InPlace StoredObject := do
  let found ← find key
  unless found.isMutable do refuse (.committed key)
  pure found

/-- Have an object under a key. -/
def place (key : Bytes) (found : StoredObject) : InPlace Unit :=
  modify fun s => { s with objects := s.objects.insert key found }

/-- Have no object under a key. -/
def clear (key : Bytes) : InPlace Unit :=
  modify fun s => { s with objects := s.objects.erase key }

/-- Count so many bytes as used. -/
def count (used : Nat) : InPlace Unit := modify fun s => { s with used }

/-- Add an object of this size under a key that has none.  It is counted, and then made. -/
def add (key : Bytes) (size : Nat) (make : InPlace Bytes) : InPlace Unit := do
  if ((← get).get? key).isSome then refuse (.keyTaken key)
  reserve size
  count (← plus (← get).used size)
  place key ⟨← make, true⟩

/-- Have other bytes in the object under a key, which is of this size. -/
def exchange (key : Bytes) (size : Nat) (data : Bytes) : InPlace Unit := do
  count (← plus (← minus (← get).used size) data.length)
  place key { ← find key with data }

/-- Put an object under a key.  Returns whether one was replaced. -/
def put (key data : Bytes) : InPlace Bool := do
  match (← get).get? key with
  | none =>
    add key data.length (pure data)
    pure false
  | some old =>
    unless old.isMutable do refuse (.committed key)
    reserveGrowth old.size data.length
    exchange key old.size data
    pure true

def erase (key : Bytes) : InPlace Unit := do
  let old ← find key
  clear key
  count (← minus (← get).used old.size)

def commit (key : Bytes) : InPlace Unit := do
  place key { ← find key with isMutable := false }

def extend (key : Bytes) (delta : Nat) : InPlace Unit := do
  let _ ← findMutable key
  reserve delta
  let old ← find key
  let data ← padded old.data (← plus old.size delta)
  place key { old with data }
  count (← plus (← get).used delta)

def write (key : Bytes) (offset : Nat) (data : Bytes) : InPlace Unit := do
  let old ← findMutable key
  match (word? (offset + data.length)).filter fun stop => stop ≤ old.size with
  | none => refuse (.outsideObject key offset data.length old.size)
  | some stop => place key { old with data := old.data.take offset ++ data ++ old.data.drop stop }

end InPlace

/-- The operation, done in place. -/
def Operation.inPlace : Operation → InPlace Unit
  | createZeros key size => InPlace.add key size (InPlace.padded [] size)
  | create key data => InPlace.add key data.length (pure data)
  | put key data => do let _ ← InPlace.put key data
  | erase key => InPlace.erase key
  | commit key => InPlace.commit key
  | extend key delta => InPlace.extend key delta
  | write key offset data => InPlace.write key offset data

/-- A new store after operations that are done in place, first one first, unless one of them
    has no result. -/
def runInPlace? (budget : Nat) (ops : List Operation) : Option Store :=
  ops.foldlM (fun s op => (op.inPlace.on s).map Prod.snd) (ofBudget budget)

namespace InPlace

/-! ## Steps -/

section

variable {α β : Type} (s : Store)

@[simp] theorem on_get : (get : InPlace Store).on s = some (.ok s, s) := rfl

@[simp] theorem on_place (key : Bytes) (found : StoredObject) :
    (place key found).on s = some (.ok (), { s with objects := s.objects.insert key found }) := rfl

@[simp] theorem on_clear (key : Bytes) :
    (clear key).on s = some (.ok (), { s with objects := s.objects.erase key }) := rfl

@[simp] theorem on_count (used : Nat) : (count used).on s = some (.ok (), { s with used }) := rfl

@[simp] theorem on_bind (x : InPlace α) (f : α → InPlace β) :
    (x >>= f).on s = match x.on s with
      | some (.ok a, s') => (f a).on s'
      | some (.error e, s') => some (.error e, s')
      | none => none := by
  unfold on
  rw [ExceptT.run_bind, StateT.run_bind]
  cases x.run.run s with
  | none => rfl
  | some out =>
    obtain ⟨result, s'⟩ := out
    cases result <;> rfl

end

variable {s : Store} {key data : Bytes}

theorem on_plus {a b : Nat} (h : a + b < UInt64.size) :
    (plus a b).on s = some (.ok (a + b), s) := by
  rw [plus, word?, if_pos h]
  rfl

theorem on_minus {a b : Nat} (h : b ≤ a) : (minus a b).on s = some (.ok (a - b), s) := by
  rw [minus, if_pos h]
  rfl

theorem on_padded (bytes : Bytes) (length : Nat) :
    (padded bytes length).on s = some
      ((bytes.padded? length).elim (.error (.broken s)) .ok, s) := by
  unfold padded
  cases bytes.padded? length <;> rfl

theorem on_reserve (h : s.used ≤ s.budget) (requested : Nat) :
    (reserve requested).on s = some ((s.ensureRoom requested).mapError .refused, s) := by
  unfold reserve ensureRoom
  simp only [on_bind, on_get, on_minus h]
  split <;> rfl

theorem on_reserveGrowth (h : s.used ≤ s.budget) (size size' : Nat) :
    (reserveGrowth size size').on s =
      some ((s.ensureRoom (size' - size)).mapError .refused, s) := by
  unfold reserveGrowth
  split
  · rename_i hlt
    simp only [on_bind, on_minus hlt.le, on_reserve h]
  · rename_i hlt
    rw [ensureRoom_eq_ok_iff.2 (show size' - size ≤ s.budget - s.used by omega)]
    rfl

@[simp] theorem on_find : (find key).on s = some ((s.require key).mapError .refused, s) := by
  unfold find require
  simp only [on_bind, on_get]
  cases s.get? key <;> rfl

@[simp] theorem on_findMutable :
    (findMutable key).on s = some ((s.requireMutable key).mapError .refused, s) := by
  unfold findMutable
  simp only [on_bind, on_find]
  cases hk : s.get? key with
  | none =>
    rw [requireMutable_of_none hk, require, hk]
    rfl
  | some found =>
    rw [requireMutable_of_some hk, require, hk]
    simp only [Except.mapError]
    cases found.isMutable <;> rfl

end InPlace

/-! ## Operations -/

namespace Accounted

variable {s : Store} {key data : Bytes} (h : s.Accounted) (hword : s.budget < UInt64.size)

/-- How an operation in place ends. -/
def settled (s : Store) (result : Except Halt Store) : Except Halt Unit × Store :=
  (result.map fun _ => (), s.leftBy result)

include h hword in
/-- An object is counted before it is made. -/
theorem on_add (size : Nat) (make : InPlace Bytes) :
    (InPlace.add key size make).on s =
      if (s.get? key).isSome then some (.error (.refused (.keyTaken key)), s)
      else match s.ensureRoom size with
        | .error e => some (.error (.refused e), s)
        | .ok _ => (do InPlace.place key ⟨← make, true⟩ : InPlace Unit).on
            { s with used := s.used + size } := by
  unfold InPlace.add
  simp only [InPlace.on_bind, InPlace.on_get]
  cases hk : s.get? key with
  | some old => rfl
  | none =>
    have hused := h.used_le
    simp only [Option.isSome_none, Bool.false_eq_true, if_false, InPlace.on_bind,
      InPlace.on_reserve hused]
    cases hr : s.ensureRoom size with
    | error e => rfl
    | ok u =>
      have hfree := ensureRoom_eq_ok_iff.1 hr
      have hsum : s.used + size < UInt64.size := by omega
      simp only [Except.mapError, InPlace.on_get, InPlace.on_plus hsum, InPlace.on_count]

include h hword in
theorem on_create (data : Bytes) :
    (InPlace.add key data.length (pure data)).on s =
      some (settled s ((s.create key data).mapError .refused)) := by
  rw [h.on_add hword]
  cases hk : s.get? key with
  | some old =>
    rw [create_of_some hk]
    rfl
  | none =>
    rw [create_of_none hk]
    cases s.ensureRoom data.length <;> rfl

include h hword in
theorem on_createZeros (size : Nat) :
    (InPlace.add key size (InPlace.padded [] size)).on s =
      some (settled s (s.createZeros key size)) := by
  rw [h.on_add hword]
  cases hk : s.get? key with
  | some old =>
    rw [createZeros_of_some hk]
    rfl
  | none =>
    rw [createZeros_of_none hk]
    simp only [InPlace.on_bind, InPlace.on_padded]
    cases s.ensureRoom size with
    | error e => rfl
    | ok u => cases Bytes.padded? [] size <;> rfl

omit hword in
include h in
theorem on_exchange {old : StoredObject} (hk : s.get? key = some old)
    (hsum : s.used - old.size + data.length < UInt64.size) :
    (InPlace.exchange key old.size data).on s = some (.ok (), s.replace key old data) := by
  have hfind : { s with used := s.used - old.size + data.length }.require key = .ok old := by
    show s.require key = .ok old
    rw [require, hk]
  simp only [InPlace.exchange, InPlace.on_bind, InPlace.on_get, InPlace.on_minus (h.size_le hk),
    InPlace.on_plus hsum, InPlace.on_count, InPlace.on_find, hfind, Except.mapError,
    InPlace.on_place]
  rfl

include h hword in
theorem on_put (data : Bytes) :
    (InPlace.put key data).on s =
      some (((s.put key data).map Prod.snd).mapError .refused,
        s.orBefore ((s.put key data).map Prod.fst)) := by
  unfold InPlace.put
  simp only [InPlace.on_bind, InPlace.on_get]
  cases hk : s.get? key with
  | none =>
    simp only [InPlace.on_bind, h.on_create hword]
    rw [put_of_none hk]
    cases s.create key data <;> rfl
  | some old =>
    cases hm : old.isMutable with
    | false =>
      rw [put_of_committed hk hm]
      simp only [hm]
      rfl
    | true =>
      have hused := h.used_le
      rw [put_of_mutable hk hm]
      simp only [hm, if_true, InPlace.on_bind, InPlace.on_reserveGrowth hused]
      cases hr : s.ensureRoom (data.length - old.size) with
      | error e => rfl
      | ok u =>
        have hsize := h.size_le hk
        have hfree := ensureRoom_eq_ok_iff.1 hr
        have hsum : s.used - old.size + data.length < UInt64.size := by omega
        simp only [Except.mapError, h.on_exchange hk hsum]
        rfl

include h in
theorem on_erase :
    (InPlace.erase key).on s = some (settled s ((s.erase key).mapError .refused)) := by
  unfold InPlace.erase
  simp only [InPlace.on_bind, InPlace.on_find]
  cases hk : s.get? key with
  | none =>
    rw [erase_of_none hk, require, hk]
    rfl
  | some old =>
    rw [erase_of_some hk, require, hk]
    simp only [Except.mapError, InPlace.on_clear, InPlace.on_get,
      InPlace.on_minus (h.size_le hk), InPlace.on_count]
    rfl

theorem on_commit :
    (InPlace.commit key).on s = some (settled s ((s.commit key).mapError .refused)) := by
  unfold InPlace.commit
  simp only [InPlace.on_bind, InPlace.on_find]
  cases hk : s.get? key with
  | none =>
    rw [commit_of_none hk, require, hk]
    rfl
  | some old =>
    rw [commit_of_some hk, require, hk]
    rfl

omit hword in
include h in
/-- An object that becomes larger by so many bytes counts so many more. -/
theorem replace_eq (delta : Nat) {old : StoredObject} (hk : s.get? key = some old) {data : Bytes}
    (hlength : data.length = old.size + delta) :
    s.replace key old data =
      { s with objects := s.objects.insert key { old with data }, used := s.used + delta } := by
  have hsize := h.size_le hk
  have hused : s.used - old.size + data.length = s.used + delta := by omega
  rw [replace, hused]

include h hword in
theorem on_extend (delta : Nat) :
    (InPlace.extend key delta).on s = some (settled s (s.extend key delta)) := by
  unfold InPlace.extend
  simp only [InPlace.on_bind, InPlace.on_findMutable]
  cases hk : s.get? key with
  | none =>
    rw [extend_of_none hk, requireMutable_of_none hk]
    rfl
  | some old =>
    rw [extend_of_some hk, requireMutable_of_some hk]
    cases hm : old.isMutable with
    | false => rfl
    | true =>
      have hused := h.used_le
      simp only [if_true, Except.mapError, InPlace.on_reserve hused]
      cases hr : s.ensureRoom delta with
      | error e => rfl
      | ok u =>
        have hsize := h.size_le hk
        have hfree := ensureRoom_eq_ok_iff.1 hr
        have hobject : old.size + delta < UInt64.size := by omega
        have hsum : s.used + delta < UInt64.size := by omega
        have hfind : s.require key = .ok old := by rw [require, hk]
        simp only [Except.mapError, InPlace.on_find, hfind, InPlace.on_plus hobject,
          InPlace.on_padded]
        cases hdata : old.data.padded? (old.size + delta) with
        | none => rfl
        | some data =>
          have hlength : data.length = old.size + delta :=
            Bytes.length_of_padded? (Nat.le_add_right _ _) hdata
          simp only [Option.elim, InPlace.on_place, InPlace.on_get, InPlace.on_plus hsum,
            InPlace.on_count]
          exact congrArg some (Prod.ext rfl (h.replace_eq delta hk hlength).symm)

include h hword in
theorem on_write (offset : Nat) (data : Bytes) :
    (InPlace.write key offset data).on s =
      some (settled s ((s.write key offset data).mapError .refused)) := by
  unfold InPlace.write Store.write
  simp only [InPlace.on_bind, InPlace.on_findMutable]
  obtain ⟨e, he⟩ | ⟨old, hk, hold⟩ := s.requireMutable_cases key
  · rw [he]
    rfl
  · have hused := h.used_le
    have hsize := h.size_le hk
    rw [hold]
    show _ = some (settled s ((if offset + data.length ≤ old.size then _ else _ :
      Except StoreError Store).mapError _))
    by_cases hle : offset + data.length ≤ old.size
    · have hstop : (InPlace.word? (offset + data.length)).filter (fun stop => stop ≤ old.size) =
          some (offset + data.length) := by
        rw [InPlace.word?, if_pos (by omega)]
        simp [hle]
      rw [if_pos hle]
      simp only [Except.mapError, hstop, InPlace.on_place]
      refine congrArg some (Prod.ext rfl (h.replace_eq 0 hk ?_).symm)
      simp only [List.length_append, List.length_take, List.length_drop, StoredObject.size]
      unfold StoredObject.size at hle
      omega
    · have hstop : (InPlace.word? (offset + data.length)).filter (fun stop => stop ≤ old.size) =
          none := by
        rw [InPlace.word?]
        split <;> simp [not_le.1 hle]
      rw [if_neg hle]
      simp only [Except.mapError, hstop]
      rfl

include h hword in
/-- **An operation in place meets no sum or difference that is no word, ends as the operation
    does, and leaves what this leaves.** -/
theorem on_inPlace (op : Operation) : op.inPlace.on s = some (settled s (s.act op)) := by
  cases op with
  | createZeros key size => exact h.on_createZeros hword size
  | create key data => exact h.on_create hword data
  | put key data =>
    unfold Operation.inPlace
    simp only [InPlace.on_bind, h.on_put hword]
    show _ = some (settled s (((s.put key data).map Prod.fst).mapError .refused))
    cases s.put key data <;> rfl
  | erase key => exact h.on_erase
  | commit key => exact on_commit
  | extend key delta => exact h.on_extend hword delta
  | write key offset data => exact h.on_write hword offset data

end Accounted

/-! ## Runs -/

/-- Operations done in place leave what the operations leave. -/
theorem runInPlace?_eq {budget : Nat} (hword : budget < UInt64.size) (ops : List Operation) :
    runInPlace? budget ops = some (run budget ops) := by
  induction ops using List.reverseRecOn with
  | nil => rfl
  | append_singleton ops op ih =>
    have h := accounted_run budget ops
    have hop := h.on_inPlace ((budget_run budget ops).trans_lt hword) op
    rw [runInPlace?] at ih ⊢
    rw [List.foldlM_append, ih, run_concat]
    show ((op.inPlace.on (run budget ops)).map Prod.snd) >>= pure = _
    rw [hop]
    rfl

/-- **After any operations, however they ended, what is counted is the sum of the sizes of all
    objects and what was lost, and is within the budget.**  Done in place in words of 64 bits,
    the operations meet no sum or difference that is no word, and leave the same store.  So the
    account is exact if and only if no object of zeros was let through that there is no memory
    for. -/
theorem run_accounted (budget : UInt64) (ops : List Operation) :
    let s := run budget.toNat ops
    s.used = s.load + (ofBudget budget.toNat).lostIn ops ∧ s.used ≤ budget.toNat ∧
      runInPlace? budget.toNat ops = some s ∧
      (s.used = s.load ↔ ∀ before key size, before ++ [.createZeros key size] <+: ops →
        firstUnmet? ((Operation.createZeros key size).conditions (run budget.toNat before)) =
          none → size ≤ Bytes.most) := by
  intro s
  have h : s.Accounted := accounted_run budget.toNat ops
  have hused : s.used = s.load + (ofBudget budget.toNat).lostIn ops := by
    rw [← lost_run]
    exact h.used_eq
  refine ⟨hused, h.used_le.trans_eq (budget_run _ ops), runInPlace?_eq budget.toNat_lt ops, ?_⟩
  refine Iff.trans ?_ lostIn_eq_zero_iff
  omega

/-- An object of zeros is counted that is nowhere: so many bytes are in the budget, but not in
    one piece of memory. -/
theorem run_overcounted :
    let s := run 18446744073709551615 [.createZeros [107] 9223372036854775808]
    s.used = 9223372036854775808 ∧ s.load = 0 ∧ s.size = 0 := ⟨rfl, rfl, rfl⟩

/-- **An operation on a store that operations led to, none of which broke off, is refused with
    the first of its conditions that does not hold, and then, done in place, leaves the store
    as it was.**  If all hold and there is the memory that it needs, it leaves under its key
    what it is to leave, all other objects as they were, and the sum of the sizes of all objects
    counted.  If there is not, it breaks off and changes no object. -/
theorem run_settled (budget : UInt64) (ops : List Operation) (op : Operation)
    (hend : (ofBudget budget.toNat).allEnd ops = true) :
    let s := run budget.toNat ops
    s.lost = 0 ∧
    (∀ e, firstUnmet? (op.conditions s) = some e →
      s.act op = .error (.refused e) ∧ op.inPlace.on s = some (.error (.refused e), s)) ∧
    (firstUnmet? (op.conditions s) = none →
      (op.memory s ≤ Bytes.most →
        ∃ s', s.act op = .ok s' ∧ op.inPlace.on s = some (.ok (), s') ∧
          (∀ k, s'.get? k = if k = op.key then op.leaves (s.get? op.key) else s.get? k) ∧
          s'.used = s'.load ∧ s'.budget = s.budget) ∧
      (Bytes.most < op.memory s →
        ∃ s', s.act op = .error (.broken s') ∧
          op.inPlace.on s = some (.error (.broken s'), s') ∧
          (∀ k, s'.get? k = s.get? k) ∧ s'.budget = s.budget)) := by
  intro s
  have h : s.Accounted := accounted_run budget.toNat ops
  have hword : s.budget < UInt64.size := (budget_run _ ops).trans_lt budget.toNat_lt
  have hlost : s.lost = 0 := (lost_run _ ops).trans (lostIn_of_allEnd (accounted_run _ []) hend)
  have hplace := h.on_inPlace hword op
  have hact := h.act_eq op
  refine ⟨hlost, fun e he => ?_, fun hnone => ⟨fun hle => ?_, fun hlt => ?_⟩⟩
  · rw [Operation.outcome_of_some e he] at hact
    rw [hact] at hplace
    exact ⟨hact, hplace⟩
  · rw [Operation.outcome_of_none hnone, Operation.finish_of_le hle] at hact
    rw [hact] at hplace
    have hused := h.used_result op
    rw [hlost, Nat.add_zero] at hused
    exact ⟨op.result s, hact, hplace, s.get?_set _ _, hused, rfl⟩
  · rw [Operation.outcome_of_none hnone, Operation.finish_of_lt hlt] at hact
    rw [hact] at hplace
    exact ⟨_, hact, hplace, fun _ => rfl, rfl⟩

/-- Of ten bytes an object has five: five zeros more are made, and six are refused. -/
theorem run_settled_zeros :
    let ops : List Operation := [.create [1] [7, 7, 7], .extend [1] 2]
    let s := run 10 ops
    (ofBudget 10).allEnd ops = true ∧
      (∃ s', s.act (.createZeros [2] 5) = .ok s' ∧
        s'.get? [2] = some ⟨[0, 0, 0, 0, 0], true⟩ ∧ s'.used = s'.load) ∧
      s.act (.createZeros [2] 6) = .error (.refused (.overBudget 6 5 10)) := by
  intro ops s
  have hend : (ofBudget 10).allEnd ops = true := rfl
  obtain ⟨-, -, hfive⟩ := run_settled 10 ops (.createZeros [2] 5) hend
  obtain ⟨s', hact, -, hget, hused, -⟩ := (hfive rfl).1 (by decide)
  obtain ⟨-, hsix, -⟩ := run_settled 10 ops (.createZeros [2] 6) hend
  exact ⟨hend, ⟨s', hact, hget [2], hused⟩, (hsix _ rfl).1⟩

/-- The conditions of an operation hold, so many bytes being in the budget; yet it is not done. -/
theorem act_broken :
    let s := run 18446744073709551615 [.create [107] [97, 98, 99]]
    let op : Operation := .extend [107] 9223372036854775807
    firstUnmet? (op.conditions s) = none ∧ s.act op = .error (.broken s) := by
  intro s op
  have hroom : 9223372036854775807 ≤ s.budget - s.used := by decide
  exact ⟨(accounted_run _ _).refusal?_extend rfl rfl hroom, rfl⟩

end Depot.Store
