/-
  Depot — payloads read by position.

  A payload that lies in memory is read byte by byte and slice by slice, at positions that are
  words of 64 bits.  `Access` is a computation that does so: a position past the end of the
  bytes, or a sum that is no word, ends it without a result.  `run_decode` says that a payload
  is decoded in this way as `Message.decode` decodes it, so none of that happens, whatever
  lengths the payload declares.
-/
import Depot.Proofs.Wire.Codec

namespace Depot

/-- A computation that reads bytes by position.  It may end without a result; else it returns
    something or fails. -/
abbrev Access := ExceptT WireError Option

namespace Access

variable {α β : Type}

/-- The byte at a position. -/
def byte (bytes : Bytes) (index : Nat) : Access UInt8 := ExceptT.lift bytes[index]?

/-- The word of four bytes at a position. -/
def word (bytes : Bytes) (index : Nat) : Access Nat := do
  let a ← byte bytes index
  let b ← byte bytes (index + 1)
  let c ← byte bytes (index + 2)
  let d ← byte bytes (index + 3)
  return Bytes.ofLe [a, b, c, d]

/-- The bytes from one position up to another. -/
def slice (bytes : Bytes) (start stop : Nat) : Access Bytes :=
  ExceptT.lift
    (if start ≤ stop ∧ stop ≤ bytes.length then some ((bytes.take stop).drop start) else none)

/-- The sum of two words of 64 bits, which has to be one. -/
def plus (a b : Nat) : Access Nat :=
  ExceptT.lift (if a + b < UInt64.size then some (a + b) else none)

/-- The sum of two words of 64 bits, or a failure if it is none. -/
def plusOr (e : WireError) (a b : Nat) : Access Nat :=
  if a + b < UInt64.size then return a + b else throw e

/-- The fields of a payload from a position on.  The last one runs to the end. -/
def fields (payload : Bytes) : (count index : Nat) → Access (List Bytes)
  | 0, _ => return []
  | 1, index => return [← slice payload index payload.length]
  | count + 2, index => do
    let start ← plus index 4
    if payload.length < start then throw (.cutShort start payload.length)
    let length ← word payload index
    let stop ← plusOr (.cutShort (UInt64.size - 1) payload.length) start length
    if payload.length < stop then throw (.cutShort stop payload.length)
    let field ← slice payload start stop
    return field :: (← fields payload (count + 1) stop)

/-- The tag of a payload; there is none on client hops. -/
def tag (payload : Bytes) : Hop → Access Nat
  | .client => return 0
  | .peer => word payload 1

/-- The message in a payload on a hop. -/
def decode (h : Hop) (payload : Bytes) : Access Message := do
  if payload.length < h.headerLength then throw (.cutShort h.headerLength payload.length)
  else
    let b ← byte payload 0
    match Opcode.ofWire? h b with
    | none => throw (.noSuchOpcode b h)
    | some op =>
      let tag ← tag payload h
      let fields ← fields payload op.layout.length h.headerLength
      Message.ofFields op (UInt32.ofNat tag) fields

/-! ## Steps -/

@[simp] theorem run_return (a : α) : (pure a : Access α).run = some (.ok a) := rfl

@[simp] theorem run_fail (e : WireError) : (throw e : Access α).run = some (.error e) := rfl

@[simp] theorem run_then (x : Access α) (f : α → Access β) :
    (x >>= f).run = x.run.bind fun
      | .ok a => (f a).run
      | .error e => some (.error e) := by
  rw [ExceptT.run_bind]
  cases x.run with
  | none => rfl
  | some result => cases result <;> rfl

@[simp] theorem run_lift (x : Except WireError α) : (liftM x : Access α).run = some x := rfl

theorem run_byte {bytes : Bytes} {index : Nat} {b : UInt8} (h : bytes[index]? = some b) :
    (byte bytes index).run = some (.ok b) := by
  rw [byte, h]
  rfl

/-- A word is read where four bytes are left. -/
theorem run_word {bytes : Bytes} {index n : Nat} (h : Bytes.le32? (bytes.drop index) = some n) :
    (word bytes index).run = some (.ok n) := by
  obtain ⟨a, b, c, d, rest, hdrop, rfl⟩ : ∃ a b c d rest,
      bytes.drop index = a :: b :: c :: d :: rest ∧ Bytes.ofLe [a, b, c, d] = n := by
    unfold Bytes.le32? at h
    split at h
    · exact ⟨_, _, _, _, _, ‹_›, Option.some.inj h⟩
    · cases h
  have hbyte (i : Nat) : bytes[index + i]? = (a :: b :: c :: d :: rest)[i]? := by
    rw [← hdrop, List.getElem?_drop]
  have hfirst : bytes[index]? = some a := hbyte 0
  simp only [word, run_then, run_byte hfirst, run_byte (hbyte 1), run_byte (hbyte 2),
    run_byte (hbyte 3), Option.bind_some, run_return]

theorem run_slice {bytes : Bytes} {start stop : Nat} (h : start ≤ stop)
    (hle : stop ≤ bytes.length) :
    (slice bytes start stop).run = some (.ok ((bytes.take stop).drop start)) := by
  rw [slice, if_pos ⟨h, hle⟩]
  rfl

theorem run_plus {a b : Nat} (h : a + b < UInt64.size) : (plus a b).run = some (.ok (a + b)) := by
  rw [plus, if_pos h]
  rfl

theorem run_plusOr {a b : Nat} (e : WireError) (h : a + b < UInt64.size) :
    (plusOr e a b).run = some (.ok (a + b)) := by
  rw [plusOr, if_pos h]
  rfl

/-! ## Payloads -/

/-- Fields are cut out by position as they are cut off the bytes that are left. -/
theorem run_fields {payload : Bytes} (hmost : payload.length ≤ Bytes.most) (count : Nat)
    {index : Nat} (hindex : index ≤ payload.length) :
    (fields payload count index).run =
      some (Message.cutFields payload.length count index (payload.drop index)) := by
  fun_induction fields payload count index with
  | case1 => rfl
  | case2 index =>
    simp only [run_then, run_slice hindex le_rfl, List.take_length, Option.bind_some, run_return]
    rfl
  | case3 count index ih =>
    have hmosts : Bytes.most + UInt32.size < UInt64.size := by decide
    have hstart : index + 4 < UInt64.size := by
      have : 4 ≤ UInt32.size := by decide
      omega
    rw [Message.cutFields]
    simp only [run_then, run_plus hstart, Option.bind_some]
    cases hword : Bytes.le32? (payload.drop index) with
    | none =>
      have hshort : payload.length < index + 4 := by
        have := Bytes.le32?_eq_none_iff.1 hword
        rw [List.length_drop] at this
        omega
      rw [if_pos hshort]
      rfl
    | some length =>
      obtain ⟨hlength, -⟩ := Bytes.exists_le32? hword
      have hlong : ¬ payload.length < index + 4 := by
        have : ¬ (payload.drop index).length < 4 := fun hlt => by
          rw [Bytes.le32?_eq_none_iff.2 hlt] at hword
          cases hword
        rw [List.length_drop] at this
        omega
      have hstop : index + 4 + length < UInt64.size := by omega
      simp only [if_neg hlong, run_then, run_word hword, Option.bind_some, run_plusOr _ hstop]
      split
      · rfl
      · rename_i hfits
        have hfield : (payload.take (index + 4 + length)).drop (index + 4) =
            ((payload.drop index).drop 4).take length := by
          rw [List.drop_take, List.drop_drop, Nat.add_sub_cancel_left]
        have hrest : ((payload.drop index).drop 4).drop length =
            payload.drop (index + 4 + length) := by
          rw [List.drop_drop, List.drop_drop, ← Nat.add_assoc]
        rw [run_then, run_slice (Nat.le_add_right _ _) (Nat.le_of_not_lt hfits), hfield, hrest]
        simp only [Option.bind_some, run_then, ih _ (Nat.le_of_not_lt hfits), run_return]
        cases Message.cutFields payload.length (count + 1) (index + 4 + length)
          (payload.drop (index + 4 + length)) <;> rfl

/-- **Decoding looks at no byte past the end of a payload**, and at no position that is not a
    word: by position, a payload decodes as it does. -/
theorem run_decode {payload : Bytes} (h : Hop) (hmost : payload.length ≤ Bytes.most) :
    (decode h payload).run = some (Message.decode h payload) := by
  by_cases hshort : payload.length < h.headerLength
  · rw [decode, if_pos hshort, Message.decode_of_short hshort]
    rfl
  · have hheader := Nat.le_of_not_lt hshort
    have hfields := fun count => run_fields hmost count hheader
    obtain ⟨b, t, body, rfl⟩ := Message.exists_header hheader
    have hbyte : (byte (Message.headerOf b t h ++ body) 0).run = some (.ok b) := by
      cases h <;> rfl
    have htag : (tag (Message.headerOf b t h ++ body) h).run =
        some (.ok (if h = .peer then t.toNat else 0)) := by
      cases h with
      | client => rfl
      | peer =>
        refine run_word ((Bytes.le32?_le32_append t.toNat body).trans ?_)
        rw [Nat.mod_eq_of_lt t.toNat_lt]
        rfl
    have hdrop : (Message.headerOf b t h ++ body).drop h.headerLength = body := by
      rw [← Message.length_headerOf b t h, List.drop_left]
    have hlength : (Message.headerOf b t h ++ body).length = h.headerLength + body.length := by
      rw [List.length_append, Message.length_headerOf]
    rw [decode, if_neg hshort, Message.decode_headerOf_eq, ← hlength]
    simp only [run_then, hbyte, Option.bind_some]
    cases Opcode.ofWire? h b with
    | none => rfl
    | some op =>
      simp only [run_then, htag, hfields, hdrop, Option.bind_some, Option.elim_some]
      cases Message.cutFields (Message.headerOf b t h ++ body).length op.layout.length
        h.headerLength body with
      | error e => rfl
      | ok fields =>
        cases h <;> simp [Except.bind, UInt32.ofNat_toNat]

end Access

end Depot
