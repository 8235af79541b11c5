/-
  Depot — what a report of missing bytes says.

  A payload that ends too early is reported with the length that it needs up to the end of what
  is missing: its header, the length of a field, or a field of the length that is declared.
  `cutFields_cases` and `decode_cases` are all the ways in which fields and payloads are read;
  where bytes are missing they say so of every payload that begins like this one and is still
  too short.  `decode_cutShort` is what follows for a report, and for what comes behind the
  payload that it is about.
-/
import Depot.Proofs.Wire.Access
import Depot.Proofs.Wire.Framing

namespace Depot.Message

/-! ## Fields -/

/-- Fields are cut out, as many as are asked for, or so many bytes are needed and it is said
    of all fewer bytes that begin like these. -/
theorem cutFields_cases {total count start : Nat} {rest : Bytes}
    (htotal : total = start + rest.length) :
    (∃ fields, cutFields total count start rest = .ok fields ∧ fields.length = count) ∨
      ∃ needed, total < needed ∧ ∀ more : Bytes, total + more.length < needed →
        cutFields (total + more.length) count start (rest ++ more) =
          .error (.cutShort needed (total + more.length)) := by
  fun_induction cutFields total count start rest with
  | case1 => exact .inl ⟨[], rfl, rfl⟩
  | case2 start rest => exact .inl ⟨[rest], rfl, rfl⟩
  | case3 count start rest hnone =>
    have hshort := Bytes.le32?_eq_none_iff.1 hnone
    refine .inr ⟨start + 4, by omega, fun more hmore => ?_⟩
    have hnone' : Bytes.le32? (rest ++ more) = none := by
      rw [Bytes.le32?_eq_none_iff, List.length_append]
      omega
    rw [cutFields, hnone']
  | case4 count start rest length hsome stop hshort =>
    refine .inr ⟨stop, hshort, fun more hmore => ?_⟩
    rw [cutFields, Bytes.le32?_append more hsome]
    exact if_pos hmore
  | case5 count start rest length hsome stop body hfits ih =>
    have hbody : rest.length = 4 + body.length := by
      obtain ⟨-, hrest⟩ := Bytes.exists_le32? hsome
      have := congrArg List.length hrest
      rwa [List.length_append, Bytes.length_le32] at this
    obtain ⟨fields, hcut, hlength⟩ | ⟨needed, hneeded, hcut⟩ := ih (by rw [List.length_drop]; omega)
    · exact .inl ⟨body.take length :: fields, by rw [hcut]; rfl, congrArg (· + 1) hlength⟩
    · refine .inr ⟨needed, hneeded, fun more hmore => ?_⟩
      have hlength : length ≤ body.length := by omega
      have hdrop : ((rest ++ more).drop 4).drop length = body.drop length ++ more := by
        rw [List.drop_append_of_le_length (by omega), List.drop_append_of_le_length hlength]
      rw [cutFields, Bytes.le32?_append more hsome]
      simp only
      rw [if_neg (by omega), hdrop, hcut more hmore]
      rfl

/-- As many fields as an opcode has make a message, unless a shard is not four bytes long. -/
theorem ofFields_cases {op : Opcode} {fields : List Bytes} (tag : Tag)
    (h : fields.length = op.layout.length) :
    (∃ m, ofFields op tag fields = .ok m) ∨
      ∃ length, ofFields op tag fields = .error (.badShardField length) := by
  have hshard : ∀ (f : ShardId → Message) (field : Bytes),
      (∃ m, (shardOfField field).map f = .ok m) ∨
        ∃ length, (shardOfField field).map f = .error (.badShardField length) := by
    intro f field
    unfold shardOfField
    split
    · exact .inl ⟨_, rfl⟩
    · exact .inr ⟨_, rfl⟩
  cases op with
  | client verb =>
    cases verb with
    | success | failure | lookup | delete =>
      obtain ⟨field, rfl⟩ := List.length_eq_one_iff.1 h
      exact .inl ⟨_, rfl⟩
    | store =>
      obtain ⟨name, object, rfl⟩ := List.length_eq_two.1 h
      exact .inl ⟨_, rfl⟩
    | peerLookup | peerDelete =>
      obtain ⟨name, shard, rfl⟩ := List.length_eq_two.1 h
      exact hshard _ shard
    | peerStore =>
      obtain ⟨name, object, shard, rfl⟩ := List.length_eq_three.1 h
      exact hshard _ shard
  | peer verb =>
    cases verb with
    | success | failure | lookup | delete =>
      obtain ⟨field, rfl⟩ := List.length_eq_one_iff.1 h
      exact .inl ⟨_, rfl⟩
    | store =>
      obtain ⟨name, object, rfl⟩ := List.length_eq_two.1 h
      exact .inl ⟨_, rfl⟩

/-! ## Payloads -/

/-- A payload is the message of its opcode, has an opcode of no message or a shard that is
    none, or so many bytes are needed and it is said of all fewer bytes that begin like it. -/
theorem decode_cases (h : Hop) (payload : Bytes) :
    (∃ m, decode h payload = .ok m) ∨
    (∃ b, decode h payload = .error (.noSuchOpcode b h)) ∨
    (∃ length, decode h payload = .error (.badShardField length)) ∨
    ∃ needed, payload.length < needed ∧ ∀ more : Bytes, payload.length + more.length < needed →
      decode h (payload ++ more) = .error (.cutShort needed (payload.length + more.length)) := by
  by_cases hshort : payload.length < h.headerLength
  · refine .inr (.inr (.inr ⟨h.headerLength, hshort, fun more hmore => ?_⟩))
    rw [← List.length_append] at hmore ⊢
    exact decode_of_short hmore
  · obtain ⟨b, tag, body, rfl⟩ := exists_header (Nat.le_of_not_lt hshort)
    rw [decode_headerOf_eq]
    cases hop : Opcode.ofWire? h b with
    | none => exact .inr (.inl ⟨b, rfl⟩)
    | some op =>
      rw [Option.elim_some]
      obtain ⟨fields, hcut, hlength⟩ | ⟨needed, hneeded, hcut⟩ :=
        @cutFields_cases (h.headerLength + body.length) op.layout.length h.headerLength body rfl
      · rw [hcut]
        obtain ⟨m, hm⟩ | ⟨length, hbad⟩ := ofFields_cases (if h = .peer then tag else 0) hlength
        · exact .inl ⟨m, hm⟩
        · exact .inr (.inr (.inl ⟨length, hbad⟩))
      · have hpayload : (headerOf b tag h ++ body).length = h.headerLength + body.length := by
          rw [List.length_append, length_headerOf]
        refine .inr (.inr (.inr ⟨needed, by rwa [hpayload], fun more hmore => ?_⟩))
        rw [hpayload] at hmore ⊢
        rw [List.append_assoc, decode_headerOf_eq, hop, Option.elim_some, List.length_append,
          ← Nat.add_assoc, hcut more hmore]
        rfl

theorem needs_of_cutShort {h : Hop} {payload : Bytes} {needed available : Nat}
    (hcut : decode h payload = .error (.cutShort needed available)) :
    (available = payload.length ∧ payload.length < needed) ∧
      ∀ more : Bytes, (payload ++ more).length < needed →
        decode h (payload ++ more) = .error (.cutShort needed (payload ++ more).length) := by
  obtain ⟨m, hm⟩ | ⟨b, hb⟩ | ⟨length, hl⟩ | ⟨needed', hneeded, hmore⟩ := decode_cases h payload
  · rw [hm] at hcut
    cases hcut
  · rw [hb] at hcut
    cases hcut
  · rw [hl] at hcut
    cases hcut
  · have hreport := hmore [] hneeded
    rw [List.append_nil, hcut] at hreport
    cases hreport
    refine ⟨⟨rfl, hneeded⟩, fun more hlt => ?_⟩
    rw [List.length_append] at hlt ⊢
    exact hmore more hlt

/-- **A report of missing bytes gives an exact lower bound.**  What is there is the payload, and
    it is less than what is needed; whatever comes behind it, the report stays as long as that
    is too little, and once it is enough no report asks for so few bytes any more.  Reading
    looks at no byte past the end, and never finds another number of fields than the opcode
    has. -/
theorem decode_cutShort (h : Hop) (payload : Bytes) :
    (∀ needed available, decode h payload = .error (.cutShort needed available) →
      (available = payload.length ∧ payload.length < needed) ∧
      ∀ more : Bytes,
        ((payload ++ more).length < needed →
          decode h (payload ++ more) = .error (.cutShort needed (payload ++ more).length)) ∧
        (needed ≤ (payload ++ more).length → ∀ needed' available',
          decode h (payload ++ more) = .error (.cutShort needed' available') → needed < needed')) ∧
    (payload.length ≤ Bytes.most → (Access.decode h payload).run = some (decode h payload)) ∧
    ∀ op actual, decode h payload ≠ .error (.badFieldCount op actual) := by
  refine ⟨fun needed available hcut => ?_, Access.run_decode h, fun op actual hcount => ?_⟩
  · obtain ⟨hneeded, hmore⟩ := needs_of_cutShort hcut
    refine ⟨hneeded, fun more => ⟨hmore more, fun henough needed' available' hcut' => ?_⟩⟩
    obtain ⟨⟨-, hneeded'⟩, -⟩ := needs_of_cutShort hcut'
    exact henough.trans_lt hneeded'
  · obtain ⟨m, hm⟩ | ⟨b, hb⟩ | ⟨length, hl⟩ | ⟨needed, hneeded, hmore⟩ := decode_cases h payload
    · rw [hm] at hcount
      cases hcount
    · rw [hb] at hcount
      cases hcount
    · rw [hl] at hcount
      cases hcount
    · have hshort := hmore [] hneeded
      rw [List.append_nil, hcount] at hshort
      cases hshort

/-- A store that ends within its name: ten bytes are needed, and once they are there the
    payload is a message or lacks more. -/
theorem decode_cutShort_store :
    let payload : Bytes := [50, 5, 0, 0, 0, 107]
    decode .client payload = .error (.cutShort 10 6) ∧ payload.length < 10 ∧
      (Access.decode .client payload).run = some (.error (.cutShort 10 6)) ∧
      decode .client (payload ++ [101, 121]) = .error (.cutShort 10 8) ∧
      ∀ more : Bytes, 4 ≤ more.length → ∀ needed available,
        decode .client (payload ++ more) = .error (.cutShort needed available) → 10 < needed := by
  intro payload
  have hcut : decode .client payload = .error (.cutShort 10 6) := by decide
  obtain ⟨hreport, haccess, -⟩ := decode_cutShort .client payload
  obtain ⟨⟨-, hshort⟩, hmore⟩ := hreport 10 6 hcut
  refine ⟨hcut, hshort, hcut ▸ haccess (by decide), (hmore [101, 121]).1 (by decide),
    fun more hlength => (hmore more).2 ?_⟩
  rw [List.length_append]
  exact Nat.add_le_add_left hlength 6

end Depot.Message
