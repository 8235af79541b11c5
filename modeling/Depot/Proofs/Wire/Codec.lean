/-
  Depot — payloads and messages are one to one.

  A payload is a header and then the fields, of which every one but the last has
  its length in front.  `cutFields_eq_ok_iff` says that fields are cut out exactly
  as they were joined, and `decode_eq_ok_iff` that a payload decodes to a message
  on a hop exactly if it is the encoding of that message and the hop is its own.
  So no byte of a payload is passed over, and none is made up.
-/
import Depot.Wire.Codec
import Mathlib

namespace Depot

/-! ## Words and shards -/

theorem Bytes.exists_le32? {n : Nat} {bs : Bytes} (h : Bytes.le32? bs = some n) :
    n < UInt32.size ∧ bs = Bytes.le32 n ++ bs.drop 4 := by
  obtain ⟨a, b, c, d, rest, rfl⟩ : ∃ a b c d rest, bs = a :: b :: c :: d :: rest := by
    have hlen : ¬ bs.length < 4 := fun hlt => by
      rw [Bytes.le32?_eq_none_iff.2 hlt] at h
      cases h
    rcases bs with _ | ⟨a, _ | ⟨b, _ | ⟨c, _ | ⟨d, rest⟩⟩⟩⟩
    · simp at hlen
    · simp at hlen
    · simp at hlen
    · simp at hlen
    · exact ⟨a, b, c, d, rest, rfl⟩
  cases h
  refine ⟨Bytes.ofLe_lt a b c d, ?_⟩
  rw [Bytes.le32_ofLe]
  rfl

theorem shardOfField_eq_ok_iff {field : Bytes} {s : ShardId} :
    shardOfField field = .ok s ↔ shardField s = field := by
  constructor
  · intro h
    unfold shardOfField at h
    split at h
    · rename_i a b c d
      cases h
      rw [shardField, UInt32.toNat_ofNat_of_lt' (Bytes.ofLe_lt a b c d), Bytes.le32_ofLe]
    · cases h
  · rintro rfl
    exact shardOfField_shardField s

/-! ## Fields -/

/-- Every field but the last is so short that its length is a word. -/
def areInline (fields : List Bytes) : Prop := ∀ f ∈ fields.dropLast, f.length < UInt32.size

instance (fields : List Bytes) : Decidable (areInline fields) :=
  inferInstanceAs (Decidable (∀ f ∈ fields.dropLast, _))

namespace Message

/-- The fields as they stand in a payload. -/
def joinFields (fields : List Bytes) : Bytes :=
  fields.dropLast.flatMap inlineField ++ fields.getLastD []

theorem joinFields_cons (f g : Bytes) (fields : List Bytes) :
    joinFields (f :: g :: fields) = inlineField f ++ joinFields (g :: fields) := by
  simp [joinFields]

theorem areInline_cons {f g : Bytes} {fields : List Bytes} :
    areInline (f :: g :: fields) ↔ f.length < UInt32.size ∧ areInline (g :: fields) := by
  simp [areInline]

theorem encode_eq (m : Message) : m.encode = m.header ++ joinFields m.fields :=
  List.append_assoc ..

/-- A field with its length in front is at the front of bytes exactly if it is read there. -/
theorem inlineField_append_iff {f bs rest : Bytes} (hf : f.length < UInt32.size) :
    inlineField f ++ bs = rest ↔ Bytes.le32? rest = some f.length ∧
      (rest.drop 4).take f.length = f ∧ (rest.drop 4).drop f.length = bs := by
  constructor
  · rintro rfl
    have hdrop : (inlineField f ++ bs).drop 4 = f ++ bs := rfl
    rw [hdrop, inlineField, List.append_assoc, Bytes.le32?_le32_append, Nat.mod_eq_of_lt hf]
    exact ⟨rfl, List.take_left, List.drop_left⟩
  · rintro ⟨hlen, htake, hdrop⟩
    obtain ⟨-, hrest⟩ := Bytes.exists_le32? hlen
    rw [inlineField, List.append_assoc, hrest]
    congr 1
    rw [← List.take_append_drop f.length (rest.drop 4), htake, hdrop]

theorem exists_cons_cons {fields : List Bytes} {count : Nat} (h : fields.length = count + 2) :
    ∃ f g fs, fields = f :: g :: fs := by
  rcases fields with _ | ⟨f, _ | ⟨g, fs⟩⟩
  · cases h
  · cases h
  · exact ⟨f, g, fs, rfl⟩

/-- Fields are cut out of bytes exactly as they were joined. -/
theorem cutFields_eq_ok_iff {total count start : Nat} {rest : Bytes} {fields : List Bytes}
    (ht : total = start + rest.length) (hc : count ≠ 0) :
    cutFields total count start rest = .ok fields ↔
      fields.length = count ∧ areInline fields ∧ joinFields fields = rest := by
  fun_induction cutFields total count start rest generalizing fields with
  | case1 => exact absurd rfl hc
  | case2 start rest =>
    constructor
    · intro h
      cases h
      exact ⟨rfl, nofun, rfl⟩
    · rintro ⟨hlen, -, hjoin⟩
      obtain ⟨f, rfl⟩ := List.length_eq_one_iff.1 hlen
      rw [← hjoin]
      rfl
  | case3 count start rest hnone =>
    refine ⟨nofun, ?_⟩
    rintro ⟨hlen, hin, hjoin⟩
    obtain ⟨f, g, fs, rfl⟩ := exists_cons_cons hlen
    rw [joinFields_cons, inlineField_append_iff (areInline_cons.1 hin).1] at hjoin
    rw [hnone] at hjoin
    cases hjoin.1
  | case4 count start rest length hsome stop =>
    rename_i hshort
    refine ⟨nofun, ?_⟩
    rintro ⟨hlen, hin, hjoin⟩
    obtain ⟨f, g, fs, rfl⟩ := exists_cons_cons hlen
    rw [joinFields_cons] at hjoin
    obtain ⟨hword, -, -⟩ := (inlineField_append_iff (areInline_cons.1 hin).1).1 hjoin
    cases hsome.symm.trans hword
    rw [← hjoin, List.length_append, inlineField, List.length_append, Bytes.length_le32] at ht
    omega
  | case5 count start rest length hsome stop body =>
    rename_i hfits ih
    obtain ⟨hword, -⟩ := Bytes.exists_le32? hsome
    have hbody : length ≤ body.length := by
      rw [List.length_drop]
      omega
    have htotal : total = stop + (body.drop length).length := by
      rw [List.length_drop, List.length_drop] at *
      omega
    have ih := fun fs => @ih fs htotal (Nat.succ_ne_zero count)
    constructor
    · intro h
      cases hcut : cutFields total (count + 1) stop (body.drop length) with
      | error e =>
        rw [hcut] at h
        cases h
      | ok fs =>
        rw [hcut] at h
        cases h
        obtain ⟨hlen, hin, hjoin⟩ := (ih fs).1 hcut
        obtain ⟨g, fs, rfl⟩ := List.exists_cons_of_length_eq_add_one hlen
        have htake : (body.take length).length = length := List.length_take_of_le hbody
        have hf : (body.take length).length < UInt32.size := by rwa [htake]
        refine ⟨congrArg Nat.succ hlen, areInline_cons.2 ⟨hf, hin⟩, ?_⟩
        rw [joinFields_cons, inlineField_append_iff hf, htake]
        exact ⟨hsome, rfl, hjoin.symm⟩
    · rintro ⟨hlen, hin, hjoin⟩
      obtain ⟨f, g, fs, rfl⟩ := exists_cons_cons hlen
      rw [joinFields_cons] at hjoin
      obtain ⟨hf, hin⟩ := areInline_cons.1 hin
      obtain ⟨hword, htake, hdrop⟩ := (inlineField_append_iff hf).1 hjoin
      cases hsome.symm.trans hword
      rw [(ih (g :: fs)).2 ⟨Nat.succ.inj hlen, hin, hdrop.symm⟩]
      exact congrArg (fun x => Except.ok (x :: g :: fs)) htake

/-! ## Messages -/

theorem map_shardOfField {field : Bytes} {f : ShardId → Message} {m : Message}
    (h : (shardOfField field).map f = .ok m) : ∃ s, shardField s = field ∧ f s = m := by
  cases hs : shardOfField field with
  | error e =>
    rw [hs] at h
    cases h
  | ok s =>
    rw [hs] at h
    exact ⟨s, shardOfField_eq_ok_iff.1 hs, Except.ok.inj h⟩

/-- The fields make up a message exactly if they are those of that message. -/
theorem ofFields_eq_ok_iff {op : Opcode} {tag : Tag} {fields : List Bytes} {m : Message} :
    ofFields op tag fields = .ok m ↔
      m.opcode = op ∧ m.fields = fields ∧ ∀ t, m.tag? = some t → t = tag := by
  constructor
  · intro h
    unfold ofFields at h
    split at h
    case h_6 | h_7 | h_8 =>
      obtain ⟨s, rfl, rfl⟩ := map_shardOfField h
      exact ⟨rfl, rfl, nofun⟩
    all_goals cases h
    case h_9 | h_10 | h_11 | h_12 | h_13 => exact ⟨rfl, rfl, fun t ht => (Option.some.inj ht).symm⟩
    all_goals exact ⟨rfl, rfl, nofun⟩
  · rintro ⟨rfl, rfl, htag⟩
    cases m with
    | client body =>
      have h := ofFields_fields (client body)
      cases body <;> exact h
    | peer t body =>
      rw [← htag t rfl]
      exact ofFields_fields (peer t body)

/-- Every field but the last is so short that its length is a word. -/
def Encodable (m : Message) : Prop := areInline m.fields

instance (m : Message) : Decidable m.Encodable := inferInstanceAs (Decidable (areInline _))

/-! ## Payloads -/

theorem layout_length_ne_zero (op : Opcode) : op.layout.length ≠ 0 := by
  cases op with
  | client verb => cases verb <;> exact Nat.succ_ne_zero _
  | peer verb => cases verb <;> exact Nat.succ_ne_zero _

/-- What follows the header is read exactly as it is written. -/
theorem cutFields_bind_eq_ok_iff {total start : Nat} {op : Opcode} {tag : Tag} {body : Bytes}
    {m : Message} (ht : total = start + body.length) :
    (cutFields total op.layout.length start body).bind (ofFields op tag) = .ok m ↔
      m.opcode = op ∧ (∀ t, m.tag? = some t → t = tag) ∧ joinFields m.fields = body ∧
        m.Encodable := by
  have hcut := fun fields => @cutFields_eq_ok_iff _ _ _ _ fields ht (layout_length_ne_zero op)
  constructor
  · intro h
    cases hc : cutFields total op.layout.length start body with
    | error e =>
      rw [hc] at h
      cases h
    | ok fields =>
      rw [hc] at h
      obtain ⟨hop, rfl, htag⟩ := ofFields_eq_ok_iff.1 h
      obtain ⟨-, hin, hjoin⟩ := (hcut _).1 hc
      exact ⟨hop, htag, hjoin, hin⟩
  · rintro ⟨rfl, htag, hjoin, hin⟩
    rw [(hcut _).2 ⟨length_fields m, hin, hjoin⟩]
    exact ofFields_eq_ok_iff.2 ⟨rfl, rfl, htag⟩

theorem ofWire?_eq_some_iff {h : Hop} {b : UInt8} {op : Opcode} :
    Opcode.ofWire? h b = some op ↔ op.hop = h ∧ op.wireByte = b := by
  constructor
  · exact Opcode.eq_of_ofWire?
  · rintro ⟨rfl, rfl⟩
    exact Opcode.ofWire?_wireByte op

/-- The header of a payload on a hop: the opcode byte, and the tag on peer hops. -/
def headerOf (b : UInt8) (tag : Tag) : Hop → Bytes
  | .client => [b]
  | .peer => b :: Bytes.le32 tag.toNat

theorem length_headerOf (b : UInt8) (tag : Tag) (h : Hop) :
    (headerOf b tag h).length = h.headerLength := by
  cases h <;> rfl

theorem header_eq (m : Message) : m.header = headerOf m.opcode.wireByte (m.tag?.getD 0) m.hop := by
  cases m <;> rfl

/-- A payload of the least length or more begins with a header. -/
theorem exists_header {h : Hop} {payload : Bytes} (hlen : h.headerLength ≤ payload.length) :
    ∃ b tag body, payload = headerOf b tag h ++ body := by
  obtain ⟨b, rest, rfl⟩ : ∃ b rest, payload = b :: rest := by
    cases payload with
    | nil => cases h <;> cases hlen
    | cons b rest => exact ⟨b, rest, rfl⟩
  cases h with
  | client => exact ⟨b, 0, rest, rfl⟩
  | peer =>
    cases hw : Bytes.le32? rest with
    | none =>
      have hshort := Bytes.le32?_eq_none_iff.1 hw
      exact absurd (Nat.le_of_succ_le_succ hlen) (Nat.not_le.2 hshort)
    | some n =>
      obtain ⟨hn, hrest⟩ := Bytes.exists_le32? hw
      refine ⟨b, UInt32.ofNat n, rest.drop 4, ?_⟩
      rw [headerOf, UInt32.toNat_ofNat_of_lt' hn, List.cons_append, ← hrest]

theorem decode_of_short {h : Hop} {payload : Bytes} (hlt : payload.length < h.headerLength) :
    decode h payload = .error (.cutShort h.headerLength payload.length) := by
  unfold decode
  exact if_pos hlt

/-- A header and what follows it decode as the opcode byte says. -/
theorem decode_headerOf_eq (h : Hop) (b : UInt8) (tag : Tag) (body : Bytes) :
    decode h (headerOf b tag h ++ body) =
      (Opcode.ofWire? h b).elim (.error (.noSuchOpcode b h)) fun op =>
        (cutFields (h.headerLength + body.length) op.layout.length h.headerLength body).bind
          (ofFields op (if h = .peer then tag else 0)) := by
  have hlen : (headerOf b tag h ++ body).length = h.headerLength + body.length := by
    rw [List.length_append, length_headerOf]
  have hdrop : (headerOf b tag h ++ body).drop h.headerLength = body := by
    rw [← length_headerOf b tag h, List.drop_left]
  unfold decode
  rw [hlen, hdrop]
  simp only [Nat.not_lt.2 (Nat.le_add_right ..), if_false]
  cases h with
  | client =>
    simp only [headerOf, List.cons_append, List.nil_append]
    cases Opcode.ofWire? .client b <;> simp
  | peer =>
    have htag : UInt32.ofNat (tag.toNat % UInt32.size) = tag := by
      rw [Nat.mod_eq_of_lt tag.toNat_lt, UInt32.ofNat_toNat]
    simp only [headerOf, List.cons_append, Bytes.le32?_le32_append, Option.getD_some, htag]
    cases Opcode.ofWire? .peer b <;> simp

theorem decode_headerOf (h : Hop) (b : UInt8) (tag : Tag) (body : Bytes) (m : Message) :
    decode h (headerOf b tag h ++ body) = .ok m ↔
      ∃ op, Opcode.ofWire? h b = some op ∧
        (cutFields (h.headerLength + body.length) op.layout.length h.headerLength body).bind
          (ofFields op (if h = .peer then tag else 0)) = .ok m := by
  rw [decode_headerOf_eq]
  cases Opcode.ofWire? h b <;> simp

/-- A payload decodes to a message exactly if it is the encoding of that message. -/
theorem decode_eq_ok_iff {h : Hop} {payload : Bytes} {m : Message} :
    decode h payload = .ok m ↔ m.hop = h ∧ m.encode = payload ∧ m.Encodable := by
  constructor
  · intro hd
    have hlen : h.headerLength ≤ payload.length := by
      refine Nat.le_of_not_lt fun hlt => ?_
      rw [decode_of_short hlt] at hd
      cases hd
    obtain ⟨b, tag, body, rfl⟩ := exists_header hlen
    obtain ⟨op, hop, hbody⟩ := (decode_headerOf h b tag body m).1 hd
    obtain ⟨rfl, htag, hjoin, hin⟩ := (cutFields_bind_eq_ok_iff rfl).1 hbody
    obtain ⟨rfl, rfl⟩ := ofWire?_eq_some_iff.1 hop
    refine ⟨rfl, ?_, hin⟩
    rw [encode_eq, header_eq, hjoin]
    cases m with
    | client body => rfl
    | peer t body => rw [htag t rfl]; rfl
  · rintro ⟨rfl, rfl, hin⟩
    rw [encode_eq, header_eq, decode_headerOf]
    refine ⟨m.opcode, ofWire?_eq_some_iff.2 ⟨rfl, rfl⟩, ?_⟩
    refine (cutFields_bind_eq_ok_iff rfl).2 ⟨rfl, fun t ht => ?_, rfl, hin⟩
    cases m with
    | client body => cases ht
    | peer tag body => exact (Option.some.inj ht).symm

/-- Every message whose fields but the last are short is read back from its encoding; what is
    read on a hop is a message of the hop, and the payload is its encoding, so no other payload
    is read as that message. -/
theorem decode_exact :
    (∀ m : Message, m.Encodable → decode m.hop m.encode = .ok m) ∧
      ∀ h payload m, decode h payload = .ok m →
        m.hop = h ∧ m.encode = payload ∧ m.Encodable ∧
          ∀ other, decode h other = .ok m → other = payload := by
  refine ⟨fun m hin => decode_eq_ok_iff.2 ⟨rfl, rfl, hin⟩, fun h payload m hd => ?_⟩
  obtain ⟨hhop, henc, hin⟩ := decode_eq_ok_iff.1 hd
  refine ⟨hhop, henc, hin, fun other ho => ?_⟩
  obtain ⟨-, henc', -⟩ := decode_eq_ok_iff.1 ho
  exact henc'.symm.trans henc

/-- The reply of a peer that has an object. -/
theorem decode_exact_store :
    let m := Message.peer 7 (.store [107] [1, 2])
    m.Encodable ∧ decode .peer m.encode = .ok m ∧
      decode .peer [50, 7, 0, 0, 0, 1, 0, 0, 0, 107, 1, 2] = .ok m ∧
      ∀ other, decode .peer other = .ok m → other = [50, 7, 0, 0, 0, 1, 0, 0, 0, 107, 1, 2] := by
  intro m
  have hin : m.Encodable := by decide
  have hd : decode .peer [50, 7, 0, 0, 0, 1, 0, 0, 0, 107, 1, 2] = .ok m := by decide
  exact ⟨hin, decode_exact.1 m hin, hd, (decode_exact.2 _ _ m hd).2.2.2⟩

end Message

end Depot
