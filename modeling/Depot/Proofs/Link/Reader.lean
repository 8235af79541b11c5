/-
  Depot — what a reader hears of a stream, however it is cut.

  `Reader.Hears` says that a stream makes sense to a reader up to an incomplete
  frame, and which messages are in it.  A read keeps this of the rest of the stream
  (`Hears.read`), and from it the reads of one arrival (`Hears.readAll`) and of a
  whole stream (`Hears.listen`) tell these messages.
-/
import Depot.Link.Reader
import Depot.Proofs.Wire.Framing
import Mathlib

namespace Depot

/-! ## Cutting -/

theorem flatten_cutReads {fuel : Nat} {bytes : Bytes} (h : bytes.length ≤ fuel * maxRead) :
    (cutReads fuel bytes).flatten = bytes := by
  induction fuel generalizing bytes with
  | zero =>
    rw [Nat.zero_mul] at h
    exact (List.eq_nil_of_length_eq_zero (Nat.le_zero.1 h)).symm
  | succ fuel ih =>
    rw [cutReads]
    split
    · rename_i hempty
      rw [List.isEmpty_iff.1 hempty, List.flatten_nil]
    · rw [List.flatten_cons, ih, List.take_append_drop]
      rw [List.length_drop]
      rw [Nat.add_mul] at h
      omega

theorem flatten_readsOf (data : Bytes) : (readsOf data).flatten = data :=
  flatten_cutReads (by
    have := Nat.div_add_mod data.length maxRead
    have := Nat.mod_lt data.length (show 0 < maxRead by decide)
    rw [Nat.add_mul, Nat.mul_comm]
    omega)

/-! ## Frames that are taken apart in two steps -/

theorem unframe_eq_append {limit : UInt32} {bytes more rest : Bytes} {payloads : List Bytes}
    (h : unframe limit (bytes ++ more) = ⟨payloads, rest, none⟩) :
    ∃ before middle after, unframe limit bytes = ⟨before, middle, none⟩ ∧
      unframe limit (middle ++ more) = ⟨after, rest, none⟩ ∧ payloads = before ++ after := by
  cases he : (unframe limit bytes).error with
  | some e => rw [unframe_append_error more he] at h; cases h
  | none =>
    rw [unframe_append more he] at h
    injection h with hpayloads hrest herror
    exact ⟨_, _, _, by rw [← he], by rw [← hrest, ← herror], hpayloads.symm⟩

/-- Nothing more is in the bytes that are left. -/
theorem unframe_rest {limit : UInt32} {bytes : Bytes} (h : (unframe limit bytes).error = none) :
    unframe limit (unframe limit bytes).rest = ⟨[], (unframe limit bytes).rest, none⟩ := by
  fun_induction unframe limit bytes with
  | case1 bytes e hf => cases h
  | case2 bytes hf => exact unframe_none hf
  | case3 bytes n hf tail ih => exact ih h

namespace Reader

/-! ## Payloads -/

theorem decodeAll_of_ok {hop : Hop} {payload : Bytes} {m : Message} (payloads : List Bytes)
    (h : Message.decode hop payload = .ok m) :
    decodeAll hop (payload :: payloads) =
      (m :: (decodeAll hop payloads).1, (decodeAll hop payloads).2) := by
  rw [decodeAll, h]

theorem decodeAll_of_error {hop : Hop} {payload : Bytes} {e : WireError} (payloads : List Bytes)
    (h : Message.decode hop payload = .error e) :
    decodeAll hop (payload :: payloads) = ([], some e) := by
  rw [decodeAll, h]

theorem decodeAll_eq_append {hop : Hop} {ps qs : List Bytes} {messages : List Message}
    (h : decodeAll hop (ps ++ qs) = (messages, none)) :
    ∃ before after, decodeAll hop ps = (before, none) ∧ decodeAll hop qs = (after, none) ∧
      messages = before ++ after := by
  induction ps generalizing messages with
  | nil => exact ⟨[], messages, rfl, h, rfl⟩
  | cons p ps ih =>
    rw [List.cons_append] at h
    cases hm : Message.decode hop p with
    | error e =>
      rw [decodeAll_of_error _ hm] at h
      cases h
    | ok m =>
      rw [decodeAll_of_ok _ hm] at h
      injection h with hmessages herror
      obtain ⟨before, after, hps, hqs, heq⟩ := ih (Prod.ext rfl herror)
      refine ⟨m :: before, after, ?_, hqs, ?_⟩
      · rw [decodeAll_of_ok _ hm, hps]
      · rw [← hmessages, List.cons_append, ← heq]

theorem decodeAll_encode {hop : Hop} {messages : List Message}
    (h : ∀ m ∈ messages, m.hop = hop ∧ m.Encodable) :
    decodeAll hop (messages.map Message.encode) = (messages, none) := by
  induction messages with
  | nil => rfl
  | cons m messages ih =>
    obtain ⟨hhop, hm⟩ := h m List.mem_cons_self
    rw [List.map_cons, decodeAll_of_ok _ (Message.decode_eq_ok_iff.2 ⟨hhop, rfl, hm⟩),
      ih fun m' h' => h m' (List.mem_cons_of_mem _ h')]

/-! ## Reads -/

/-- The bytes read that belong to a frame which is not complete. -/
def kept (r : Reader) : Bytes := r.deframer.buffer.toBytes

/-- The reader has taken out all that is complete, and the bytes that come hold these
    messages up to an incomplete frame. -/
structure Hears (r : Reader) (bytes : Bytes) (messages : List Message) (rest : Bytes) : Prop where
  sound : r.deframer.Sound
  resting : unframe r.deframer.limit r.kept = ⟨[], r.kept, none⟩
  stream : ∃ payloads, unframe r.deframer.limit (r.kept ++ bytes) = ⟨payloads, rest, none⟩ ∧
    decodeAll r.hop payloads = (messages, none)

/-- Messages that fit into frames are heard by a new reader of their hop. -/
theorem hears_frames {hop : Hop} {limit : UInt32} {messages : List Message}
    (h : ∀ m ∈ messages, m.hop = hop ∧ 4 + m.encode.length ≤ limit.toNat) :
    (ofHop hop limit).Hears (messages.flatMap fun m => frameBytes m.encode) messages [] where
  sound := Deframer.sound_of_length rfl
  resting := unframe_none rfl
  stream := by
    refine ⟨messages.map Message.encode, ?_, decodeAll_encode fun m hm => ⟨(h m hm).1, ?_⟩⟩
    · rw [← List.flatMap_map]
      refine unframe_frameBytes fun payload hpayload => ?_
      obtain ⟨m, hm, rfl⟩ := List.mem_map.1 hpayload
      exact (h m hm).2
    · exact Message.encodable_of_length
        ((Nat.le_of_add_left_le (h m hm).2).trans_lt limit.toNat_lt)

variable {r : Reader} {messages : List Message} {rest : Bytes}

theorem Hears.read {data more : Bytes} (h : r.Hears (data ++ more) messages rest) :
    ∃ r' before after, r.read data = (r', before, none) ∧ r'.Hears more after rest ∧
      messages = before ++ after := by
  obtain ⟨payloads, hstream, hdecode⟩ := h.stream
  rw [← List.append_assoc] at hstream
  obtain ⟨ps, middle, qs, hfirst, hsecond, rfl⟩ := unframe_eq_append hstream
  obtain ⟨before, after, hps, hqs, rfl⟩ := decodeAll_eq_append hdecode
  have hrest := @unframe_rest r.deframer.limit (r.kept ++ data) (by rw [hfirst])
  obtain ⟨hsound, hlimit, hkept, hframes⟩ := h.sound.push data
  cases hpush : r.deframer.push data with
  | mk d out =>
    rw [← kept, hpush, hfirst] at hkept hframes
    rw [hpush] at hsound hlimit
    rw [hfirst] at hrest
    simp only at hsound hlimit hkept hframes hrest
    refine ⟨{ r with deframer := d }, before, after, ?_, ⟨hsound, ?_, qs, ?_, hqs⟩, rfl⟩
    · rw [Reader.read, hpush, hframes]
      exact congrArg (Prod.mk _) hps
    · rw [kept, hkept, hlimit, hrest]
    · rw [kept, hkept, hlimit, hsecond]

/-- When the stream ends nothing is untold. -/
theorem Hears.nil (h : r.Hears [] messages rest) : messages = [] := by
  obtain ⟨payloads, hstream, hdecode⟩ := h.stream
  rw [List.append_nil, h.resting] at hstream
  cases hstream
  cases hdecode
  rfl

theorem Hears.readAll {reads : List Bytes} {more : Bytes}
    (h : r.Hears (reads.flatten ++ more) messages rest) :
    ∃ r' before after, readAll true r reads = (r', before.map Heard.message, [], false) ∧
      r'.Hears more after rest ∧ messages = before ++ after := by
  induction reads generalizing r messages with
  | nil => exact ⟨r, [], messages, rfl, h, rfl⟩
  | cons data reads ih =>
    rw [List.flatten_cons, List.append_assoc] at h
    obtain ⟨r₁, before, after, hread, h₁, rfl⟩ := h.read
    obtain ⟨r', before', after', hreads, h', rfl⟩ := ih h₁
    refine ⟨r', before ++ before', after', ?_, h', (List.append_assoc ..).symm⟩
    rw [Reader.readAll, hread]
    simp only [Bool.not_true, Bool.false_and, Bool.false_eq_true, if_false, hreads,
      List.map_append]

theorem Hears.readStream {cuts : List Bytes} (hcuts : ∀ cut ∈ cuts, cut ≠ [])
    (h : r.Hears cuts.flatten messages rest) :
    readStream true r (cuts.map Arrival.data) =
      (messages.map Heard.message ++ [.closed none], 0) := by
  induction cuts generalizing r messages with
  | nil =>
    rw [h.nil]
    rfl
  | cons cut cuts ih =>
    rw [List.flatten_cons, ← flatten_readsOf cut] at h
    obtain ⟨r', before, after, hreads, h', rfl⟩ := h.readAll
    have hne : cut.isEmpty = false := List.isEmpty_eq_false_iff.2 (hcuts cut List.mem_cons_self)
    rw [List.map_cons, Reader.readStream, hne, hreads]
    simp only [Bool.false_eq_true, if_false, ih (fun c hc => hcuts c (List.mem_cons_of_mem _ hc)) h',
      List.map_append, List.append_assoc]

end Reader

end Depot
