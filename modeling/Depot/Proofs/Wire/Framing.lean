/-
  Depot — frames out of a stream, however it is cut.

  `unframe` takes a whole stream apart, frame after frame, up to an incomplete one
  or a length that no frame can have.  A deframer remembers the length of the frame
  that it waits for and never looks at it again; `Deframer.Sound` says that what it
  remembers stands in its buffer, and then it finds what `unframe` finds
  (`push_spec`).  `unframe_append` says that a stream may be taken apart piece by
  piece.
-/
import Depot.Proofs.Wire.Codec
import Depot.Wire.Deframer
import Depot.Wire.Frame

namespace Depot

/-! ## Frames as bytes -/

theorem length_frameBytes (payload : Bytes) : (frameBytes payload).length = 4 + payload.length := by
  rw [frameBytes, List.length_append, lengthField, Bytes.length_le32]

theorem drop_frameBytes (payload : Bytes) : (frameBytes payload).drop 4 = payload :=
  List.drop_left' (Bytes.length_le32 _)

/-- The length field of a frame counts all of its bytes. -/
theorem le32?_frameBytes {payload : Bytes} (h : 4 + payload.length < UInt32.size) (rest : Bytes) :
    Bytes.le32? (frameBytes payload ++ rest) = some (4 + payload.length) := by
  rw [frameBytes, List.append_assoc, lengthField, Bytes.le32?_le32_append, Nat.mod_eq_of_lt h]

theorem Frame.bytes_ofPayload (payload : Bytes) :
    (Frame.ofPayload payload).bytes = frameBytes payload := rfl

/-- A message in two segments is its encoding in one piece. -/
theorem Frame.bytes_ofMessage (m : Message) : (Frame.ofMessage m).bytes = frameBytes m.encode := by
  simp only [bytes, ofMessage, frameBytes, Message.encode, List.append_assoc, List.length_append]

theorem Frame.size_eq (f : Frame) : f.size = f.bytes.length := List.length_append.symm

theorem Message.length_joinFields (fields : List Bytes) :
    (joinFields fields).length = 4 * (fields.length - 1) + Bytes.total fields := by
  induction fields with
  | nil => rfl
  | cons f fields ih =>
    cases fields with
    | nil => simp [joinFields, Bytes.total]
    | cons g fields =>
      rw [joinFields_cons, List.length_append, ih, inlineField, List.length_append,
        Bytes.length_le32, Bytes.total]
      simp only [List.length_cons, Bytes.total]
      omega

theorem Message.length_encode (m : Message) : m.encode.length = m.encodedLength := by
  rw [encode_eq, List.length_append, header_eq, length_headerOf, length_joinFields, encodedLength,
    Nat.add_assoc]

theorem Bytes.length_le_total {piece : Bytes} {pieces : List Bytes} (h : piece ∈ pieces) :
    piece.length ≤ Bytes.total pieces := by
  rw [← Bytes.length_flatten]
  exact (List.sublist_flatten_of_mem h).length_le

/-- A payload whose length is a word has fields whose lengths are words. -/
theorem Message.encodable_of_length {m : Message} (h : m.encode.length < UInt32.size) :
    m.Encodable := by
  intro field hfield
  have hle := Bytes.length_le_total (List.mem_of_mem_dropLast hfield)
  rw [length_encode, encodedLength] at h
  omega

/-- A message of one field can be sent, however long that is. -/
theorem Message.encodable_of_fields {m : Message} {field : Bytes} (h : m.fields = [field]) :
    m.Encodable := by
  intro f hf
  rw [h] at hf
  exact absurd hf List.not_mem_nil

/-! ## A stream taken apart -/

/-- The length of the frame at the front of a stream; `none` if it is not complete yet. -/
def frontFrame (limit : UInt32) (bytes : Bytes) : Except WireError (Option Nat) :=
  match Bytes.le32? bytes with
  | none => .ok none
  | some n =>
    if n < 4 then .error (.badFrameLength n)
    else if limit.toNat < n then .error (.frameOverLimit n limit)
    else if n ≤ bytes.length then .ok (some n)
    else .ok none

theorem frontFrame_eq_some {limit : UInt32} {bytes : Bytes} {n : Nat}
    (h : frontFrame limit bytes = .ok (some n)) :
    Bytes.le32? bytes = some n ∧ 4 ≤ n ∧ n ≤ limit.toNat ∧ n ≤ bytes.length := by
  unfold frontFrame at h
  split at h
  · cases h
  · rename_i k hk
    split at h
    · cases h
    · split at h
      · cases h
      · split at h
        · cases h
          exact ⟨hk, by omega, by omega, by omega⟩
        · cases h

/-- A stream taken apart. -/
structure Unframed where
  /-- The payloads of the frames. -/
  payloads : List Bytes
  /-- The bytes after the last frame. -/
  rest : Bytes
  /-- Why no frame can follow. -/
  error : Option WireError
  deriving DecidableEq, Repr

/-- The payloads behind those already there, unless no frame can follow. -/
def Unframed.frames (u : Unframed) (before : List Bytes) : Except WireError (List Bytes) :=
  match u.error with
  | none => .ok (before ++ u.payloads)
  | some e => .error e

/-- Take a stream apart. -/
def unframe (limit : UInt32) (bytes : Bytes) : Unframed :=
  match _h : frontFrame limit bytes with
  | .error e => ⟨[], bytes, some e⟩
  | .ok none => ⟨[], bytes, none⟩
  | .ok (some n) =>
    let more := unframe limit (bytes.drop n)
    ⟨(bytes.take n).drop 4 :: more.payloads, more.rest, more.error⟩
termination_by bytes.length
decreasing_by
  obtain ⟨-, hpos, -, hle⟩ := frontFrame_eq_some _h
  rw [List.length_drop]
  omega

section

variable {limit : UInt32} {bytes : Bytes}

theorem unframe_error {e : WireError} (h : frontFrame limit bytes = .error e) :
    unframe limit bytes = ⟨[], bytes, some e⟩ := by
  rw [unframe]
  split <;> simp_all

theorem unframe_none (h : frontFrame limit bytes = .ok none) :
    unframe limit bytes = ⟨[], bytes, none⟩ := by
  rw [unframe]
  split <;> simp_all

@[simp] theorem unframe_nil : unframe limit [] = ⟨[], [], none⟩ := unframe_none rfl

theorem unframe_some {n : Nat} (h : frontFrame limit bytes = .ok (some n)) :
    unframe limit bytes =
      ⟨(bytes.take n).drop 4 :: (unframe limit (bytes.drop n)).payloads,
        (unframe limit (bytes.drop n)).rest, (unframe limit (bytes.drop n)).error⟩ := by
  rw [unframe]
  split <;> simp_all

end

theorem Bytes.le32?_append {bytes : Bytes} {n : Nat} (more : Bytes)
    (h : Bytes.le32? bytes = some n) : Bytes.le32? (bytes ++ more) = some n := by
  match bytes with
  | [] | [_] | [_, _] | [_, _, _] => cases h
  | _ :: _ :: _ :: _ :: _ => exact h

/-- More bytes leave the frame at the front as it is. -/
theorem frontFrame_append {limit : UInt32} {bytes : Bytes} {n : Nat} (more : Bytes)
    (h : frontFrame limit bytes = .ok (some n)) :
    frontFrame limit (bytes ++ more) = .ok (some n) := by
  obtain ⟨hn, hpos, hmost, hle⟩ := frontFrame_eq_some h
  rw [frontFrame, Bytes.le32?_append more hn]
  simp only [List.length_append]
  rw [if_neg (by omega), if_neg (by omega), if_pos (by omega)]

theorem frontFrame_append_error {limit : UInt32} {bytes : Bytes} {e : WireError} (more : Bytes)
    (h : frontFrame limit bytes = .error e) : frontFrame limit (bytes ++ more) = .error e := by
  cases hn : Bytes.le32? bytes with
  | none => simp [frontFrame, hn] at h
  | some n =>
    simp only [frontFrame, hn, Bytes.le32?_append more hn] at h ⊢
    split_ifs at h ⊢ <;> exact h

/-- A stream may be taken apart piece by piece. -/
theorem unframe_append {limit : UInt32} {bytes : Bytes} (more : Bytes)
    (h : (unframe limit bytes).error = none) :
    unframe limit (bytes ++ more) =
      ⟨(unframe limit bytes).payloads ++ (unframe limit ((unframe limit bytes).rest ++ more)).payloads,
        (unframe limit ((unframe limit bytes).rest ++ more)).rest,
        (unframe limit ((unframe limit bytes).rest ++ more)).error⟩ := by
  fun_induction unframe limit bytes with
  | case1 bytes e hf => cases h
  | case2 bytes hf => rfl
  | case3 bytes n hf tail ih =>
    obtain ⟨-, -, -, hle⟩ := frontFrame_eq_some hf
    rw [unframe_some (frontFrame_append more hf), List.take_append_of_le_length hle,
      List.drop_append_of_le_length hle, ih h]
    rfl

/-- What is wrong with a stream stays wrong. -/
theorem unframe_append_error {limit : UInt32} {bytes : Bytes} {e : WireError} (more : Bytes)
    (h : (unframe limit bytes).error = some e) :
    unframe limit (bytes ++ more) =
      ⟨(unframe limit bytes).payloads, (unframe limit bytes).rest ++ more, some e⟩ := by
  fun_induction unframe limit bytes with
  | case1 bytes e' hf =>
    cases h
    exact unframe_error (frontFrame_append_error more hf)
  | case2 bytes hf => cases h
  | case3 bytes n hf tail ih =>
    obtain ⟨-, -, -, hle⟩ := frontFrame_eq_some hf
    rw [unframe_some (frontFrame_append more hf), List.take_append_of_le_length hle,
      List.drop_append_of_le_length hle, ih h]

/-- Frames that are taken out of bytes are taken out first when more come. -/
theorem payloads_prefix (limit : UInt32) (bytes more : Bytes) :
    (unframe limit bytes).payloads <+: (unframe limit (bytes ++ more)).payloads := by
  cases he : (unframe limit bytes).error with
  | none =>
    rw [unframe_append more he]
    exact List.prefix_append _ _
  | some e => rw [unframe_append_error more he]

/-- A frame within the limit is the one at the front of the bytes that begin with it. -/
theorem frontFrame_frameBytes {limit : UInt32} {payload : Bytes}
    (h : 4 + payload.length ≤ limit.toNat) (more : Bytes) :
    frontFrame limit (frameBytes payload ++ more) = .ok (some (4 + payload.length)) := by
  rw [frontFrame, le32?_frameBytes (h.trans_lt limit.toNat_lt)]
  simp only [List.length_append, length_frameBytes]
  rw [if_neg (by omega), if_neg (by omega), if_pos (by omega)]

/-- Frames within the limit are taken apart into their payloads. -/
theorem unframe_frameBytes {limit : UInt32} {payloads : List Bytes}
    (h : ∀ payload ∈ payloads, 4 + payload.length ≤ limit.toNat) :
    unframe limit (payloads.flatMap frameBytes) = ⟨payloads, [], none⟩ := by
  induction payloads with
  | nil => exact unframe_none rfl
  | cons payload payloads ih =>
    have hfront := frontFrame_frameBytes (h payload List.mem_cons_self)
      (payloads.flatMap frameBytes)
    have hlength := length_frameBytes payload
    rw [List.flatMap_cons, unframe_some hfront, List.take_left' hlength, List.drop_left' hlength,
      ih fun p hp => h p (List.mem_cons_of_mem _ hp)]
    rfl

/-! ## A deframer -/

namespace Deframer

/-- The length that a deframer waits for stands in its buffer and is one that a frame
    can have. -/
def Sound (d : Deframer) : Prop :=
  ∀ needed, d.awaiting = .payload needed →
    Bytes.le32? d.buffer.toBytes = some needed ∧ 4 ≤ needed ∧ needed ≤ d.limit.toNat

theorem sound_of_length {d : Deframer} (h : d.awaiting = .length) : d.Sound :=
  fun _ hneeded => by rw [h] at hneeded; cases hneeded

theorem Sound.feed {d : Deframer} (h : d.Sound) (data : Bytes) : (d.feed data).Sound := by
  intro needed hneeded
  obtain ⟨hn, hbounds⟩ := h needed hneeded
  refine ⟨?_, hbounds⟩
  rw [Deframer.feed, Buffer.toBytes_append]
  exact Bytes.le32?_append data hn

/-- What a deframer finds in its buffer is what stands at the front of its bytes. -/
theorem Sound.inspect {d : Deframer} (h : d.Sound) :
    (∃ e, frontFrame d.limit d.buffer.toBytes = .error e ∧
      d.awaiting.inspect d.limit d.buffer = .error e) ∨
    (∃ n, frontFrame d.limit d.buffer.toBytes = .ok (some n) ∧
      d.awaiting.inspect d.limit d.buffer = .ok (.frame n)) ∨
    (∃ awaiting, frontFrame d.limit d.buffer.toBytes = .ok none ∧
      { d with awaiting }.Sound ∧
      d.awaiting.inspect d.limit d.buffer = .ok (.wait awaiting)) := by
  cases hawaiting : d.awaiting with
  | payload needed =>
    obtain ⟨hn, hpos, hmost⟩ := h needed hawaiting
    have hfront : frontFrame d.limit d.buffer.toBytes =
        if needed ≤ d.buffer.size then .ok (some needed) else .ok none := by
      rw [frontFrame, hn, ← Buffer.length_toBytes]
      simp only
      rw [if_neg (by omega), if_neg (by omega)]
    by_cases hle : needed ≤ d.buffer.size
    · exact .inr (.inl ⟨needed, by rw [hfront, if_pos hle], by
        rw [Awaiting.inspect, Awaiting.complete, if_pos hle]⟩)
    · refine .inr (.inr ⟨.payload needed, by rw [hfront, if_neg hle], ?_, by
        rw [Awaiting.inspect, Awaiting.complete, if_neg hle]⟩)
      intro k hk
      cases hk
      exact ⟨hn, hpos, hmost⟩
  | length =>
    cases hn : Bytes.le32? d.buffer.toBytes with
    | none =>
      exact .inr (.inr ⟨.length, by rw [frontFrame, hn], sound_of_length rfl, by
        rw [Awaiting.inspect, hn]⟩)
    | some n =>
      simp only [frontFrame, Awaiting.inspect, Awaiting.complete, hn, Buffer.length_toBytes]
      split_ifs with hpos hmost hle
      · exact .inl ⟨_, rfl, rfl⟩
      · exact .inl ⟨_, rfl, rfl⟩
      · exact .inr (.inl ⟨n, rfl, rfl⟩)
      · refine .inr (.inr ⟨.payload n, rfl, ?_, rfl⟩)
        intro k hk
        cases hk
        exact ⟨hn, not_lt.1 hpos, not_lt.1 hmost⟩

theorem Sound.extract {d : Deframer} (h : d.Sound) :
    (∃ e, frontFrame d.limit d.buffer.toBytes = .error e ∧ d.extract = (d, .error e)) ∨
    (∃ n, frontFrame d.limit d.buffer.toBytes = .ok (some n) ∧
      d.extract = ({ d with awaiting := .length, buffer := d.buffer.drop n },
        .ok (some ((d.buffer.toBytes.take n).drop 4)))) ∨
    (∃ awaiting, frontFrame d.limit d.buffer.toBytes = .ok none ∧
      { d with awaiting }.Sound ∧ d.extract = ({ d with awaiting }, .ok none)) := by
  unfold Deframer.extract
  obtain ⟨e, hfront, hinspect⟩ | ⟨n, hfront, hinspect⟩ | ⟨awaiting, hfront, hsound, hinspect⟩ :=
    h.inspect
  · exact .inl ⟨e, hfront, by rw [hinspect]⟩
  · exact .inr (.inl ⟨n, hfront, by rw [hinspect]⟩)
  · exact .inr (.inr ⟨awaiting, hfront, hsound, by rw [hinspect]⟩)

/-- The deframer is sound and keeps the bytes after the last frame of `bytes`; the
    frames of `bytes` follow those in `before`. -/
structure Took (limit : UInt32) (bytes : Bytes) (before : List Bytes)
    (out : Deframer × Except WireError (List Bytes)) : Prop where
  sound : out.1.Sound
  limit_eq : out.1.limit = limit
  rest : out.1.buffer.toBytes = (unframe limit bytes).rest
  frames : out.2 = (unframe limit bytes).frames before

theorem Sound.extractUpTo {d : Deframer} (h : d.Sound) {most : Nat} (taken : List Bytes)
    (hmost : d.buffer.size < most) :
    Took d.limit d.buffer.toBytes taken.reverse (extractUpTo most taken d) := by
  induction most generalizing d taken with
  | zero => omega
  | succ most ih =>
    unfold Deframer.extractUpTo
    obtain ⟨e, hfront, hextract⟩ | ⟨n, hfront, hextract⟩ | ⟨awaiting, hfront, hsound, hextract⟩ :=
      h.extract
    · rw [hextract]
      exact ⟨h, rfl, by rw [unframe_error hfront], by rw [unframe_error hfront]; rfl⟩
    · obtain ⟨-, hpos, -, hle⟩ := frontFrame_eq_some hfront
      have hless : (d.buffer.drop n).size < most := by
        have := d.buffer.length_toBytes
        show d.buffer.size - n < most
        omega
      have hmore := ih (d := { d with awaiting := .length, buffer := d.buffer.drop n })
        (sound_of_length rfl) ((d.buffer.toBytes.take n).drop 4 :: taken) hless
      rw [hextract]
      refine ⟨hmore.sound, hmore.limit_eq, hmore.rest.trans ?_, hmore.frames.trans ?_⟩
      · rw [unframe_some hfront, Buffer.toBytes_drop]
      · rw [unframe_some hfront, Buffer.toBytes_drop, List.reverse_cons]
        simp only [Unframed.frames, List.append_assoc, List.singleton_append]
    · rw [hextract]
      exact ⟨hsound, rfl, by rw [unframe_none hfront], by
        rw [unframe_none hfront, Unframed.frames, List.append_nil]⟩

/-- A push takes out the frames of the bytes that were kept and the new ones. -/
theorem Sound.push {d : Deframer} (h : d.Sound) (data : Bytes) :
    Took d.limit (d.buffer.toBytes ++ data) [] (d.push data) := by
  rw [← Buffer.toBytes_append]
  exact (h.feed data).extractUpTo [] (Nat.lt_succ_self _)

end Deframer

end Depot
