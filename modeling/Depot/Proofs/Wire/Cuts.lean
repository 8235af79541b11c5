/-
  Depot — frames of a stream that comes in pieces.

  `takeAll` takes frames out of a deframer until none is complete or a length is bad, and
  `takePieces` feeds it one piece after the other and does so after each.  `unframe` is
  the same of a whole stream: its frames, the bytes left, and what is wrong with the
  length after them (`unframe_spec`).  `takePieces_unframe` says that the pieces make no
  difference: frames, first error, bytes left and what is awaited are those of the
  stream.
-/
import Depot.Proofs.Wire.Framing

namespace Depot

/-! ## What is in a stream -/

/-- What is wrong with the length of a frame. -/
def lengthFault? (limit : UInt32) (n : Nat) : Option WireError :=
  if n < 4 then some (.badFrameLength n)
  else if limit.toNat < n then some (.frameOverLimit n limit)
  else none

theorem frontFrame_eq_error {limit : UInt32} {bytes : Bytes} {e : WireError}
    (h : frontFrame limit bytes = .error e) :
    (Bytes.le32? bytes).bind (lengthFault? limit) = some e := by
  cases hn : Bytes.le32? bytes with
  | none =>
    rw [frontFrame, hn] at h
    cases h
  | some n =>
    simp only [frontFrame, hn] at h
    simp only [Option.bind_some, lengthFault?]
    split_ifs at h ⊢ <;> cases h <;> rfl

theorem frontFrame_of_lengthFault {limit : UInt32} {bytes : Bytes} {e : WireError}
    (h : (Bytes.le32? bytes).bind (lengthFault? limit) = some e) :
    frontFrame limit bytes = .error e := by
  obtain ⟨n, hn, hfault⟩ := Option.bind_eq_some_iff.1 h
  simp only [frontFrame, hn]
  rw [lengthFault?] at hfault
  split_ifs at hfault ⊢ <;> cases hfault <;> rfl

/-- No frame is complete, and nothing is wrong with the length if there is one. -/
theorem frontFrame_eq_none {limit : UInt32} {bytes : Bytes} (h : frontFrame limit bytes = .ok none) :
    (Bytes.le32? bytes).bind (lengthFault? limit) = none ∧
      ∀ n, Bytes.le32? bytes = some n → bytes.length < n := by
  cases hn : Bytes.le32? bytes with
  | none => exact ⟨rfl, nofun⟩
  | some n =>
    simp only [frontFrame, hn] at h
    split_ifs at h with hshort hlong hle
    · cases h
    · refine ⟨?_, fun k hk => ?_⟩
      · rw [Option.bind_some, lengthFault?, if_neg hshort, if_neg hlong]
      · cases hk
        exact Nat.not_le.1 hle

/-- The frame at the front of a stream is its payload behind a length. -/
theorem take_eq_frameBytes {limit : UInt32} {bytes : Bytes} {n : Nat}
    (h : frontFrame limit bytes = .ok (some n)) :
    bytes.take n = frameBytes ((bytes.take n).drop 4) := by
  obtain ⟨hn, hpos, -, hle⟩ := frontFrame_eq_some h
  obtain ⟨-, hbytes⟩ := Bytes.exists_le32? hn
  have hlength : ((bytes.take n).drop 4).length + 4 = n := by
    rw [List.length_drop, List.length_take]
    omega
  have hfield : (bytes.take n).take 4 = Bytes.le32 n := by
    rw [List.take_take, Nat.min_eq_left hpos, hbytes]
    exact List.take_left' (Bytes.length_le32 n)
  calc bytes.take n = (bytes.take n).take 4 ++ (bytes.take n).drop 4 :=
        (List.take_append_drop 4 _).symm
    _ = frameBytes ((bytes.take n).drop 4) := by
        rw [hfield, frameBytes, lengthField, Nat.add_comm 4, hlength]

/-- A stream is its frames, none of them over the limit, and the bytes after them; these
    begin with a bad length, or hold no complete frame. -/
theorem unframe_spec (limit : UInt32) (bytes : Bytes) :
    bytes = (unframe limit bytes).payloads.flatMap frameBytes ++ (unframe limit bytes).rest ∧
      (∀ payload ∈ (unframe limit bytes).payloads, 4 + payload.length ≤ limit.toNat) ∧
      (unframe limit bytes).error =
        (Bytes.le32? (unframe limit bytes).rest).bind (lengthFault? limit) ∧
      ((unframe limit bytes).error = none →
        ∀ n, Bytes.le32? (unframe limit bytes).rest = some n →
          (unframe limit bytes).rest.length < n) := by
  fun_induction unframe limit bytes with
  | case1 bytes e hf => exact ⟨rfl, by simp, (frontFrame_eq_error hf).symm, by simp⟩
  | case2 bytes hf =>
    obtain ⟨hfault, hshort⟩ := frontFrame_eq_none hf
    exact ⟨rfl, by simp, hfault.symm, fun _ => hshort⟩
  | case3 bytes n hf more ih =>
    obtain ⟨-, hpos, hmost, hle⟩ := frontFrame_eq_some hf
    obtain ⟨hbytes, hfit, hrest⟩ := ih
    refine ⟨?_, ?_, hrest⟩
    · rw [List.flatMap_cons, List.append_assoc, ← hbytes, ← take_eq_frameBytes hf]
      exact (List.take_append_drop n bytes).symm
    · intro payload hin
      rcases List.mem_cons.1 hin with rfl | hin
      · rw [List.length_drop, List.length_take]
        omega
      · exact hfit payload hin

section

variable {limit : UInt32} {payloads : List Bytes}
  (hfit : ∀ payload ∈ payloads, 4 + payload.length ≤ limit.toNat)
include hfit

/-- The frames that bytes begin with are taken out of them first. -/
theorem unframe_frameBytes_append (more : Bytes) :
    unframe limit (payloads.flatMap frameBytes ++ more) =
      ⟨payloads ++ (unframe limit more).payloads, (unframe limit more).rest,
        (unframe limit more).error⟩ := by
  have hframes := unframe_frameBytes hfit
  rw [unframe_append more (by rw [hframes]), hframes, List.nil_append]

/-- Of frames and a bad length behind them, what comes first is clean as long as the length is
    not complete. -/
theorem unframe_clean_iff {bad before after : Bytes} {e : WireError}
    (hbad : (Bytes.le32? bad).bind (lengthFault? limit) = some e)
    (h : before ++ after = payloads.flatMap frameBytes ++ bad) :
    (unframe limit before).error = none ↔
      before.length < (payloads.flatMap frameBytes).length + 4 := by
  have hstream := unframe_frameBytes_append hfit bad
  rw [unframe_error (frontFrame_of_lengthFault hbad), List.append_nil] at hstream
  constructor
  · intro hclean
    by_contra! hlong
    obtain ⟨first, rfl⟩ : payloads.flatMap frameBytes <+: before :=
      List.prefix_of_prefix_length_le (List.prefix_append _ _) (h ▸ List.prefix_append _ _)
        (by omega)
    rw [List.append_assoc, List.append_right_inj] at h
    obtain ⟨n, hn⟩ : ∃ n, Bytes.le32? first = some n := by
      rw [← Option.ne_none_iff_exists', ne_eq, Bytes.le32?_eq_none_iff]
      rw [List.length_append] at hlong
      omega
    have hfirst : (Bytes.le32? first).bind (lengthFault? limit) = some e := by
      rw [← hbad, ← h, Bytes.le32?_append after hn, hn]
    rw [unframe_frameBytes_append hfit, unframe_error (frontFrame_of_lengthFault hfirst)] at hclean
    cases hclean
  · intro hshort
    by_contra hdirty
    obtain ⟨e', he'⟩ := Option.ne_none_iff_exists'.1 hdirty
    obtain ⟨hbefore, -, herror, -⟩ := unframe_spec limit before
    rw [← h, unframe_append_error after he'] at hstream
    injection hstream with hpayloads
    obtain ⟨n, hn, -⟩ := Option.bind_eq_some_iff.1 (herror.symm.trans he')
    have hlong : ¬ (unframe limit before).rest.length < 4 := by
      rw [← Bytes.le32?_eq_none_iff, hn]
      simp
    rw [hbefore, hpayloads, List.length_append] at hshort
    omega

/-- All frames are in what comes first exactly if it is as long as they are. -/
theorem unframe_payloads_iff {bad before after : Bytes} {e : WireError}
    (hbad : (Bytes.le32? bad).bind (lengthFault? limit) = some e)
    (h : before ++ after = payloads.flatMap frameBytes ++ bad) :
    (unframe limit before).payloads = payloads ↔
      (payloads.flatMap frameBytes).length ≤ before.length := by
  constructor
  · intro hall
    rw [(unframe_spec limit before).1, hall, List.length_append]
    exact Nat.le_add_right _ _
  · intro hlong
    obtain ⟨first, rfl⟩ : payloads.flatMap frameBytes <+: before :=
      List.prefix_of_prefix_length_le (List.prefix_append _ _) (h ▸ List.prefix_append _ _) hlong
    have hfirst := payloads_prefix limit (payloads.flatMap frameBytes ++ first) after
    rw [h, unframe_frameBytes_append hfit, unframe_frameBytes_append hfit,
      unframe_error (frontFrame_of_lengthFault hbad), List.append_nil] at hfirst
    rw [unframe_frameBytes_append hfit]
    exact hfirst.eq_of_length_le (by simp)

end

/-! ## Taking frames out one at a time -/

/-- What is awaited when these bytes are left. -/
def Awaiting.after (rest : Bytes) : Awaiting :=
  match Bytes.le32? rest with
  | none => .length
  | some n => .payload n

namespace Deframer

/-- The bytes that are kept, and one more while a length is remembered. -/
def ahead (d : Deframer) : Nat :=
  d.buffer.size + if d.awaiting = .length then 0 else 1

/-- A frame that is taken out leaves less. -/
theorem ahead_extract {d : Deframer} {payload : Bytes} (h : d.extract.2 = .ok (some payload)) :
    d.extract.1.ahead < d.ahead := by
  unfold extract at h ⊢
  cases hi : d.awaiting.inspect d.limit d.buffer with
  | error e =>
    rw [hi] at h
    cases h
  | ok found =>
    cases found with
    | wait awaiting =>
      rw [hi] at h
      cases h
    | frame n =>
      show d.buffer.size - n + 0 < d.buffer.size + _
      cases ha : d.awaiting with
      | payload needed =>
        rw [if_neg (by simp)]
        omega
      | length =>
        -- Nothing is remembered, so the length was looked at: it is four or more.
        rw [ha] at hi
        unfold Awaiting.inspect Awaiting.complete at hi
        simp only at hi
        split at hi
        · cases hi
        · split_ifs at hi with hshort hlong hle
          · cases hi
            rw [if_pos rfl]
            omega
          · cases hi

/-- Take frames out until there is none, or a length is bad. -/
def takeAll (d : Deframer) : Deframer × List Bytes × Option WireError :=
  match _h : d.extract.2 with
  | .ok none => (d.extract.1, [], none)
  | .error e => (d.extract.1, [], some e)
  | .ok (some payload) =>
    let more := d.extract.1.takeAll
    (more.1, payload :: more.2.1, more.2.2)
termination_by d.ahead
decreasing_by exact ahead_extract _h

section

variable {d d' : Deframer}

theorem takeAll_none (h : d.extract = (d', .ok none)) : d.takeAll = (d', [], none) := by
  rw [takeAll]
  split <;> simp_all

theorem takeAll_error {e : WireError} (h : d.extract = (d', .error e)) :
    d.takeAll = (d', [], some e) := by
  rw [takeAll]
  split <;> simp_all

theorem takeAll_some {payload : Bytes} (h : d.extract = (d', .ok (some payload))) :
    d.takeAll = (d'.takeAll.1, payload :: d'.takeAll.2.1, d'.takeAll.2.2) := by
  rw [takeAll]
  split <;> simp_all

end

/-- Add pieces one after the other, and take all frames out after each, up to a bad
    length. -/
def takePieces : Deframer → List Bytes → Deframer × List Bytes × Option WireError
  | d, [] => (d, [], none)
  | d, piece :: pieces =>
    let taken := (d.feed piece).takeAll
    match taken.2.2 with
    | some e => (taken.1, taken.2.1, some e)
    | none =>
      let more := takePieces taken.1 pieces
      (more.1, taken.2.1 ++ more.2.1, more.2.2)

/-! ## A deframer and the stream that it is fed -/

/-- What is awaited after a look at the buffer is what the bytes in it say. -/
theorem Sound.awaiting_extract {d d' : Deframer} (h : d.Sound) (he : d.extract = (d', .ok none)) :
    d'.awaiting = .after d.buffer.toBytes := by
  unfold Deframer.extract at he
  cases ha : d.awaiting with
  | payload needed =>
    rw [ha, Awaiting.inspect, Awaiting.complete] at he
    split_ifs at he with hle
    · cases he
    · cases he
      rw [Awaiting.after, (h needed ha).1]
  | length =>
    rw [ha] at he
    cases hn : Bytes.le32? d.buffer.toBytes with
    | none =>
      simp only [Awaiting.inspect, hn] at he
      cases he
      rw [Awaiting.after, hn]
    | some n =>
      simp only [Awaiting.inspect, Awaiting.complete, hn] at he
      split_ifs at he with hshort hlong hle
      · cases he
      · cases he
      · cases he
      · cases he
        rw [Awaiting.after, hn]

/-- The deframer gave what is in a stream, and keeps the bytes that are left. -/
structure Gave (limit : UInt32) (stream : Unframed)
    (out : Deframer × List Bytes × Option WireError) : Prop where
  sound : out.1.Sound
  limit_eq : out.1.limit = limit
  payloads : out.2.1 = stream.payloads
  error : out.2.2 = stream.error
  rest : out.1.buffer.toBytes = stream.rest
  awaiting : out.2.2 = none → out.1.awaiting = .after stream.rest

theorem Sound.takeAll {d : Deframer} (h : d.Sound) :
    Gave d.limit (unframe d.limit d.buffer.toBytes) d.takeAll := by
  fun_induction Deframer.takeAll d with
  | case1 d he =>
    obtain ⟨e, -, hextract⟩ | ⟨n, -, hextract⟩ | ⟨awaiting, hfront, hsound, hextract⟩ := h.extract
    · rw [hextract] at he
      cases he
    · rw [hextract] at he
      cases he
    · rw [hextract, unframe_none hfront]
      exact ⟨hsound, rfl, rfl, rfl, rfl, fun _ => h.awaiting_extract hextract⟩
  | case2 d e he =>
    obtain ⟨e', hfront, hextract⟩ | ⟨n, -, hextract⟩ | ⟨awaiting, -, -, hextract⟩ := h.extract
    · rw [hextract] at he ⊢
      cases he
      rw [unframe_error hfront]
      exact ⟨h, rfl, rfl, rfl, rfl, nofun⟩
    · rw [hextract] at he
      cases he
    · rw [hextract] at he
      cases he
  | case3 d payload he more ih =>
    obtain ⟨e, -, hextract⟩ | ⟨n, hfront, hextract⟩ | ⟨awaiting, -, -, hextract⟩ := h.extract
    · rw [hextract] at he
      cases he
    · have hpayload : payload = (d.buffer.toBytes.take n).drop 4 := by
        rw [hextract] at he
        cases he
        rfl
      have hmore := ih (by rw [hextract]; exact sound_of_length rfl)
      have hlimit : d.extract.1.limit = d.limit := by rw [hextract]
      have hbytes : d.extract.1.buffer.toBytes = d.buffer.toBytes.drop n := by
        rw [hextract, Buffer.toBytes_drop]
      rw [hlimit, hbytes] at hmore
      rw [unframe_some hfront, ← hpayload]
      exact ⟨hmore.sound, hmore.limit_eq, congrArg _ hmore.payloads, hmore.error, hmore.rest,
        hmore.awaiting⟩
    · rw [hextract] at he
      cases he

section

variable {limit : UInt32} {bytes : Bytes} {d : Deframer} {payloads : List Bytes}

/-- The next piece gives what it adds to the stream. -/
theorem Gave.piece (h : Gave limit (unframe limit bytes) (d, payloads, none)) (piece : Bytes) :
    Gave limit (unframe limit (bytes ++ piece))
      ((d.feed piece).takeAll.1, payloads ++ (d.feed piece).takeAll.2.1,
        (d.feed piece).takeAll.2.2) := by
  have hlimit : (d.feed piece).limit = limit := h.limit_eq
  have hbytes : (d.feed piece).buffer.toBytes = (unframe limit bytes).rest ++ piece := by
    rw [← h.rest]
    exact Buffer.toBytes_append _ _
  have htaken := (h.sound.feed piece).takeAll
  rw [hlimit, hbytes] at htaken
  rw [unframe_append piece h.error.symm]
  exact ⟨htaken.sound, htaken.limit_eq, congrArg₂ _ h.payloads htaken.payloads, htaken.error,
    htaken.rest, htaken.awaiting⟩

/-- Pieces give what they add to the stream; what is bad in it stays so, whatever comes
    after it. -/
theorem Gave.pieces (h : Gave limit (unframe limit bytes) (d, payloads, none))
    (pieces : List Bytes) :
    let out := takePieces d pieces
    let stream := unframe limit (bytes ++ pieces.flatten)
    payloads ++ out.2.1 = stream.payloads ∧ out.2.2 = stream.error ∧
      (out.2.2 = none → Gave limit stream (out.1, payloads ++ out.2.1, none)) := by
  induction pieces generalizing d bytes payloads with
  | nil =>
    simp only [takePieces, List.flatten_nil, List.append_nil]
    exact ⟨h.payloads, h.error, fun _ => h⟩
  | cons piece pieces ih =>
    have hpiece := h.piece piece
    rw [List.flatten_cons, ← List.append_assoc]
    cases he : (d.feed piece).takeAll.2.2 with
    | some e =>
      rw [he] at hpiece
      simp only [takePieces, he]
      rw [unframe_append_error pieces.flatten hpiece.error.symm]
      exact ⟨hpiece.payloads, rfl, nofun⟩
    | none =>
      rw [he] at hpiece
      simp only [takePieces, he, ← List.append_assoc]
      exact ih hpiece

end

/-! ## Pushing -/

/-- Up to more frames than there are bytes are all frames. -/
theorem extractUpTo_eq {d : Deframer} (h : d.Sound) {most : Nat} (taken : List Bytes)
    (hmost : d.buffer.size < most) :
    extractUpTo most taken d =
      (d.takeAll.1, d.takeAll.2.2.elim (.ok (taken.reverse ++ d.takeAll.2.1)) .error) := by
  induction most generalizing d taken with
  | zero => omega
  | succ most ih =>
    obtain ⟨e, -, hextract⟩ | ⟨n, hfront, hextract⟩ | ⟨awaiting, -, -, hextract⟩ := h.extract
    · rw [extractUpTo, hextract, takeAll_error hextract]
      rfl
    · obtain ⟨-, hpos, -, hle⟩ := frontFrame_eq_some hfront
      have hless : d.buffer.size - n < most := by
        have := d.buffer.length_toBytes
        omega
      rw [extractUpTo, hextract, takeAll_some hextract]
      simp only
      rw [ih (sound_of_length rfl) _ hless, List.reverse_cons, List.append_assoc]
      rfl
    · rw [extractUpTo, hextract, takeAll_none hextract]
      exact congrArg (Prod.mk _) (congrArg Except.ok (List.append_nil _).symm)

/-- A push adds bytes and takes all frames out; a bad length loses them. -/
theorem push_eq {d : Deframer} (h : d.Sound) (data : Bytes) :
    d.push data = ((d.feed data).takeAll.1,
      (d.feed data).takeAll.2.2.elim (.ok (d.feed data).takeAll.2.1) .error) :=
  extractUpTo_eq (h.feed data) [] (Nat.lt_succ_self _)

/-- Where no length is bad, pushing pieces takes out the same frames; else it meets the
    same error. -/
theorem pushAll_eq {d : Deframer} (h : d.Sound) (pieces : List Bytes) :
    (pushAll d pieces).1 = (takePieces d pieces).1 ∧
      (pushAll d pieces).2.2 = (takePieces d pieces).2.2 ∧
      ((takePieces d pieces).2.2 = none →
        (pushAll d pieces).2.1.flatten = (takePieces d pieces).2.1) := by
  induction pieces generalizing d with
  | nil => exact ⟨rfl, rfl, fun _ => rfl⟩
  | cons piece pieces ih =>
    have hpush := push_eq h piece
    cases he : (d.feed piece).takeAll.2.2 with
    | some e =>
      rw [he] at hpush
      simp only [pushAll, takePieces, hpush, he, Option.elim_some]
      exact ⟨trivial, trivial, nofun⟩
    | none =>
      rw [he] at hpush
      obtain ⟨hd, herror, hframes⟩ := ih (h.feed piece).takeAll.sound
      simp only [pushAll, takePieces, hpush, he, Option.elim_none, List.flatten_cons]
      exact ⟨hd, herror, fun hnone => congrArg _ (hframes hnone)⟩

/-- However a stream is cut into pieces, taking out every frame after each gives the frames of the
    stream, in order, and the error of the first bad length, if one follows the frames.  If none
    does, the bytes left and what is awaited are those of the stream, and pushing the pieces takes
    out the same frames.  So frames within the limit come out as they were put together, and
    nothing is left. -/
theorem takePieces_unframe (limit : UInt32) (pieces : List Bytes) :
    let stream := unframe limit pieces.flatten
    let out := takePieces { limit } pieces
    let pushed := pushAll { limit } pieces
    (pieces.flatten = stream.payloads.flatMap frameBytes ++ stream.rest ∧
      (∀ payload ∈ stream.payloads, 4 + payload.length ≤ limit.toNat) ∧
      stream.error = (Bytes.le32? stream.rest).bind (lengthFault? limit) ∧
      (stream.error = none → ∀ n, Bytes.le32? stream.rest = some n → stream.rest.length < n)) ∧
    out.2.1 = stream.payloads ∧ out.2.2 = stream.error ∧ pushed.2.2 = stream.error ∧
    (stream.error = none →
      (out.1.buffer.toBytes = stream.rest ∧ out.1.awaiting = .after stream.rest) ∧
      pushed.1 = out.1 ∧ pushed.2.1.flatten = stream.payloads) ∧
    ∀ payloads, (∀ payload ∈ payloads, 4 + payload.length ≤ limit.toNat) →
      pieces.flatten = payloads.flatMap frameBytes →
        pushed.2.1.flatten = payloads ∧ pushed.2.2 = none ∧ pushed.1.buffer.size = 0 ∧
          pushed.1.awaiting = .length := by
  intro stream out pushed
  have hfresh : Gave limit (unframe limit []) (({ limit } : Deframer), [], none) := by
    rw [unframe_none (by rfl)]
    exact ⟨sound_of_length rfl, rfl, rfl, rfl, rfl, fun _ => rfl⟩
  obtain ⟨hpayloads, herror, hgave⟩ := hfresh.pieces pieces
  obtain ⟨hd, hpushed, hframes⟩ := pushAll_eq hfresh.sound pieces
  have hleft : stream.error = none →
      (out.1.buffer.toBytes = stream.rest ∧ out.1.awaiting = .after stream.rest) ∧
        pushed.1 = out.1 ∧ pushed.2.1.flatten = stream.payloads := by
    intro hnone
    have hg := hgave (herror.trans hnone)
    exact ⟨⟨hg.rest, hg.awaiting rfl⟩, hd, (hframes (herror.trans hnone)).trans hpayloads⟩
  refine ⟨unframe_spec limit _, hpayloads, herror, hpushed.trans herror, hleft, ?_⟩
  intro payloads hfit hbytes
  have hstream : stream = ⟨payloads, [], none⟩ := by
    rw [← unframe_frameBytes hfit, ← hbytes]
  have hnone : stream.error = none := congrArg Unframed.error hstream
  obtain ⟨⟨hrest, hawaiting⟩, hsame, hflatten⟩ := hleft hnone
  rw [hstream] at hrest hawaiting hflatten
  refine ⟨hflatten, hpushed.trans (herror.trans hnone), ?_, hsame ▸ hawaiting⟩
  rw [hsame, ← Buffer.length_toBytes, hrest]
  rfl

end Deframer

end Depot
