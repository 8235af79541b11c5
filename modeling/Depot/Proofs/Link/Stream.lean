/-
  Depot — what a reader tells of any stream.

  A stream may hold payloads that make no sense, and end within a frame or with a bad
  length.  `Deframer.Fed` says what a deframer keeps of the bytes that it was fed; from it,
  `pushAll_ok` and `pushAll_error` say which frames come out of a stream that is cut
  anywhere: all of them, or those before the piece that completes a bad length.
  `Reader.hear` is what a reader makes of pushed reads, and `listen_eq` that this is what is
  told, with one end behind it.
-/
import Depot.Proofs.Link.Reader
import Depot.Proofs.Wire.Cuts
import Mathlib

namespace Depot

/-! ## Pushing a stream -/

namespace Deframer

section

variable {d d' : Deframer} {piece : Bytes} (pieces : List Bytes)

theorem pushAll_cons_of_error {e : WireError} (h : d.push piece = (d', .error e)) :
    d.pushAll (piece :: pieces) = (d', [], some e) := by
  rw [pushAll, h]

theorem pushAll_cons_of_ok {frames : List Bytes} (h : d.push piece = (d', .ok frames)) :
    d.pushAll (piece :: pieces) =
      ((d'.pushAll pieces).1, frames :: (d'.pushAll pieces).2.1, (d'.pushAll pieces).2.2) := by
  rw [pushAll, h]

end

/-- The deframer was fed these bytes, and no length in them is bad. -/
structure Fed (limit : UInt32) (bytes : Bytes) (d : Deframer) : Prop where
  sound : d.Sound
  limit_eq : d.limit = limit
  kept : d.buffer.toBytes = (unframe limit bytes).rest
  clean : (unframe limit bytes).error = none

theorem fed_nil (limit : UInt32) : Fed limit [] { limit } where
  sound := sound_of_length rfl
  limit_eq := rfl
  kept := by rw [unframe_nil]; rfl
  clean := by rw [unframe_nil]

namespace Fed

variable {limit : UInt32} {bytes : Bytes} {d : Deframer} (h : Fed limit bytes d)
include h

/-- What is added completes a bad length. -/
theorem push_error {piece : Bytes} {e : WireError}
    (he : (unframe limit (bytes ++ piece)).error = some e) :
    ∃ d', d.push piece = (d', .error e) := by
  have htook := (h.sound.push piece).frames
  rw [h.limit_eq, h.kept] at htook
  rw [unframe_append piece h.clean] at he
  rw [Unframed.frames, he] at htook
  exact ⟨_, Prod.ext rfl htook⟩

/-- What is added completes frames. -/
theorem push_ok {piece : Bytes} (hnone : (unframe limit (bytes ++ piece)).error = none) :
    ∃ d' frames, d.push piece = (d', .ok frames) ∧ Fed limit (bytes ++ piece) d' ∧
      (unframe limit (bytes ++ piece)).payloads = (unframe limit bytes).payloads ++ frames := by
  have htook := h.sound.push piece
  rw [h.limit_eq, h.kept] at htook
  obtain ⟨hsound, hlimit, hrest, hframes⟩ := htook
  rw [unframe_append piece h.clean] at hnone ⊢
  rw [Unframed.frames, hnone] at hframes
  refine ⟨_, _, Prod.ext rfl hframes, ⟨hsound, hlimit, ?_, ?_⟩, rfl⟩
  · rw [hrest, unframe_append piece h.clean]
  · rw [unframe_append piece h.clean, hnone]

theorem pushAll_ok {pieces : List Bytes}
    (hnone : (unframe limit (bytes ++ pieces.flatten)).error = none) :
    ∃ d' frames, d.pushAll pieces = (d', frames, none) ∧
      (unframe limit (bytes ++ pieces.flatten)).payloads =
        (unframe limit bytes).payloads ++ frames.flatten := by
  induction pieces generalizing d bytes with
  | nil => exact ⟨d, [], rfl, by simp⟩
  | cons piece pieces ih =>
    rw [List.flatten_cons, ← List.append_assoc] at hnone ⊢
    cases he : (unframe limit (bytes ++ piece)).error with
    | some e =>
      rw [unframe_append_error _ he] at hnone
      cases hnone
    | none =>
      obtain ⟨d₁, first, hpush, h₁, hfirst⟩ := h.push_ok he
      obtain ⟨d', frames, hpushAll, hframes⟩ := ih h₁ hnone
      refine ⟨d', first :: frames, ?_, ?_⟩
      · rw [pushAll_cons_of_ok _ hpush, hpushAll]
      · rw [hframes, hfirst, List.flatten_cons, List.append_assoc]

/-- The frames before the piece that completes a bad length come out, and no more. -/
theorem pushAll_error {pieces : List Bytes} {e : WireError}
    (he : (unframe limit (bytes ++ pieces.flatten)).error = some e) :
    ∃ before piece after, pieces = before ++ piece :: after ∧
      (unframe limit (bytes ++ before.flatten)).error = none ∧
      (unframe limit (bytes ++ before.flatten ++ piece)).error = some e ∧
      ∃ d' frames, d.pushAll pieces = (d', frames, some e) ∧
        (unframe limit (bytes ++ before.flatten)).payloads =
          (unframe limit bytes).payloads ++ frames.flatten := by
  induction pieces generalizing d bytes with
  | nil =>
    rw [List.flatten_nil, List.append_nil, h.clean] at he
    cases he
  | cons piece pieces ih =>
    rw [List.flatten_cons, ← List.append_assoc] at he
    cases hpiece : (unframe limit (bytes ++ piece)).error with
    | some e' =>
      rw [unframe_append_error _ hpiece] at he
      cases he
      obtain ⟨d', hpush⟩ := h.push_error hpiece
      refine ⟨[], piece, pieces, rfl, ?_, ?_, d', [], ?_, ?_⟩
      · rw [List.flatten_nil, List.append_nil, h.clean]
      · rw [List.flatten_nil, List.append_nil, hpiece]
      · exact pushAll_cons_of_error _ hpush
      · simp
    | none =>
      obtain ⟨d₁, first, hpush, h₁, hfirst⟩ := h.push_ok hpiece
      obtain ⟨before, bad, after, rfl, hclean, hbad, d', frames, hpushAll, hframes⟩ := ih h₁ he
      refine ⟨piece :: before, bad, after, rfl, ?_, ?_, d', first :: frames, ?_, ?_⟩
      · rw [List.flatten_cons, ← List.append_assoc, hclean]
      · rw [List.flatten_cons, ← List.append_assoc, hbad]
      · rw [pushAll_cons_of_ok _ hpush, hpushAll]
      · rw [List.flatten_cons, ← List.append_assoc, hframes, hfirst, List.flatten_cons,
          List.append_assoc]

end Fed

end Deframer

namespace Reader

/-! ## Payloads -/

section

variable {hop : Hop} {ps : List Bytes} (qs : List Bytes)

theorem decodeAll_append (h : (decodeAll hop ps).2 = none) :
    decodeAll hop (ps ++ qs) =
      ((decodeAll hop ps).1 ++ (decodeAll hop qs).1, (decodeAll hop qs).2) := by
  induction ps with
  | nil => rfl
  | cons p ps ih =>
    cases hm : Message.decode hop p with
    | error e =>
      rw [decodeAll_of_error _ hm] at h
      cases h
    | ok m =>
      rw [decodeAll_of_ok _ hm] at h ⊢
      rw [List.cons_append, decodeAll_of_ok _ hm, ih h]
      rfl

/-- Nothing is decoded behind a payload that makes no sense. -/
theorem decodeAll_append_error {e : WireError} (h : (decodeAll hop ps).2 = some e) :
    decodeAll hop (ps ++ qs) = decodeAll hop ps := by
  induction ps with
  | nil => cases h
  | cons p ps ih =>
    cases hm : Message.decode hop p with
    | error e => rw [List.cons_append, decodeAll_of_error _ hm, decodeAll_of_error _ hm]
    | ok m =>
      rw [decodeAll_of_ok _ hm] at h
      rw [List.cons_append, decodeAll_of_ok _ hm, decodeAll_of_ok _ hm, ih h]

end

theorem map_ok_decodeAll (hop : Hop) (payloads : List Bytes) :
    (decodeAll hop payloads).1.map Except.ok =
      (payloads.map (Message.decode hop)).takeWhile Except.isOk := by
  induction payloads with
  | nil => rfl
  | cons p payloads ih =>
    cases hm : Message.decode hop p with
    | error e =>
      rw [decodeAll_of_error _ hm, List.map_cons, hm]
      rfl
    | ok m =>
      rw [decodeAll_of_ok _ hm, List.map_cons, List.map_cons, hm, ih]
      rfl

theorem decodeAll_eq_none_iff {hop : Hop} {payloads : List Bytes} :
    (decodeAll hop payloads).2 = none ↔
      ∀ decoded ∈ payloads.map (Message.decode hop), decoded.isOk = true := by
  induction payloads with
  | nil => exact ⟨nofun, fun _ => rfl⟩
  | cons p payloads ih =>
    rw [List.map_cons, List.forall_mem_cons, ← ih]
    cases hm : Message.decode hop p with
    | error e =>
      rw [decodeAll_of_error _ hm]
      simp [Except.isOk, Except.toBool]
    | ok m =>
      rw [decodeAll_of_ok _ hm]
      simp [Except.isOk, Except.toBool]

/-! ## Reads -/

/-- The messages in reads that a reader pushes, up to the first payload that makes no sense,
    and the error that ends the reader, if there is one. -/
def hear (r : Reader) (reads : List Bytes) : List Message × Option WireError :=
  let pushed := r.deframer.pushAll reads
  let decoded := decodeAll r.hop pushed.2.1.flatten
  (decoded.1, decoded.2.or pushed.2.2)

section

variable (r : Reader) {data : Bytes}

theorem read_of_error {d : Deframer} {e : WireError} (h : r.deframer.push data = (d, .error e)) :
    r.read data = ({ r with deframer := d }, [], some e) := by
  rw [read, h]

theorem read_of_ok {d : Deframer} {payloads : List Bytes}
    (h : r.deframer.push data = (d, .ok payloads)) :
    r.read data = ({ r with deframer := d }, decodeAll r.hop payloads) := by
  rw [read, h]

variable {r}

theorem hear_cons_of_error (data : Bytes) (reads : List Bytes) {e : WireError}
    (h : (r.read data).2.2 = some e) : r.hear (data :: reads) = (r.read data).2 := by
  cases hpush : r.deframer.push data with
  | mk d out =>
    cases out with
    | error e' =>
      rw [hear, Deframer.pushAll_cons_of_error reads hpush, r.read_of_error hpush]
      rfl
    | ok payloads =>
      rw [r.read_of_ok hpush] at h ⊢
      have hbad : (decodeAll r.hop payloads).2 = some e := h
      rw [hear, Deframer.pushAll_cons_of_ok reads hpush]
      simp only [List.flatten_cons, decodeAll_append_error _ hbad, hbad, Option.some_or]
      exact Prod.ext rfl hbad.symm

theorem hear_cons_of_none (data : Bytes) (reads : List Bytes) (h : (r.read data).2.2 = none) :
    r.hear (data :: reads) =
      ((r.read data).2.1 ++ ((r.read data).1.hear reads).1, ((r.read data).1.hear reads).2) := by
  cases hpush : r.deframer.push data with
  | mk d out =>
    cases out with
    | error e' =>
      rw [r.read_of_error hpush] at h
      cases h
    | ok payloads =>
      rw [r.read_of_ok hpush] at h ⊢
      rw [hear, Deframer.pushAll_cons_of_ok reads hpush]
      simp only [List.flatten_cons, decodeAll_append _ h]
      rfl

end

/-- What is told of messages and the error that ends a reader, if there is one. -/
def tell (heard : List Message × Option WireError) : List Heard :=
  heard.1.map Heard.message ++ (heard.2.map fun e => .closed (some (.wire e))).toList

/-- What is told of the reads of one arrival, and what is heard of them with those after them:
    no more after an error, else what the reader hears that is left. -/
theorem readAll_eq (r : Reader) (reads : List Bytes) :
    ∃ r' left, readAll true r reads = (r', tell (r.hear reads), left, (r.hear reads).2.isSome) ∧
      (∀ e, (r.hear reads).2 = some e → ∀ more, r.hear (reads ++ more) = r.hear reads) ∧
      ((r.hear reads).2 = none → ∀ more, r.hear (reads ++ more) =
        ((r.hear reads).1 ++ (r'.hear more).1, (r'.hear more).2)) := by
  induction reads generalizing r with
  | nil => exact ⟨r, [], rfl, by rintro e ⟨⟩, fun _ more => rfl⟩
  | cons data reads ih =>
    cases hread : r.read data with
    | mk r₁ out =>
      obtain ⟨messages, error⟩ := out
      rw [readAll, hread]
      simp only [Bool.not_true, Bool.false_and, Bool.false_eq_true, if_false, List.cons_append]
      cases error with
      | some e =>
        -- The error is that of the first read, whatever comes after it.
        have hhear := fun reads => r.hear_cons_of_error data reads (by rw [hread])
        simp only [hhear, hread]
        exact ⟨r₁, reads, rfl, fun _ _ _ => trivial, by rintro ⟨⟩⟩
      | none =>
        have hhear := fun reads => r.hear_cons_of_none data reads (by rw [hread])
        obtain ⟨r', left, hreads, hbad, hgood⟩ := ih r₁
        simp only [hhear, hread, hreads]
        refine ⟨r', left, ?_, ?_, ?_⟩
        · simp only [tell, List.map_append, List.append_assoc]
        · intro e he more
          rw [hbad e he more]
        · intro hnone more
          rw [hgood hnone more, List.append_assoc]

/-- A stream is told as it is heard, with one end behind the messages. -/
theorem readStream_eq (r : Reader) {cuts : List Bytes} (hcuts : ∀ cut ∈ cuts, cut ≠ []) :
    ∃ unread, readStream true r (cuts.map Arrival.data) =
      ((r.hear (cuts.flatMap readsOf)).1.map Heard.message ++
        [.closed ((r.hear (cuts.flatMap readsOf)).2.map Fault.wire)], unread) := by
  induction cuts generalizing r with
  | nil => exact ⟨0, rfl⟩
  | cons cut cuts ih =>
    have hne : cut.isEmpty = false := List.isEmpty_eq_false_iff.2 (hcuts cut List.mem_cons_self)
    obtain ⟨r', left, hreads, hbad, hgood⟩ := r.readAll_eq (readsOf cut)
    rw [List.map_cons, readStream, hne, hreads, List.flatMap_cons]
    cases he : (r.hear (readsOf cut)).2 with
    | some e =>
      rw [hbad e he]
      simp [tell, he]
    | none =>
      obtain ⟨unread, hmore⟩ := ih r' fun c hc => hcuts c (List.mem_cons_of_mem _ hc)
      rw [hgood he]
      simp [tell, he, hmore]

theorem listen_eq (r : Reader) {cuts : List Bytes} (hcuts : ∀ cut ∈ cuts, cut ≠ []) :
    ∃ unread, r.listen true (cuts.map Arrival.data) =
      ((r.hear (cuts.flatMap readsOf)).1.map Heard.message ++
        [.closed ((r.hear (cuts.flatMap readsOf)).2.map Fault.wire)], unread) := by
  obtain ⟨unread, hstream⟩ := r.readStream_eq hcuts
  exact ⟨unread, by rw [listen, hstream]; rfl⟩

/-! ## Streams -/

section

variable {hop : Hop} {limit : UInt32} {reads : List Bytes}

/-- Where no length is bad, the frames of the stream are decoded. -/
theorem hear_of_none (h : (unframe limit reads.flatten).error = none) :
    (ofHop hop limit).hear reads = decodeAll hop (unframe limit reads.flatten).payloads := by
  obtain ⟨d, frames, hpushed, hframes⟩ := (Deframer.fed_nil limit).pushAll_ok h
  rw [List.nil_append, unframe_nil] at hframes
  rw [hframes, hear, ofHop, hpushed]
  exact Prod.ext rfl Option.or_none

/-- The frames are decoded that are complete before the read which completes a bad length. -/
theorem hear_of_error {e : WireError} (h : (unframe limit reads.flatten).error = some e) :
    ∃ before read after, reads = before ++ read :: after ∧
      (unframe limit before.flatten).error = none ∧
      (unframe limit (before.flatten ++ read)).error = some e ∧
      (ofHop hop limit).hear reads =
        ((decodeAll hop (unframe limit before.flatten).payloads).1,
          (decodeAll hop (unframe limit before.flatten).payloads).2.or (some e)) := by
  obtain ⟨before, read, after, hreads, hclean, hbad, d, frames, hpushed, hframes⟩ :=
    (Deframer.fed_nil limit).pushAll_error h
  rw [List.nil_append] at hclean hbad hframes
  rw [unframe_nil] at hframes
  refine ⟨before, read, after, hreads, hclean, hbad, ?_⟩
  rw [hframes, hear, ofHop, hpushed]
  rfl

end

theorem flatten_flatMap_readsOf (cuts : List Bytes) :
    (cuts.flatMap readsOf).flatten = cuts.flatten := by
  induction cuts with
  | nil => rfl
  | cons cut cuts ih =>
    rw [List.flatMap_cons, List.flatten_append, flatten_readsOf, ih, List.flatten_cons]

/-- **However a stream is cut, a reader tells messages and then its end, once and last.**  The
    messages are those of the first frames, each once and in order: where no length is bad, of
    all frames before the first one that makes no sense.  The end is without an error exactly
    if no length is bad and every frame makes sense, also if the last one is not complete. -/
theorem listen_stream (hop : Hop) (limit : UInt32) (cuts : List Bytes)
    (hcuts : ∀ cut ∈ cuts, cut ≠ []) :
    let stream := unframe limit cuts.flatten
    let decoded := stream.payloads.map (Message.decode hop)
    ∃ (messages : List Message) (error : Option Fault) (unread : Nat),
      (ofHop hop limit).listen true (cuts.map Arrival.data) =
        (messages.map Heard.message ++ [.closed error], unread) ∧
      messages.map Except.ok <+: decoded ∧
      (stream.error = none → messages.map Except.ok = decoded.takeWhile Except.isOk) ∧
      (error = none ↔ stream.error = none ∧ ∀ result ∈ decoded, result.isOk = true) := by
  intro stream decoded
  obtain ⟨unread, hlisten⟩ := (ofHop hop limit).listen_eq hcuts
  have hbytes := flatten_flatMap_readsOf cuts
  refine ⟨_, _, unread, hlisten, ?_⟩
  cases he : stream.error with
  | none =>
    have hhear := @hear_of_none hop limit (cuts.flatMap readsOf) (by rw [hbytes, he])
    rw [hbytes] at hhear
    have hmessages := map_ok_decodeAll hop stream.payloads
    rw [hhear, hmessages, Option.map_eq_none_iff, decodeAll_eq_none_iff]
    exact ⟨List.takeWhile_prefix _, fun _ => rfl, fun h => ⟨rfl, h⟩, And.right⟩
  | some e =>
    obtain ⟨before, read, after, hreads, -, -, hhear⟩ :=
      @hear_of_error hop limit (cuts.flatMap readsOf) e (by rw [hbytes, he])
    have hfirst := payloads_prefix limit before.flatten (read :: after).flatten
    rw [← List.flatten_append, ← hreads, hbytes] at hfirst
    rw [hhear, map_ok_decodeAll]
    refine ⟨(List.takeWhile_prefix _).trans (hfirst.map _), by rintro ⟨⟩, ?_⟩
    simp

/-- A lookup, a payload of no operation, and the beginning of a frame, in three pieces. -/
theorem listen_stream_lookup :
    let cuts : List Bytes := [[6, 0, 0], [0, 49, 97, 5, 0], [0, 0, 0, 6, 0]]
    unframe 64 cuts.flatten = ⟨[[49, 97], [0]], [6, 0], none⟩ ∧
      ∃ error unread, error ≠ none ∧
        (ofHop .client 64).listen true (cuts.map Arrival.data) =
          ([.message (.client (.lookup [97])), .closed error], unread) := by
  intro cuts
  have hstream : unframe 64 cuts.flatten = ⟨[[49, 97], [0]], [6, 0], none⟩ := by
    rw [unframe_some (n := 6) (by decide), unframe_some (n := 5) (by decide),
      unframe_none (by decide)]
    rfl
  obtain ⟨messages, error, unread, hlisten, -, hmessages, herror⟩ :=
    listen_stream .client 64 cuts (by decide)
  rw [hstream] at hmessages herror
  have hone : messages = [.client (.lookup [97])] :=
    List.map_injective_iff.2 (fun _ _ => Except.ok.inj) (hmessages rfl)
  rw [hone] at hlisten
  refine ⟨hstream, error, unread, ?_, hlisten⟩
  rw [ne_eq, herror]
  decide

end Reader

end Depot
