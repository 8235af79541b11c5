/-
  Depot — what a session receives of any stream.

  The bytes that a session keeps and those that have arrived behind them are one stream.
  `Session.front` says what is at the front of a stream, and `Faces.receiveFrom` that this is
  received, however the stream is cut.  So a session receives the frames before a bad
  length, and then its error over and over.  A reader takes all frames of a read at once:
  `Reader.listen_bad_length` says which of them it loses where a session of the same bytes
  loses none.
-/
import Depot.Client.Session
import Depot.Proofs.Link.Pipeline
import Depot.Proofs.Link.Stream
import Mathlib

namespace Depot

/-! ## Frames of messages -/

theorem Message.encode_le_of_frame {m : Message} {most : Nat} (h : m.frame.length ≤ most) :
    4 + m.encode.length ≤ most := by
  rwa [← length_frameBytes]

/-- A message whose frame fits into a limit can be read back. -/
theorem Message.encodable_of_frame {m : Message} {limit : UInt32}
    (h : m.frame.length ≤ limit.toNat) : m.Encodable :=
  encodable_of_length
    ((Nat.le_of_add_left_le (encode_le_of_frame h)).trans_lt limit.toNat_lt)

theorem Message.flatMap_frame (messages : List Message) :
    messages.flatMap Message.frame = (messages.map Message.encode).flatMap frameBytes := by
  rw [List.flatMap_map]
  rfl

namespace Session

/-! ## One message -/

/-- What is received at the front of a stream, and the bytes after it. -/
def front (limit : UInt32) (hasEnded : Bool) (bytes : Bytes) : Attempt Message × Bytes :=
  match frontFrame limit bytes with
  | .error e => (.failed (.wire e), bytes)
  | .ok (some n) => (decoded ((bytes.take n).drop 4), bytes.drop n)
  | .ok none => (if hasEnded then .failed .closed else .blocked, bytes)

section

variable {limit : UInt32} (hasEnded : Bool) {bytes : Bytes}

theorem front_of_error {e : WireError} (h : frontFrame limit bytes = .error e) :
    front limit hasEnded bytes = (.failed (.wire e), bytes) := by
  rw [front, h]

theorem front_of_frame {n : Nat} (h : frontFrame limit bytes = .ok (some n)) :
    front limit hasEnded bytes = (decoded ((bytes.take n).drop 4), bytes.drop n) := by
  rw [front, h]

theorem front_of_none (h : frontFrame limit bytes = .ok none) :
    front limit hasEnded bytes = (if hasEnded then .failed .closed else .blocked, bytes) := by
  rw [front, h]

theorem front_message {m : Message} (hhop : m.hop = .client) (hm : m.frame.length ≤ limit.toNat)
    (more : Bytes) : front limit hasEnded (m.frame ++ more) = (.done m, more) := by
  have hlength := length_frameBytes m.encode
  have hdecoded : decoded m.encode = .done m := by
    rw [decoded, Message.decode_eq_ok_iff.2 ⟨hhop, rfl, Message.encodable_of_frame hm⟩]
  rw [Message.frame, front_of_frame _ (frontFrame_frameBytes (Message.encode_le_of_frame hm) more),
    List.take_left' hlength, List.drop_left' hlength, drop_frameBytes, hdecoded]

end

/-- The bytes that a session keeps, and those that have arrived, are this stream of frames
    of up to `limit` bytes. -/
structure Faces (limit : UInt32) (bytes : Bytes) (d : Deframer) (reads : List Bytes) : Prop where
  sound : d.Sound
  limit_eq : d.limit = limit
  stream : d.buffer.toBytes ++ reads.flatten = bytes

theorem Faces.receiveFrom {limit : UInt32} {bytes : Bytes} {d : Deframer} {reads : List Bytes}
    (h : Faces limit bytes d reads) (hasEnded : Bool) :
    ∃ d' reads', receiveFrom hasEnded d reads = (d', reads', (front limit hasEnded bytes).1) ∧
      Faces limit (front limit hasEnded bytes).2 d' reads' := by
  obtain ⟨hsound, rfl, rfl⟩ := h
  induction reads generalizing d with
  | nil =>
    rw [List.flatten_nil, List.append_nil, Session.receiveFrom]
    obtain ⟨e, hfront, hextract⟩ | ⟨n, hfront, hextract⟩ | ⟨awaiting, hfront, hs, hextract⟩ :=
      hsound.extract
    · rw [hextract, front_of_error _ hfront]
      exact ⟨d, [], rfl, hsound, rfl, List.append_nil _⟩
    · rw [hextract, front_of_frame _ hfront]
      exact ⟨_, [], rfl, Deframer.sound_of_length rfl, rfl, List.append_nil _⟩
    · rw [hextract, front_of_none _ hfront]
      exact ⟨_, [], rfl, hs, rfl, List.append_nil _⟩
  | cons data reads ih =>
    rw [Session.receiveFrom]
    obtain ⟨e, hfront, hextract⟩ | ⟨n, hfront, hextract⟩ | ⟨awaiting, hfront, hs, hextract⟩ :=
      hsound.extract
    · rw [hextract, front_of_error _ (frontFrame_append_error _ hfront)]
      exact ⟨d, data :: reads, rfl, hsound, rfl, rfl⟩
    · obtain ⟨-, -, -, hle⟩ := frontFrame_eq_some hfront
      rw [hextract, front_of_frame _ (frontFrame_append _ hfront),
        List.take_append_of_le_length hle, List.drop_append_of_le_length hle]
      exact ⟨_, data :: reads, rfl, Deframer.sound_of_length rfl, rfl, rfl⟩
    · have hfed := ih (hs.feed data)
      have hbytes : (Deframer.feed { d with awaiting } data).buffer.toBytes =
          d.buffer.toBytes ++ data := Buffer.toBytes_append _ _
      rw [hbytes, List.append_assoc, ← List.flatten_cons] at hfed
      rw [hextract]
      exact hfed

/-! ## Messages, one after the other -/

/-- Receive so many times. -/
def receiveMany : (count : Nat) → Session → Inlet → List (Attempt Message)
  | 0, _, _ => []
  | count + 1, s, inlet =>
    let received := s.receive inlet
    received.2.2 :: receiveMany count received.1 received.2.1

/-- What is received of a stream, so many times. -/
def fronts (limit : UInt32) (hasEnded : Bool) : (count : Nat) → Bytes → List (Attempt Message)
  | 0, _ => []
  | count + 1, bytes =>
    let first := front limit hasEnded bytes
    first.1 :: fronts limit hasEnded count first.2

theorem Faces.receiveMany {limit : UInt32} {bytes : Bytes} {s : Session} {inlet : Inlet}
    (h : Faces limit bytes s.deframer inlet.reads) (count : Nat) :
    receiveMany count s inlet = fronts limit inlet.hasEnded count bytes := by
  induction count generalizing s inlet bytes with
  | zero => rfl
  | succ count ih =>
    obtain ⟨d', reads', hreceive, h'⟩ := h.receiveFrom inlet.hasEnded
    rw [Session.receiveMany, fronts, receive, hreceive]
    exact congrArg _ (ih h')

section

variable {limit : UInt32} {bad : Bytes} {e : WireError} (hasEnded : Bool)

theorem fronts_bad (hbad : frontFrame limit bad = .error e) (count : Nat) :
    fronts limit hasEnded count bad = List.replicate count (.failed (.wire e)) := by
  induction count with
  | zero => rfl
  | succ count ih =>
    rw [fronts, front_of_error _ hbad, List.replicate_succ, ← ih]

/-- All messages before a bad length are received, and then its error each time. -/
theorem fronts_messages (hbad : frontFrame limit bad = .error e) (count : Nat)
    {messages : List Message}
    (hfit : ∀ m ∈ messages, m.hop = .client ∧ m.frame.length ≤ limit.toNat) :
    fronts limit hasEnded (messages.length + count) (messages.flatMap Message.frame ++ bad) =
      messages.map Attempt.done ++ List.replicate count (.failed (.wire e)) := by
  induction messages with
  | nil =>
    rw [List.length_nil, Nat.zero_add]
    exact fronts_bad hasEnded hbad count
  | cons m messages ih =>
    obtain ⟨hhop, hm⟩ := hfit m List.mem_cons_self
    rw [List.flatMap_cons, List.append_assoc, List.length_cons, Nat.add_right_comm, fronts,
      front_message _ hhop hm, ih fun m' h' => hfit m' (List.mem_cons_of_mem _ h')]
    rfl

end

/-- A session receives all messages before a bad length, and then its error each time, however
    the bytes are cut. -/
theorem receiveMany_bad_length {limit : UInt32} {messages : List Message} {bad : Bytes}
    {e : WireError} {reads : List Bytes}
    (hfit : ∀ m ∈ messages, m.hop = .client ∧ m.frame.length ≤ limit.toNat)
    (hbad : (Bytes.le32? bad).bind (lengthFault? limit) = some e)
    (hreads : reads.flatten = messages.flatMap Message.frame ++ bad) (hasEnded : Bool)
    (count : Nat) :
    receiveMany (messages.length + count) { deframer := { limit } } { reads, hasEnded } =
      messages.map Attempt.done ++ List.replicate count (.failed (.wire e)) := by
  have hfaces : Faces limit reads.flatten { limit } reads :=
    ⟨Deframer.sound_of_length rfl, rfl, rfl⟩
  rw [Faces.receiveMany hfaces, hreads]
  exact fronts_messages hasEnded (frontFrame_of_lengthFault hbad) count hfit

end Session

/-! ## Beside a reader -/

namespace Reader

/-- The messages heard before a bad length are those whose frames are complete before the read
    which completes the length. -/
theorem hear_bad_length {hop : Hop} {limit : UInt32} {messages : List Message} {bad : Bytes}
    {e : WireError} {reads : List Bytes}
    (hfit : ∀ m ∈ messages, m.hop = hop ∧ m.frame.length ≤ limit.toNat)
    (hbad : (Bytes.le32? bad).bind (lengthFault? limit) = some e)
    (hreads : reads.flatten = messages.flatMap Message.frame ++ bad) :
    let frames := messages.flatMap Message.frame
    ∃ before read after told lost, reads = before ++ read :: after ∧
      before.flatten.length < frames.length + 4 ∧
      frames.length + 4 ≤ (before.flatten ++ read).length ∧
      messages = told ++ lost ∧
      told.map Message.encode = (unframe limit before.flatten).payloads ∧
      (lost = [] ↔ frames.length ≤ before.flatten.length) ∧
      (ofHop hop limit).hear reads = (told, some e) := by
  intro frames
  have hpayloads : ∀ payload ∈ messages.map Message.encode, 4 + payload.length ≤ limit.toNat := by
    intro payload hpayload
    obtain ⟨m, hm, rfl⟩ := List.mem_map.1 hpayload
    exact Message.encode_le_of_frame (hfit m hm).2
  have hframes : frames = (messages.map Message.encode).flatMap frameBytes :=
    Message.flatMap_frame messages
  have hstream := unframe_frameBytes_append hpayloads bad
  rw [unframe_error (frontFrame_of_lengthFault hbad), List.append_nil, ← hframes, ← hreads]
    at hstream
  obtain ⟨before, read, after, hcut, hclean, hread, hhear⟩ :=
    @hear_of_error hop limit reads e (by rw [hstream])
  have hbefore : before.flatten ++ (read ++ after.flatten) =
      (messages.map Message.encode).flatMap frameBytes ++ bad := by
    rw [← hframes, ← hreads, hcut, List.flatten_append, List.flatten_cons]
  have hwith : (before.flatten ++ read) ++ after.flatten =
      (messages.map Message.encode).flatMap frameBytes ++ bad := by
    rw [List.append_assoc, hbefore]
  -- What was taken out before the read are the first payloads.
  obtain ⟨rest, hrest⟩ := payloads_prefix limit before.flatten (read ++ after.flatten)
  rw [hbefore, ← hframes, ← hreads, hstream] at hrest
  obtain ⟨told, lost, hmessages, htold, hlost⟩ := List.map_eq_append_iff.1 hrest.symm
  have hshort := (unframe_clean_iff hpayloads hbad hbefore).1 hclean
  have hlong := mt (unframe_clean_iff hpayloads hbad hwith).2 (by rw [hread]; simp)
  have hall := unframe_payloads_iff hpayloads hbad hbefore
  rw [← hframes] at hshort hlong hall
  refine ⟨before, read, after, told, lost, hcut, hshort, not_lt.1 hlong, hmessages, htold, ?_, ?_⟩
  · rw [← hall, ← htold, hmessages, List.map_append, List.self_eq_append_right, List.map_eq_nil_iff]
  · have hdecode : decodeAll hop (told.map Message.encode) = (told, none) := by
      refine decodeAll_encode fun m hm => ?_
      obtain ⟨hhop, hm⟩ := hfit m (hmessages ▸ List.mem_append_left _ hm)
      exact ⟨hhop, Message.encodable_of_frame hm⟩
    rw [hhear, ← htold, hdecode]
    rfl


/-- **Frames before a bad length, however they are cut: a reader tells those that are complete
    before the read which completes the length, and loses the others.**  So it loses none
    exactly if no byte of a frame is in that read.  A session receives them all from the same
    reads, and then the error each time. -/
theorem listen_bad_length {hop : Hop} {limit : UInt32} {messages : List Message} {bad : Bytes}
    {e : WireError} {cuts : List Bytes}
    (hfit : ∀ m ∈ messages, m.hop = hop ∧ m.frame.length ≤ limit.toNat)
    (hbad : (Bytes.le32? bad).bind (lengthFault? limit) = some e)
    (hcuts : cuts.flatten = messages.flatMap Message.frame ++ bad)
    (hne : ∀ cut ∈ cuts, cut ≠ []) :
    let frames := messages.flatMap Message.frame
    let reads := cuts.flatMap readsOf
    (∃ before read after told lost unread, reads = before ++ read :: after ∧
      before.flatten.length < frames.length + 4 ∧
      frames.length + 4 ≤ (before.flatten ++ read).length ∧
      messages = told ++ lost ∧
      told.map Message.encode = (unframe limit before.flatten).payloads ∧
      (lost = [] ↔ frames.length ≤ before.flatten.length) ∧
      (ofHop hop limit).listen true (cuts.map Arrival.data) =
        (told.map Heard.message ++ [.closed (some (.wire e))], unread)) ∧
    (hop = .client → ∀ hasEnded count,
      Session.receiveMany (messages.length + count) { deframer := { limit } }
          { reads, hasEnded } =
        messages.map Attempt.done ++ List.replicate count (.failed (.wire e))) := by
  intro frames reads
  have hreads : reads.flatten = frames ++ bad := (flatten_flatMap_readsOf cuts).trans hcuts
  constructor
  · obtain ⟨before, read, after, told, lost, hcut, hshort, hlong, hmessages, htold, hlost, hhear⟩ :=
      hear_bad_length hfit hbad hreads
    obtain ⟨unread, hlisten⟩ := (ofHop hop limit).listen_eq hne
    rw [hhear] at hlisten
    exact ⟨before, read, after, told, lost, unread, hcut, hshort, hlong, hmessages, htold, hlost,
      hlisten⟩
  · rintro rfl hasEnded count
    exact Session.receiveMany_bad_length hfit hbad hreads hasEnded count

/-- Two requests and a length of 0, in two pieces. -/
theorem listen_bad_length_lookup :
    let messages : List Message := [.client (.lookup [97]), .client (.delete [99])]
    let cuts : List Bytes := [[6, 0, 0, 0, 49, 97, 6, 0], [0, 0, 54, 99, 0, 0, 0, 0]]
    cuts.flatten = messages.flatMap Message.frame ++ [0, 0, 0, 0] ∧
      (∃ told lost unread, messages = told ++ lost ∧
        (ofHop .client 64).listen true (cuts.map Arrival.data) =
          (told.map Heard.message ++ [.closed (some (.wire (.badFrameLength 0)))], unread)) ∧
      Session.receiveMany 3 { deframer := { limit := 64 } } { reads := cuts.flatMap readsOf } =
        messages.map Attempt.done ++ [.failed (.wire (.badFrameLength 0))] := by
  intro messages cuts
  have hbytes : cuts.flatten = messages.flatMap Message.frame ++ [0, 0, 0, 0] := by decide
  have h := @listen_bad_length .client 64 messages [0, 0, 0, 0] (.badFrameLength 0) cuts
    (by decide) (by decide) hbytes (by decide)
  obtain ⟨⟨_, _, _, told, lost, unread, -, -, -, hmessages, -, -, hlisten⟩, hreceive⟩ := h
  exact ⟨hbytes, ⟨told, lost, unread, hmessages, hlisten⟩, hreceive rfl false 1⟩

/-- A request that comes in one read with a length of 0 is lost.  It is told if the length comes
    in a read of its own, and received either way. -/
theorem listen_lost_lookup :
    (ofHop .client 64).listen true [.data [6, 0, 0, 0, 49, 97, 0, 0, 0, 0]] =
        ([.closed (some (.wire (.badFrameLength 0)))], 0) ∧
      (ofHop .client 64).listen true [.data [6, 0, 0, 0, 49, 97], .data [0, 0, 0, 0]] =
        ([.message (.client (.lookup [97])), .closed (some (.wire (.badFrameLength 0)))], 0) ∧
      Session.receiveMany 2 { deframer := { limit := 64 } }
          { reads := [[6, 0, 0, 0, 49, 97, 0, 0, 0, 0]] } =
        [.done (.client (.lookup [97])), .failed (.wire (.badFrameLength 0))] := by
  decide

end Reader

end Depot
