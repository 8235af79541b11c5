/-
  Depot — from messages to bytes and back.

  A courier keeps messages in a backlog and hands their bytes out, some now and some
  later: to a writer that does not block, or to an outlet.  `Courier.Carries` accounts
  for every byte of a run; so a reader at the other end hears what was sent, wherever
  the writes stopped and however the bytes are cut (`run_heard`).
-/
import Depot.Proofs.Link.Reader
import Depot.Proofs.Wire.Backlog
import Depot.Wire.Sink
import Mathlib

namespace Depot

/-! ## Three ways to a frame -/

/-- The bytes of a message in a frame. -/
def Message.frame (m : Message) : Bytes := frameBytes m.encode

/-- A message in two segments, its encoding behind a length, and its encoding in one
    piece are the same bytes; the length field counts them if it can. -/
structure Message.Framed (m : Message) : Prop where
  segments : (Frame.ofMessage m).bytes = m.frame
  payload : (Frame.ofPayload m.encode).bytes = m.frame
  length : m.frame.length = 4 + m.encodedLength
  field : 4 + m.encodedLength < UInt32.size → Bytes.le32? m.frame = some (4 + m.encodedLength)

theorem Message.framed (m : Message) : m.Framed where
  segments := Frame.bytes_ofMessage m
  payload := Frame.bytes_ofPayload m.encode
  length := by rw [frame, length_frameBytes, length_encode]
  field := by
    intro h
    have hfield := @le32?_frameBytes m.encode (by rwa [length_encode]) []
    rwa [List.append_nil, length_encode] at hfield

/-! ## Couriers -/

/-- What a courier is told to do. -/
inductive Delivery (σ : Type u) where
  | push (m : Message)
  /-- Drain into a writer that gives these answers. -/
  | drain (answers : List Backlog.Answer)
  /-- Write to an outlet in this state. -/
  | write (outlet : σ)

/-- Sends messages. -/
structure Courier where
  backlog : Backlog := {}
  /-- The bytes accepted, in order. -/
  accepted : Bytes := []
  deriving DecidableEq, Repr

namespace Courier

variable {σ : Type u}

def step [Outlet σ] (c : Courier) : Delivery σ → Courier
  | .push m => { c with backlog := c.backlog.push (.ofMessage m) }
  | .drain answers =>
    let drained := c.backlog.drain answers
    ⟨drained.left, c.accepted ++ drained.accepted.flatten⟩
  | .write outlet =>
    let (backlog, taped, _) := c.backlog.writeAll (⟨outlet, c.accepted⟩ : Taped σ)
    ⟨backlog, taped.tape⟩

def run [Outlet σ] (steps : List (Delivery σ)) : Courier := steps.foldl step {}

/-- The message that a step adds. -/
def pushed? : Delivery σ → Option Message
  | .push m => some m
  | .drain _ | .write _ => none

/-- What was accepted, and then what waits, are the frames of the messages. -/
structure Carries (c : Courier) (messages : List Message) : Prop where
  bytes : c.accepted ++ c.backlog.bytes = messages.flatMap Message.frame
  counted : c.backlog.Counted

theorem Carries.step [Outlet σ] {c : Courier} {messages : List Message} (h : c.Carries messages)
    (d : Delivery σ) : (c.step d).Carries (messages ++ (pushed? d).toList) := by
  cases d with
  | push m =>
    refine ⟨?_, h.counted.append _⟩
    show c.accepted ++ (c.backlog.push (.ofMessage m)).bytes = _
    rw [Backlog.bytes_push, m.framed.segments, ← List.append_assoc, h.bytes]
    rw [pushed?, Option.toList_some, List.flatMap_append, List.flatMap_singleton]
  | drain answers =>
    rw [pushed?, Option.toList_none, List.append_nil]
    refine ⟨?_, h.counted.drain answers⟩
    show (c.accepted ++ (c.backlog.drain answers).accepted.flatten) ++
      (c.backlog.drain answers).left.bytes = _
    rw [List.append_assoc, Backlog.drain_conserves, h.bytes]
  | write outlet =>
    rw [pushed?, Option.toList_none, List.append_nil]
    exact ⟨(Backlog.writeAll_conserves ..).trans h.bytes, h.counted.writeAll _⟩

theorem run_carries [Outlet σ] (steps : List (Delivery σ)) :
    (run steps).Carries (steps.filterMap pushed?) := by
  induction steps using List.reverseRecOn with
  | nil => exact ⟨rfl, rfl⟩
  | append_singleton steps d ih =>
    rw [run, List.foldl_concat, List.filterMap_append]
    exact ih.step d

/-- Messages of a hop that fit into the frames a reader takes are heard as they were
    sent, and then the end, once nothing of them waits: whatever the writers took at a
    time, and whatever the reads bring at a time. -/
theorem run_heard [Outlet σ] {hop : Hop} {limit : UInt32} {steps : List (Delivery σ)}
    {cuts : List Bytes}
    (hfit : ∀ m ∈ steps.filterMap pushed?, m.hop = hop ∧ m.frame.length ≤ limit.toNat)
    (hdone : (run steps).backlog.isEmpty = true)
    (hcuts : cuts.flatten = (run steps).accepted) (hne : ∀ cut ∈ cuts, cut ≠ []) :
    (Reader.ofHop hop limit).listen true (cuts.map Arrival.data) =
        ((steps.filterMap pushed?).map Heard.message ++ [.closed none], 0) ∧
      ∀ m ∈ steps.filterMap pushed?, m.Framed ∧
        Bytes.le32? m.frame = some (4 + m.encodedLength) := by
  have hcarries := run_carries steps
  have hbytes : cuts.flatten = (steps.filterMap pushed?).flatMap Message.frame := by
    rw [hcuts, ← hcarries.bytes, hcarries.counted.isEmpty_iff.1 hdone, List.append_nil]
  refine ⟨?_, fun m hm => ⟨m.framed, m.framed.field ?_⟩⟩
  · have hhears := Reader.hears_frames fun m hm => (hfit m hm).imp_right fun h => by
      rwa [m.framed.length, ← m.length_encode] at h
    have hstream := Reader.Hears.readStream hne (hbytes ▸ hhears)
    rw [Reader.listen, hstream]
    rfl
  · rw [← m.framed.length]
    exact (hfit m hm).2.trans_lt limit.toNat_lt

/-- Two messages are sent in part to a writer that would block, and then to one that
    takes the rest in two calls; they are read in three pieces. -/
theorem run_heard_lookups :
    (Reader.ofHop .client 64).listen true
        ([[7, 0], [0, 0, 49, 97, 98, 6, 0, 0], [0, 54, 99]].map Arrival.data) =
      ([.message (.client (.lookup [97, 98])), .message (.client (.delete [99])), .closed none],
        0) := by
  have h := @run_heard Sink _ .client 64
    [.push (.client (.lookup [97, 98])), .drain [.accept 3, .wouldBlock],
      .push (.client (.delete [99])), .drain [.accept 6, .interrupted, .accept 9]]
    [[7, 0], [0, 0, 49, 97, 98, 6, 0, 0], [0, 54, 99]]
    (by decide) (by decide) (by decide) (by decide)
  exact h.1

end Courier

end Depot
