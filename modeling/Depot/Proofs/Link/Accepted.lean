/-
  Depot — which messages readers accept.

  A message is `Accepted` if some stream makes a reader on its hop tell it, and `Passes` if
  the reader on its hop tells it of its frame, however the frame is cut.  Both hold of
  exactly the messages that fit (`Accepted.fits`, `Fits.passes`, `Passes.accepted`).
-/
import Depot.Proofs.Link.Reader
import Depot.Proofs.Node.Sizes

namespace Depot

/-- The payloads that are taken out of a stream are within the limit. -/
theorem length_of_mem_unframe {limit : UInt32} {bytes payload : Bytes}
    (h : payload ∈ (unframe limit bytes).payloads) : 4 + payload.length ≤ limit.toNat := by
  fun_induction unframe limit bytes with
  | case1 bytes e hf => simp at h
  | case2 bytes hf => simp at h
  | case3 bytes n hf tail ih =>
    obtain ⟨-, hpos, hmost, hle⟩ := frontFrame_eq_some hf
    rcases List.mem_cons.1 h with rfl | h
    · simp only [List.length_drop, List.length_take]
      omega
    · exact ih h

namespace Reader

/-- What a reader tells came in frames of its hop within its limit. -/
def Tells (r : Reader) (told : List Heard) : Prop :=
  ∀ m, .message m ∈ told → m.hop = r.hop ∧ 4 + m.encode.length ≤ r.deframer.limit.toNat

/-- A reader that goes on as it was. -/
structure Follows (r r' : Reader) : Prop where
  sound : r'.deframer.Sound
  hop : r'.hop = r.hop
  limit : r'.deframer.limit = r.deframer.limit

theorem Follows.tells {r r' : Reader} {told : List Heard} (h : r.Follows r') (ht : r'.Tells told) :
    r.Tells told := by
  intro m hm
  rw [← h.hop, ← h.limit]
  exact ht m hm

theorem Tells.append {r : Reader} {before after : List Heard} (hb : r.Tells before)
    (ha : r.Tells after) : r.Tells (before ++ after) := by
  intro m hm
  rcases List.mem_append.1 hm with hm | hm
  · exact hb m hm
  · exact ha m hm

theorem tells_closed (r : Reader) (error : Option Fault) : r.Tells [.closed error] := by
  intro m hm
  simp at hm

theorem mem_decodeAll {hop : Hop} {payloads : List Bytes} {m : Message}
    (h : m ∈ (decodeAll hop payloads).1) : m.hop = hop ∧ m.encode ∈ payloads := by
  induction payloads with
  | nil => simp [decodeAll] at h
  | cons payload payloads ih =>
    cases hd : Message.decode hop payload with
    | error e => simp [decodeAll_of_error _ hd] at h
    | ok m' =>
      simp only [decodeAll_of_ok _ hd, List.mem_cons] at h
      rcases h with rfl | h
      · obtain ⟨hhop, henc, -⟩ := Message.decode_eq_ok_iff.1 hd
        simp [hhop, henc]
      · obtain ⟨hhop, hin⟩ := ih h
        simp [hhop, hin]

theorem tells_read {r : Reader} (h : r.deframer.Sound) (data : Bytes) :
    r.Follows (r.read data).1 ∧ r.Tells ((r.read data).2.1.map Heard.message) := by
  have htook := h.push data
  unfold Reader.read
  cases hpush : r.deframer.push data with
  | mk d out =>
    rw [hpush] at htook
    obtain ⟨hsound, hlimit, -, hframes⟩ := htook
    cases out with
    | error e => exact ⟨⟨hsound, rfl, hlimit⟩, by intro m hm; simp at hm⟩
    | ok payloads =>
      refine ⟨⟨hsound, rfl, hlimit⟩, ?_⟩
      intro m hm
      obtain ⟨m', hm', he⟩ := List.mem_map.1 hm
      cases he
      obtain ⟨hhop, hin⟩ := mem_decodeAll hm'
      refine ⟨hhop, ?_⟩
      -- A push that fails gives no payloads at all.
      unfold Unframed.frames at hframes
      split at hframes
      · cases hframes
        exact length_of_mem_unframe hin
      · cases hframes

theorem tells_readAll {r r' : Reader} {listens ended : Bool} {reads left : List Bytes}
    {told : List Heard} (h : r.deframer.Sound)
    (hr : readAll listens r reads = (r', told, left, ended)) : r.Follows r' ∧ r.Tells told := by
  induction reads generalizing r told with
  | nil =>
    cases hr
    exact ⟨⟨h, rfl, rfl⟩, by intro m hm; simp at hm⟩
  | cons data reads ih =>
    obtain ⟨hfollows, htells⟩ := tells_read h data
    unfold readAll at hr
    obtain ⟨⟨r₁, messages, error⟩, hread⟩ : ∃ out, r.read data = out := ⟨_, rfl⟩
    rw [hread] at hr hfollows htells
    dsimp only at hr hfollows htells
    split at hr
    · cases hr
      exact ⟨hfollows, by intro m hm; simp at hm⟩
    · cases error with
      | some e =>
        cases hr
        exact ⟨hfollows, htells.append (r.tells_closed _)⟩
      | none =>
        obtain ⟨⟨r₂, more, left', ended'⟩, hmore⟩ : ∃ out, readAll listens r₁ reads = out :=
          ⟨_, rfl⟩
        rw [hmore] at hr
        cases hr
        obtain ⟨hfollows', htells'⟩ := ih hfollows.sound hmore
        refine ⟨⟨hfollows'.sound, ?_, ?_⟩, htells.append (hfollows.tells htells')⟩
        · exact hfollows'.hop.trans hfollows.hop
        · exact hfollows'.limit.trans hfollows.limit

theorem tells_readStream {r : Reader} {listens : Bool} {arrivals : List Arrival}
    (h : r.deframer.Sound) : r.Tells (readStream listens r arrivals).1 := by
  induction arrivals generalizing r with
  | nil => exact r.tells_closed _
  | cons arrival arrivals ih =>
    cases arrival with
    | fail kind => exact r.tells_closed _
    | data bytes =>
      unfold readStream
      split
      · exact r.tells_closed _
      · obtain ⟨⟨r', told, left, ended⟩, hall⟩ : ∃ out, readAll listens r (readsOf bytes) = out :=
          ⟨_, rfl⟩
        obtain ⟨hfollows, htells⟩ := tells_readAll h hall
        rw [hall]
        cases ended with
        | true => exact htells
        | false => exact htells.append (hfollows.tells (ih hfollows.sound))

theorem tells_listen {r : Reader} (h : r.deframer.Sound) (listens : Bool)
    (arrivals : List Arrival) : r.Tells (r.listen listens arrivals).1 := by
  unfold listen
  intro m hm
  cases listens with
  | true => exact tells_readStream h m hm
  | false => simp at hm

end Reader

namespace Message

variable {limit : UInt32} {m : Message}

/-- The reader of a link on which the message is said, on a node that takes frames of up to
    `limit` bytes from clients. -/
def reader (limit : UInt32) (m : Message) : Reader := .ofHop m.hop (m.hop.frameLimit limit)

/-- Some stream makes a reader tell the message. -/
def Accepted (limit : UInt32) (m : Message) : Prop :=
  ∃ listens arrivals, .message m ∈ ((m.reader limit).listen listens arrivals).1

/-- However the frame of the message is cut, a reader tells the message, and then the end. -/
def Passes (limit : UInt32) (m : Message) : Prop :=
  ∀ cuts : List Bytes, cuts.flatten = (Frame.ofMessage m).bytes → (∀ cut ∈ cuts, cut ≠ []) →
    (m.reader limit).listen true (cuts.map Arrival.data) = ([.message m, .closed none], 0)

theorem Accepted.fits (h : m.Accepted limit) : m.Fits limit := by
  obtain ⟨listens, arrivals, hm⟩ := h
  obtain ⟨-, hlen⟩ := Reader.tells_listen (Deframer.sound_of_length rfl) listens arrivals m hm
  rw [Fits, Frame.size_ofMessage, ← length_encode]
  exact hlen

theorem Fits.passes (h : m.Fits limit) : m.Passes limit := by
  intro cuts hcuts hne
  rw [Fits, Frame.size_ofMessage, ← length_encode] at h
  have hhears := @Reader.hears_frames m.hop (m.hop.frameLimit limit) [m] (by simpa using h)
  rw [List.flatMap_singleton, ← Frame.bytes_ofMessage, ← hcuts] at hhears
  rw [Reader.listen, reader, hhears.readStream hne]
  rfl

theorem Passes.accepted (h : m.Passes limit) : m.Accepted limit := by
  have hbytes : (Frame.ofMessage m).bytes ≠ [] := by
    rw [Frame.bytes_ofMessage]
    simp [frameBytes, lengthField, Bytes.le32]
  refine ⟨true, [(Frame.ofMessage m).bytes].map Arrival.data, ?_⟩
  rw [h [(Frame.ofMessage m).bytes] (by simp) (by simpa using hbytes)]
  simp

end Message

end Depot
