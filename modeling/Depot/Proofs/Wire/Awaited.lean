/-
  Depot — what a deframer awaits stands in its buffer.

  A deframer remembers the length of the frame that it waits for and checks it no more.
  `FlatDeframer` is a deframer whose bytes lie next to each other, so that a length is read,
  a frame split off and its length field dropped by position; where bytes are missing for it,
  an act has no result.  `Sound.perform` says of any act on a deframer that remembers a length
  of its buffer that it has a result, the same as without positions, and leaves such a deframer;
  `Sound.front_of_error` that a length that no frame can have stays where it is.  `run_awaits` is
  both, after any acts one after the other.
-/
import Depot.Proofs.Course
import Depot.Proofs.Wire.Access
import Depot.Proofs.Wire.Cuts

namespace Depot

namespace Deframer

/-! ## Acts -/

/-- What is done to a deframer. -/
inductive Act where
  | feed (data : Bytes)
  | push (data : Bytes)
  | extract
  | clear
  deriving DecidableEq, Repr

/-- The bytes that an act adds. -/
def Act.data : Act → Bytes
  | feed data | push data => data
  | extract | clear => []

/-- Do an act.  Returns the payloads that it takes out. -/
def perform (d : Deframer) : Act → Deframer × Except WireError (List Bytes)
  | .feed data => (d.feed data, .ok [])
  | .push data => d.push data
  | .extract => (d.extract.1, d.extract.2.map Option.toList)
  | .clear => (d.clear, .ok [])

end Deframer

/-! ## Bytes next to each other -/

/-- A parser with its bytes next to each other. -/
structure FlatDeframer where
  limit : UInt32
  awaiting : Awaiting := .length
  bytes : Bytes := []
  deriving DecidableEq, Repr

namespace FlatDeframer

/-- A frame of `needed` bytes is complete once that many are there. -/
def complete (needed : Nat) (bytes : Bytes) : Found :=
  if needed ≤ bytes.length then .frame needed else .wait (.payload needed)

/-- What the bytes hold if frames of up to `limit` bytes are accepted. -/
def inspect (limit : UInt32) (bytes : Bytes) : Awaiting → Access Found
  | .payload needed => return complete needed bytes
  | .length =>
    if bytes.length < 4 then return .wait .length
    else do
      let n ← Access.word bytes 0
      if n < 4 then throw (.badFrameLength n)
      else if limit.toNat < n then throw (.frameOverLimit n limit)
      else return complete n bytes

/-- The first bytes, and the bytes after them. -/
def splitAt? (count : Nat) (bytes : Bytes) : Option (Bytes × Bytes) :=
  if count ≤ bytes.length then some (bytes.take count, bytes.drop count) else none

/-- The bytes after the first ones. -/
def advance? (count : Nat) (bytes : Bytes) : Option Bytes :=
  if count ≤ bytes.length then some (bytes.drop count) else none

/-- Take the next frame out and return its payload. -/
def extract? (f : FlatDeframer) : Option (FlatDeframer × Except WireError (Option Bytes)) := do
  match ← (inspect f.limit f.bytes f.awaiting).run with
  | .error e => return (f, .error e)
  | .ok (.wait awaiting) => return ({ f with awaiting }, .ok none)
  | .ok (.frame n) =>
    let (frame, bytes) ← splitAt? n f.bytes
    let payload ← advance? 4 frame
    return ({ f with awaiting := .length, bytes }, .ok (some payload))

/-- Take frames out until there is none, `taken` being those already taken, last one first.  A
    loop that goes on for more than `most` frames has no result. -/
def extractAll? : (most : Nat) → (taken : List Bytes) → FlatDeframer →
    Option (FlatDeframer × Except WireError (List Bytes))
  | 0, _, _ => none
  | most + 1, taken, f => do
    match ← f.extract? with
    | (f, .ok (some payload)) => extractAll? most (payload :: taken) f
    | (f, .ok none) => return (f, .ok taken.reverse)
    | (f, .error e) => return (f, .error e)

def feed (f : FlatDeframer) (data : Bytes) : FlatDeframer := { f with bytes := f.bytes ++ data }

/-- Add bytes and take every complete frame out. -/
def push? (f : FlatDeframer) (data : Bytes) :
    Option (FlatDeframer × Except WireError (List Bytes)) :=
  let f := f.feed data
  extractAll? (f.bytes.length + 1) [] f

/-- Do an act, if nothing that it reads lies out of bounds. -/
def perform? (f : FlatDeframer) :
    Deframer.Act → Option (FlatDeframer × Except WireError (List Bytes))
  | .feed data => some (f.feed data, .ok [])
  | .push data => f.push? data
  | .extract => f.extract?.map fun out => (out.1, out.2.map Option.toList)
  | .clear => some ({ limit := f.limit }, .ok [])

/-- Do acts one after the other. -/
def run? (f : FlatDeframer) (acts : List Deframer.Act) :
    Option (Course FlatDeframer Deframer.Act (Except WireError (List Bytes))) :=
  acts.foldlM (fun course act => (course.state.perform? act).map fun out =>
    ⟨out.1, course.log ++ [(act, out.2)]⟩) ⟨f, []⟩

end FlatDeframer

namespace Deframer

/-- The deframer with its bytes next to each other. -/
def flat (d : Deframer) : FlatDeframer := ⟨d.limit, d.awaiting, d.buffer.toBytes⟩

/-! ## By position -/

theorem complete_flat (needed : Nat) (b : Buffer) :
    FlatDeframer.complete needed b.toBytes = Awaiting.complete needed b := by
  rw [FlatDeframer.complete, Awaiting.complete, Buffer.length_toBytes]

/-- A length is read where four bytes are there, and one that is remembered is not read. -/
theorem run_inspect (limit : UInt32) (b : Buffer) (awaiting : Awaiting) :
    (FlatDeframer.inspect limit b.toBytes awaiting).run = some (awaiting.inspect limit b) := by
  cases awaiting with
  | payload needed =>
    rw [FlatDeframer.inspect, Awaiting.inspect, complete_flat]
    rfl
  | length =>
    rw [FlatDeframer.inspect, Awaiting.inspect]
    cases hword : Bytes.le32? b.toBytes with
    | none =>
      rw [if_pos (Bytes.le32?_eq_none_iff.1 hword)]
      rfl
    | some n =>
      have hlong : ¬ b.toBytes.length < 4 := by
        rw [← Bytes.le32?_eq_none_iff, hword]
        simp
      have hread : (Access.word b.toBytes 0).run = some (.ok n) := Access.run_word hword
      rw [if_neg hlong]
      simp only [Access.run_then, hread, Option.bind_some, complete_flat]
      split_ifs <;> rfl

/-- What is remembered is neither more than is there nor less than a length field. -/
theorem Sound.extract? {d : Deframer} (h : d.Sound) :
    d.flat.extract? = some (d.extract.1.flat, d.extract.2) := by
  unfold FlatDeframer.extract? Deframer.extract
  simp only [flat, run_inspect, Option.bind_eq_bind, Option.bind_some]
  obtain ⟨e, -, hinspect⟩ | ⟨n, hfront, hinspect⟩ | ⟨awaiting, -, -, hinspect⟩ := h.inspect
  · rw [hinspect]
    rfl
  · obtain ⟨-, hpos, -, hle⟩ := frontFrame_eq_some hfront
    have hframe : 4 ≤ (d.buffer.toBytes.take n).length := by
      rwa [List.length_take_of_le hle]
    rw [hinspect]
    simp only [FlatDeframer.splitAt?, if_pos hle, Option.bind_some, FlatDeframer.advance?,
      if_pos hframe]
    rfl
  · rw [hinspect]
    rfl

theorem Sound.extractAll? {d : Deframer} (h : d.Sound) {most : Nat} (taken : List Bytes)
    (hmost : d.buffer.size < most) :
    d.flat.extractAll? most taken =
      some ((Deframer.extractUpTo most taken d).1.flat, (Deframer.extractUpTo most taken d).2) := by
  induction most generalizing d taken with
  | zero => omega
  | succ most ih =>
    unfold FlatDeframer.extractAll? Deframer.extractUpTo
    simp only [h.extract?, Option.bind_eq_bind, Option.bind_some]
    obtain ⟨e, -, hextract⟩ | ⟨n, hfront, hextract⟩ | ⟨awaiting, -, -, hextract⟩ := h.extract
    · rw [hextract]
      rfl
    · obtain ⟨-, hpos, -, hle⟩ := frontFrame_eq_some hfront
      have hless : (d.buffer.drop n).size < most := by
        have := d.buffer.length_toBytes
        show d.buffer.size - n < most
        omega
      rw [hextract]
      exact ih (sound_of_length rfl) _ hless
    · rw [hextract]
      rfl

/-! ## One act -/

theorem flat_feed (d : Deframer) (data : Bytes) : d.flat.feed data = (d.feed data).flat := by
  rw [flat, flat, FlatDeframer.feed, Deframer.feed, Buffer.toBytes_append]

section

variable {d : Deframer} (h : d.Sound)

include h

theorem Sound.push? (data : Bytes) :
    d.flat.push? data = some ((d.push data).1.flat, (d.push data).2) := by
  have hsize : (d.feed data).flat.bytes.length = (d.feed data).buffer.size :=
    Buffer.length_toBytes _
  unfold FlatDeframer.push? Deframer.push
  simp only [flat_feed, hsize]
  exact (h.feed data).extractAll? [] (Nat.lt_succ_self _)

/-- An act leaves a deframer that remembers a length of its buffer, and reads nothing out of
    bounds. -/
theorem Sound.perform (act : Act) :
    (d.perform act).1.Sound ∧ (d.perform act).1.limit = d.limit ∧
      d.flat.perform? act = some ((d.perform act).1.flat, (d.perform act).2) := by
  cases act with
  | feed data =>
    refine ⟨h.feed data, rfl, ?_⟩
    rw [FlatDeframer.perform?, flat_feed]
    rfl
  | push data =>
    have htook := h.push data
    exact ⟨htook.sound, htook.limit_eq, h.push? data⟩
  | extract =>
    have hflat : d.flat.perform? .extract =
        some ((d.perform .extract).1.flat, (d.perform .extract).2) := by
      rw [FlatDeframer.perform?, h.extract?]
      rfl
    refine ⟨?_, ?_, hflat⟩
    · obtain ⟨e, -, hextract⟩ | ⟨n, -, hextract⟩ | ⟨awaiting, -, hsound, hextract⟩ := h.extract
      · rwa [Deframer.perform, hextract]
      · rw [Deframer.perform, hextract]
        exact sound_of_length rfl
      · rwa [Deframer.perform, hextract]
    · obtain ⟨e, -, hextract⟩ | ⟨n, -, hextract⟩ | ⟨awaiting, -, -, hextract⟩ := h.extract <;>
        rw [Deframer.perform, hextract]
  | clear => exact ⟨sound_of_length rfl, rfl, rfl⟩

/-- What an act says of a length stands at the front of the bytes that it leaves. -/
theorem Sound.front_of_error {act : Act} {e : WireError} (he : (d.perform act).2 = .error e) :
    (Bytes.le32? (d.perform act).1.buffer.toBytes).bind (lengthFault? d.limit) = some e := by
  cases act with
  | feed data => cases he
  | push data =>
    have htook := h.push data
    have herror : (unframe d.limit (d.buffer.toBytes ++ data)).error = some e := by
      have hframes : Unframed.frames _ _ = .error e := htook.frames.symm.trans he
      unfold Unframed.frames at hframes
      split at hframes
      · cases hframes
      · rename_i e' he'
        cases hframes
        exact he'
    obtain ⟨-, -, hfault, -⟩ := unframe_spec d.limit (d.buffer.toBytes ++ data)
    rw [herror, ← htook.rest] at hfault
    exact hfault.symm
  | extract =>
    obtain ⟨e', hfront, hextract⟩ | ⟨n, -, hextract⟩ | ⟨awaiting, -, -, hextract⟩ := h.extract
    · rw [Deframer.perform, hextract] at he ⊢
      cases he
      exact frontFrame_eq_error hfront
    · rw [Deframer.perform, hextract] at he
      cases he
    · rw [Deframer.perform, hextract] at he
      cases he
  | clear => cases he

end

/-! ## After a bad length -/

/-- A deframer at whose front a length stands that no frame can have. -/
structure Stuck (e : WireError) (d : Deframer) : Prop where
  sound : d.Sound
  fault : (Bytes.le32? d.buffer.toBytes).bind (lengthFault? d.limit) = some e

/-- What an act returns when a bad length is at the front. -/
def Act.stuckAt (e : WireError) : Act → Except WireError (List Bytes)
  | feed _ | clear => .ok []
  | push _ | extract => .error e

namespace Stuck

variable {e : WireError} {d : Deframer} (h : d.Stuck e)

include h

theorem extract : d.extract = (d, .error e) := by
  have hfront := frontFrame_of_lengthFault h.fault
  obtain ⟨e', hfront', hextract⟩ | ⟨n, hfront', -⟩ | ⟨awaiting, hfront', -, -⟩ := h.sound.extract
  · rw [hfront] at hfront'
    cases hfront'
    exact hextract
  · rw [hfront] at hfront'
    cases hfront'
  · rw [hfront] at hfront'
    cases hfront'

theorem awaiting : d.awaiting = .length := by
  cases ha : d.awaiting with
  | length => rfl
  | payload needed =>
    have herror := congrArg Prod.snd h.extract
    rw [Deframer.extract, ha, Awaiting.inspect, Awaiting.complete] at herror
    split_ifs at herror

theorem feed (data : Bytes) : (d.feed data).Stuck e where
  sound := h.sound.feed data
  fault := by
    obtain ⟨n, hn, hfault⟩ := Option.bind_eq_some_iff.1 h.fault
    rw [Deframer.feed, Buffer.toBytes_append, Bytes.le32?_append data hn]
    exact hfault

theorem push (data : Bytes) : d.push data = (d.feed data, .error e) := by
  rw [Deframer.push, Deframer.extractUpTo, (h.feed data).extract]

/-- Any act but clearing keeps what is there, and all but feeding say what is wrong. -/
theorem perform {act : Act} (hact : act ≠ .clear) :
    (d.perform act).1.Stuck e ∧
      (d.perform act).1.buffer.toBytes = d.buffer.toBytes ++ act.data ∧
      (d.perform act).2 = act.stuckAt e := by
  cases act with
  | feed data => exact ⟨h.feed data, Buffer.toBytes_append _ _, rfl⟩
  | push data =>
    rw [Deframer.perform, h.push]
    exact ⟨h.feed data, Buffer.toBytes_append _ _, rfl⟩
  | extract =>
    rw [Deframer.perform, h.extract]
    exact ⟨h, (List.append_nil _).symm, rfl⟩
  | clear => exact absurd rfl hact

end Stuck

/-! ## Runs -/

theorem Sound.run {d : Deframer} (h : d.Sound) (acts : List Act) :
    let course := Course.run Deframer.perform d acts
    course.state.Sound ∧ course.state.limit = d.limit ∧
      d.flat.run? acts = some ⟨course.state.flat, course.log⟩ := by
  induction acts using List.reverseRecOn with
  | nil => exact ⟨h, rfl, rfl⟩
  | append_singleton acts act ih =>
    obtain ⟨hsound, hlimit, hflat⟩ := ih
    obtain ⟨hsound', hlimit', hact⟩ := hsound.perform act
    rw [Course.run_concat]
    refine ⟨hsound', hlimit'.trans hlimit, ?_⟩
    rw [FlatDeframer.run?] at hflat ⊢
    rw [List.foldlM_append, hflat]
    simp only [Option.bind_eq_bind, Option.bind_some, List.foldlM_cons, List.foldlM_nil, hact,
      Option.map_some]
    rfl

theorem Stuck.run {e : WireError} {d : Deframer} (h : d.Stuck e) {acts : List Act}
    (hacts : .clear ∉ acts) :
    let course := Course.run Deframer.perform d acts
    course.state.Stuck e ∧
      course.state.buffer.toBytes = d.buffer.toBytes ++ acts.flatMap Act.data ∧
      ∀ entry ∈ course.log, entry.2 = entry.1.stuckAt e := by
  induction acts using List.reverseRecOn with
  | nil => exact ⟨h, (List.append_nil _).symm, by simp [Course.run]⟩
  | append_singleton acts act ih =>
    rw [List.mem_append, not_or, List.mem_singleton] at hacts
    obtain ⟨hstuck, hbytes, hlog⟩ := ih hacts.1
    obtain ⟨hstuck', hbytes', hanswer⟩ := hstuck.perform (Ne.symm hacts.2)
    rw [Course.run_concat]
    refine ⟨hstuck', ?_, ?_⟩
    · rw [List.flatMap_append, ← List.append_assoc, ← hbytes, List.flatMap_singleton]
      exact hbytes'
    · intro entry hentry
      rcases List.mem_append.1 hentry with hbefore | hlast
      · exact hlog entry hbefore
      · rw [List.mem_singleton.1 hlast]
        exact hanswer

/-- **What a deframer awaits stands in its buffer, after any acts**: a length that it remembers
    is the word at the front, and one that a frame can have.  So no act reads, splits or drops
    anything out of bounds, and done by position the acts have the same answers.  An act that
    meets a bad length leaves it at the front, where taking frames out changes nothing; until
    the deframer is cleared, whatever is added is kept behind it, and every push and extraction
    says the same of it. -/
theorem run_awaits (limit : UInt32) (acts : List Act) :
    let course := Course.run perform { limit } acts
    let d := course.state
    (∀ needed, d.awaiting = .payload needed →
      4 ≤ d.buffer.size ∧ Bytes.le32? d.buffer.toBytes = some needed ∧
        4 ≤ needed ∧ needed ≤ limit.toNat) ∧
    ({ limit } : FlatDeframer).run? acts = some ⟨d.flat, course.log⟩ ∧
    ∀ act e, (d.perform act).2 = .error e →
      let bad := (d.perform act).1
      (Bytes.le32? bad.buffer.toBytes).bind (lengthFault? limit) = some e ∧
      bad.extract = (bad, .error e) ∧
      ∀ later, .clear ∉ later →
        let after := Course.run perform bad later
        after.state.awaiting = bad.awaiting ∧
          after.state.buffer.toBytes = bad.buffer.toBytes ++ later.flatMap Act.data ∧
          ∀ entry ∈ after.log, entry.2 = entry.1.stuckAt e := by
  intro course d
  obtain ⟨hsound, hlimit, hflat⟩ := Sound.run (d := { limit }) (sound_of_length rfl) acts
  have hlimit : d.limit = limit := hlimit
  refine ⟨fun needed hneeded => ?_, hflat, fun act e he => ?_⟩
  · obtain ⟨hword, hpos, hmost⟩ := hsound needed hneeded
    refine ⟨?_, hword, hpos, hlimit ▸ hmost⟩
    rw [← Buffer.length_toBytes, ← not_lt, ← Bytes.le32?_eq_none_iff, hword]
    simp
  · obtain ⟨hsound', hlimit', -⟩ := hsound.perform act
    have hfault := hsound.front_of_error he
    have hstuck : (d.perform act).1.Stuck e := ⟨hsound', hlimit'.symm ▸ hfault⟩
    refine ⟨hlimit ▸ hfault, hstuck.extract, fun later hlater => ?_⟩
    obtain ⟨hafter, hbytes, hlog⟩ := hstuck.run hlater
    exact ⟨hafter.awaiting.trans hstuck.awaiting.symm, hbytes, hlog⟩

/-- A frame of six bytes is awaited; the push that completes it meets a length of three, of which
    every later push and extraction tells, and a byte that is fed is kept behind it. -/
theorem run_awaits_three :
    let d := (Course.run perform { limit := 64 } [.push [6, 0, 0, 0, 49]]).state
    let bad := (d.perform (.push [97, 3, 0, 0, 0])).1
    let after := Course.run perform bad [.feed [7], .extract, .push [8]]
    d.awaiting = .payload 6 ∧ Bytes.le32? d.buffer.toBytes = some 6 ∧
      (d.perform (.push [97, 3, 0, 0, 0])).2 = .error (.badFrameLength 3) ∧
      bad.extract = (bad, .error (.badFrameLength 3)) ∧
      after.state.buffer.toBytes = [3, 0, 0, 0, 7, 8] ∧
      ∀ entry ∈ after.log, entry.2 = entry.1.stuckAt (.badFrameLength 3) := by
  intro d bad after
  have hawaiting : d.awaiting = .payload 6 := by decide
  have herror : (d.perform (.push [97, 3, 0, 0, 0])).2 = .error (.badFrameLength 3) := by decide
  have hbytes : bad.buffer.toBytes = [3, 0, 0, 0] := by decide
  obtain ⟨hremembers, -, hbad⟩ := run_awaits 64 [.push [6, 0, 0, 0, 49]]
  obtain ⟨-, hextract, hafter⟩ := hbad _ _ herror
  obtain ⟨-, hkept, hlog⟩ := hafter [.feed [7], .extract, .push [8]] (by decide)
  exact ⟨hawaiting, (hremembers 6 hawaiting).2.1, herror, hextract,
    hkept.trans (congrArg (· ++ [7, 8]) hbytes), hlog⟩

end Deframer

end Depot
