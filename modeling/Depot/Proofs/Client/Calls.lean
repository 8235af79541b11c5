/-
  Depot — calls of a session, some of them given up.

  A `Caller` makes one call of `Session.ask` after the other.  A call that waits, for its
  outlet or for its reply, may be polled again; the next call gives it up.  The server answers
  each request that it has received in whole, once and in order, and its bytes arrive in
  pieces.

  A session takes the next reply for its own.  So the replies are handed out in order to the
  calls that take one (`Caller.Served`), and a call that takes none leaves its reply to a later
  one: `Caller.run_matches` says exactly which reply a call returns.
-/
import Depot.Proofs.Client.Line
import Mathlib

namespace Depot

/-! ## Increasing numbers -/

section

variable {numbers : List Nat} {i n : Nat}

theorem nodup_of_increasing (h : numbers.Pairwise (· < ·)) : numbers.Nodup :=
  h.imp Nat.ne_of_lt

/-- The numbers before one of them are smaller. -/
theorem take_subset_range (h : numbers.Pairwise (· < ·)) (hn : numbers[i]? = some n) :
    numbers.take i ⊆ List.range n := by
  intro k hk
  obtain ⟨hi, rfl⟩ := List.getElem?_eq_some_iff.1 hn
  obtain ⟨j, hj, rfl⟩ := List.getElem_of_mem hk
  rw [List.length_take] at hj
  rw [List.getElem_take, List.mem_range]
  exact List.pairwise_iff_getElem.1 h j i _ hi (by omega)

/-- Smaller numbers stand before one of them. -/
theorem mem_take_of_lt (h : numbers.Pairwise (· < ·)) (hn : numbers[i]? = some n) {k : Nat}
    (hk : k ∈ numbers) (hlt : k < n) : k ∈ numbers.take i := by
  obtain ⟨hi, rfl⟩ := List.getElem?_eq_some_iff.1 hn
  obtain ⟨j, hj, rfl⟩ := List.getElem_of_mem hk
  have hji : j < i := by
    by_contra hge
    rcases (not_lt.1 hge).eq_or_lt with rfl | hij
    · exact lt_irrefl _ hlt
    · exact lt_asymm hlt (List.pairwise_iff_getElem.1 h i j hi hj hij)
  rw [List.mem_take_iff_getElem]
  exact ⟨j, by omega, rfl⟩

theorem index_le_of_increasing (h : numbers.Pairwise (· < ·)) (hn : numbers[i]? = some n) :
    i ≤ n := by
  obtain ⟨hi, -⟩ := List.getElem?_eq_some_iff.1 hn
  have hnodup := (nodup_of_increasing h).sublist (List.take_sublist i numbers)
  have hle := (hnodup.subperm (take_subset_range h hn)).length_le
  rwa [List.length_take, List.length_range, Nat.min_eq_left hi.le] at hle

/-- A number is its own position exactly if all smaller ones are there. -/
theorem index_eq_iff_of_increasing (h : numbers.Pairwise (· < ·)) (hn : numbers[i]? = some n) :
    i = n ↔ ∀ k < n, k ∈ numbers := by
  obtain ⟨hi, -⟩ := List.getElem?_eq_some_iff.1 hn
  have hlength : (numbers.take i).length = i := by rw [List.length_take, Nat.min_eq_left hi.le]
  constructor
  · rintro rfl k hk
    have hnodup := (nodup_of_increasing h).sublist (List.take_sublist i numbers)
    have hperm := (hnodup.subperm (take_subset_range h hn)).perm_of_length_le
      (by rw [hlength, List.length_range])
    exact List.mem_of_mem_take (hperm.mem_iff.2 (List.mem_range.2 hk))
  · intro hall
    have hsub : List.range n ⊆ numbers.take i := by
      intro k hk
      rw [List.mem_range] at hk
      exact mem_take_of_lt h hn (hall k hk) hk
    have hle := (List.nodup_range.subperm hsub).length_le
    rw [hlength, List.length_range] at hle
    exact le_antisymm (index_le_of_increasing h hn) hle

end

/-- The element behind a prefix makes it a longer one. -/
theorem concat_prefix {α : Type u} {start list : List α} {a : α} (h : start <+: list)
    (ha : list[start.length]? = some a) : start ++ [a] <+: list := by
  obtain ⟨rest, rfl⟩ := h
  rw [List.getElem?_append_right le_rfl, Nat.sub_self] at ha
  cases rest with
  | nil => cases ha
  | cons b rest =>
    cases ha
    exact ⟨rest, by rw [List.append_assoc, List.singleton_append]⟩

/-! ## Replies -/

/-- How a call ends that has received this. -/
def Session.replied : Attempt Message → Attempt Reply
  | .done m =>
    match Reply.ofMessage m with
    | .ok reply => .done reply
    | .error fault => .failed fault
  | .failed fault => .failed fault
  | .blocked => .blocked

theorem Session.replied_eq_done {result : Attempt Message} {reply : Reply}
    (h : Session.replied result = .done reply) :
    ∃ m, result = .done m ∧ Reply.ofMessage m = .ok reply := by
  cases result with
  | done m =>
    refine ⟨m, rfl, ?_⟩
    simp only [replied] at h
    split at h
    · rename_i hreply
      cases h
      exact hreply
    · cases h
  | failed | blocked => cases h

/-- A part of some frames holds the first of them, and no bad length. -/
theorem unframe_part {limit : UInt32} {messages : List Message} {part : Bytes}
    (hfit : ∀ m ∈ messages, m.hop = .client ∧ m.frame.length ≤ limit.toNat)
    (hpart : part <+: messages.flatMap Message.frame) :
    (unframe limit part).payloads <+: messages.map Message.encode ∧
      (unframe limit part).error = none := by
  obtain ⟨more, hmore⟩ := hpart
  have hpayloads : ∀ payload ∈ messages.map Message.encode, 4 + payload.length ≤ limit.toNat := by
    intro payload hpayload
    obtain ⟨m, hm, rfl⟩ := List.mem_map.1 hpayload
    exact Message.encode_le_of_frame (hfit m hm).2
  have hwhole := unframe_frameBytes hpayloads
  rw [← Message.flatMap_frame, ← hmore] at hwhole
  constructor
  · have hprefix := payloads_prefix limit part more
    rwa [hwhole] at hprefix
  · cases he : (unframe limit part).error with
    | none => rfl
    | some e =>
      rw [unframe_append_error more he] at hwhole
      cases congrArg Unframed.error hwhole

/-- Of a part of some frames the messages that are complete are received, and nothing else. -/
theorem Unframed.result_of_frames {limit : UInt32} {messages : List Message} {part : Bytes}
    (hfit : ∀ m ∈ messages, m.hop = .client ∧ m.frame.length ≤ limit.toNat)
    (hpart : part <+: messages.flatMap Message.frame) (count : Nat) :
    (unframe limit part).result false count = .blocked ∨
      ∃ m, messages[count]? = some m ∧ (unframe limit part).result false count = .done m := by
  obtain ⟨⟨more, hmore⟩, herror⟩ := unframe_part hfit hpart
  unfold Unframed.result
  cases hget : (unframe limit part).payloads[count]? with
  | none =>
    left
    simp only [herror]
    rfl
  | some payload =>
    right
    have hencoded : (messages.map Message.encode)[count]? = some payload := by
      rw [← hmore, List.getElem?_append_left (List.getElem?_eq_some_iff.1 hget).1]
      exact hget
    rw [List.getElem?_map, Option.map_eq_some_iff] at hencoded
    obtain ⟨m, hm, rfl⟩ := hencoded
    obtain ⟨hhop, hframe⟩ := hfit m (List.mem_of_getElem? hm)
    have hdecode : Message.decode .client m.encode = .ok m :=
      Message.decode_eq_ok_iff.2 ⟨hhop, rfl, Message.encodable_of_frame hframe⟩
    refine ⟨m, hm, ?_⟩
    simp only [Session.decoded, hdecode]

/-! ## Calls -/

/-- Where a call waits. -/
inductive CallStage where
  /-- Not all of the request is written. -/
  | sending
  | receiving
  deriving DecidableEq, Repr

/-- A line over which calls are made, and its server. -/
structure Caller (σ : Type u) where
  line : Line σ
  /-- Where the last call waits, if it does. -/
  stage : Option CallStage := none
  /-- The replies of the server, in order. -/
  replies : List Message := []
  /-- The calls that took a reply, by their numbers, and how they ended; in order. -/
  answered : List (Nat × Attempt Reply) := []

/-- What can happen to a caller. -/
inductive CallAct (σ : Type u) where
  /-- A call of `Session.ask`.  If another one waits, that one is given up. -/
  | call (m : Message)
  /-- The call that waits goes on. -/
  | poll
  /-- The server replies to the first request that it has not replied to. -/
  | reply (m : Message)
  /-- Up to so many bytes of the replies arrive. -/
  | deliver (most : Nat)
  /-- The outlet changes without the session. -/
  | outside (change : σ → σ)

/-- Requests fit into what the server takes, replies into what a session takes. -/
def CallAct.Fits (limit : UInt32) : CallAct σ → Prop
  | call m => m.hop = .client ∧ m.frame.length ≤ limit.toNat
  | reply m => m.hop = .client ∧ m.frame.length ≤ Deframer.defaultLimit.toNat
  | poll | deliver _ | outside _ => True

instance CallAct.decidableFits (limit : UInt32) : (a : CallAct σ) → Decidable (a.Fits limit)
  | .call m => inferInstanceAs (Decidable (m.hop = .client ∧ m.frame.length ≤ limit.toNat))
  | .reply m =>
    inferInstanceAs (Decidable (m.hop = .client ∧ m.frame.length ≤ Deframer.defaultLimit.toNat))
  | .poll | .deliver _ | .outside _ => inferInstanceAs (Decidable True)

namespace Caller

variable {σ : Type u} {limit : UInt32}

def opened (outlet : σ) : Caller σ where
  line := .opened outlet

/-- The requests that a server has received in whole which takes frames of up to `limit`
    bytes. -/
def requests (limit : UInt32) (x : Caller σ) : List Bytes :=
  (unframe limit x.line.outlet.tape).payloads

section

variable [Outlet σ]

/-- The call that was made last goes on after its request is written. -/
def listen (x : Caller σ) : Caller σ :=
  match (x.line.session.receive x.line.inlet).2.2 with
  | .blocked => { x with line := x.line.act .receive, stage := some .receiving }
  | result =>
    { x with
      line := x.line.act .receive
      stage := none
      answered := x.answered ++ [(x.line.passed.length - 1, Session.replied result)] }

/-- The call that was made last goes on after its write ended so. -/
def written (x : Caller σ) : Attempt Unit → Caller σ
  | .done _ => x.listen
  | .blocked => { x with stage := some .sending }
  | .failed _ => { x with stage := none }

/-- One thing happens. -/
def act (limit : UInt32) (x : Caller σ) : CallAct σ → Caller σ
  | .call m =>
    written { x with line := x.line.act (.send m) } (x.line.session.send x.line.outlet m).2.2
  | .poll =>
    match x.stage with
    | none => x
    | some .sending =>
      written { x with line := x.line.act .resume } (x.line.session.resume x.line.outlet).2.2
    | some .receiving => x.listen
  | .reply m =>
    if x.replies.length < (x.requests limit).length then { x with replies := x.replies ++ [m] }
    else x
  | .deliver most =>
    let left := (x.replies.flatMap Message.frame).drop x.line.arrived.length
    { x with line := x.line.act (.arrive (left.take most)) }
  | .outside change => { x with line := x.line.act (.outside change) }

def run (limit : UInt32) (x : Caller σ) (acts : List (CallAct σ)) : Caller σ :=
  acts.foldl (act limit) x

/-- The first poll of a call is that of `Session.ask`. -/
theorem act_call (limit : UInt32) (x : Caller σ) (m : Message) :
    let asked := x.line.session.ask x.line.outlet x.line.inlet m
    let called := x.act limit (.call m)
    called.line.session = asked.1 ∧ called.line.outlet = asked.2.1 ∧
      called.line.inlet = asked.2.2.1 ∧ called.replies = x.replies ∧
      (called.stage = none ↔ asked.2.2.2 ≠ .blocked) ∧
      ∀ reply, asked.2.2.2 = .done reply →
        called.answered = x.answered ++ [(x.line.passed.length, .done reply)] := by
  obtain ⟨⟨s, t, sent⟩, hsend⟩ : ∃ sent, x.line.session.send x.line.outlet m = sent := ⟨_, rfl⟩
  simp only [act, Session.ask, Line.act, hsend]
  cases sent with
  | failed fault => simp [written]
  | blocked => simp [written]
  | done =>
    obtain ⟨⟨s', i, result⟩, hreceive⟩ : ∃ received, s.receive x.line.inlet = received := ⟨_, rfl⟩
    simp only [written, listen, Line.act, hreceive]
    cases result with
    | failed fault => simp
    | blocked => simp
    | done m' =>
      cases hreply : Reply.ofMessage m' with
      | ok reply => simp [Session.replied, hreply]
      | error fault => simp [Session.replied, hreply]

end

/-! ## Who takes which reply -/

/-- The call that was made last has taken no reply. -/
def Unanswered (x : Caller σ) : Prop :=
  ∃ last, x.line.passed.length = last + 1 ∧ ∀ call ∈ x.answered.map Prod.fst, call < last

/-- The replies are taken one by one, each by a later call than the one before. -/
structure Served (limit : UInt32) (x : Caller σ) : Prop where
  kept : x.line.Kept
  lives : x.line.inlet.hasEnded = false
  asked : ∀ m ∈ x.line.passed, m.hop = .client ∧ m.frame.length ≤ limit.toNat
  fitting : ∀ m ∈ x.replies, m.hop = .client ∧ m.frame.length ≤ Deframer.defaultLimit.toNat
  arrived : x.line.arrived <+: x.replies.flatMap Message.frame
  taken : x.line.heard.length = x.answered.length
  results : x.answered.map Prod.snd <+: x.replies.map fun m => Session.replied (.done m)
  ordered : (x.answered.map Prod.fst).Pairwise (· < ·)
  past : ∀ call ∈ x.answered.map Prod.fst, call < x.line.passed.length
  waits : x.stage ≠ none → x.Unanswered

theorem served_opened (limit : UInt32) (outlet : σ) : (opened outlet).Served limit where
  kept := Line.kept_opened outlet
  lives := rfl
  asked := by simp [opened, Line.opened]
  fitting := by simp [opened]
  arrived := List.nil_prefix
  taken := rfl
  results := List.nil_prefix
  ordered := List.Pairwise.nil
  past := by simp [opened]
  waits := fun h => absurd rfl h

namespace Served

variable {x : Caller σ}

/-- A receive brings the reply after those that are taken, or waits for it. -/
theorem receive_cases (h : x.Served limit) :
    (x.line.session.receive x.line.inlet).2.2 = .blocked ∨
      ∃ m, x.replies[x.answered.length]? = some m ∧
        (x.line.session.receive x.line.inlet).2.2 = .done m := by
  rw [h.kept.receive_eq, h.lives, h.taken]
  exact Unframed.result_of_frames h.fitting h.arrived _

variable [Outlet σ]

/-- The call that was made last waits for its reply. -/
theorem wait (h : x.Served limit) (hopen : x.Unanswered)
    (hblocked : (x.line.session.receive x.line.inlet).2.2 = .blocked) :
    Served limit { x with line := x.line.act .receive, stage := some .receiving } := by
  have hheard : (x.line.act .receive).heard = x.line.heard := by
    simp only [Line.act, hblocked, Line.note]
  exact { h with
    kept := h.kept.receive
    taken := (congrArg List.length hheard).trans h.taken
    waits := fun _ => hopen }

/-- The call that was made last takes the reply after those that are taken. -/
theorem take (h : x.Served limit) (hopen : x.Unanswered) {m : Message}
    (hm : x.replies[x.answered.length]? = some m)
    (hdone : (x.line.session.receive x.line.inlet).2.2 = .done m) :
    Served limit { x with
      line := x.line.act .receive
      stage := none
      answered := x.answered ++ [(x.line.passed.length - 1, Session.replied (.done m))] } := by
  have hheard : (x.line.act .receive).heard = x.line.heard ++ [.done m] := by
    simp only [Line.act, hdone, Line.note]
  have hnext : ((x.replies.map fun m => Session.replied (.done m)) : List (Attempt Reply))[
      (x.answered.map Prod.snd).length]? = some (Session.replied (.done m)) := by
    rw [List.length_map, List.getElem?_map, hm]
    rfl
  obtain ⟨last, hlast, hbefore⟩ := hopen
  have hnumber : x.line.passed.length - 1 = last := by omega
  have hcalls : (x.answered ++ [(last, Session.replied (.done m))]).map Prod.fst =
      x.answered.map Prod.fst ++ [last] := List.map_append
  rw [hnumber]
  exact { h with
    kept := h.kept.receive
    taken := by
      show (x.line.act .receive).heard.length = (x.answered ++ [_]).length
      rw [hheard, List.length_append, List.length_append, h.taken]
      rfl
    results := by
      rw [List.map_append]
      exact concat_prefix h.results hnext
    ordered := by
      rw [hcalls, List.pairwise_append]
      refine ⟨h.ordered, List.pairwise_singleton _ _, ?_⟩
      intro call hcall k hk
      rw [List.mem_singleton.1 hk]
      exact hbefore call hcall
    past := by
      intro call hcall
      show call < x.line.passed.length
      rw [hcalls] at hcall
      rcases List.mem_append.1 hcall with hcall | hcall
      · exact h.past call hcall
      · rw [List.mem_singleton.1 hcall, hlast]
        exact Nat.lt_succ_self last
    waits := fun hstage => absurd rfl hstage }

/-- The call that was made last takes the reply, if it is there. -/
theorem listen (h : x.Served limit) (hopen : x.Unanswered) : x.listen.Served limit := by
  unfold Caller.listen
  rcases h.receive_cases with hblocked | ⟨m, hm, hdone⟩
  · rw [hblocked]
    exact h.wait hopen hblocked
  · rw [hdone]
    exact h.take hopen hm hdone

/-- The call that was made last goes on after its write. -/
theorem written (h : x.Served limit) (hopen : x.Unanswered) (result : Attempt Unit) :
    (x.written result).Served limit := by
  cases result with
  | done => exact h.listen hopen
  | blocked => exact { h with waits := fun _ => hopen }
  | failed => exact { h with waits := fun hstage => absurd rfl hstage }

/-- A call gives up the one before it. -/
theorem call (h : x.Served limit) {m : Message} (hm : m.hop = .client)
    (hfits : m.frame.length ≤ limit.toNat) : (x.act limit (.call m)).Served limit := by
  have hlength : (x.line.act (.send m)).passed.length = x.line.passed.length + 1 :=
    List.length_append
  have hsent : Served limit { x with line := x.line.act (.send m), stage := none } := {
    kept := h.kept.send m
    lives := h.lives
    asked := by
      intro m' hm'
      rcases List.mem_append.1 hm' with hm' | hm'
      · exact h.asked m' hm'
      · rw [List.mem_singleton.1 hm']
        exact ⟨hm, hfits⟩
    fitting := h.fitting
    arrived := h.arrived
    taken := h.taken
    results := h.results
    ordered := h.ordered
    past := by
      intro call hcall
      have := h.past call hcall
      show call < (x.line.act (.send m)).passed.length
      omega
    waits := fun hstage => absurd rfl hstage }
  have hopen : Unanswered { x with line := x.line.act (.send m) } :=
    ⟨x.line.passed.length, hlength, h.past⟩
  exact written { hsent with waits := fun _ => hopen } hopen _

theorem poll (h : x.Served limit) : (x.act limit .poll).Served limit := by
  cases hstage : x.stage with
  | none =>
    have hact : x.act limit .poll = x := by simp only [Caller.act, hstage]
    rw [hact]
    exact h
  | some stage =>
    have hopen : x.Unanswered := h.waits (by simp [hstage])
    cases stage with
    | sending =>
      have hact : x.act limit .poll = Caller.written { x with line := x.line.act .resume }
          (x.line.session.resume x.line.outlet).2.2 := by
        simp only [Caller.act, hstage]
      have hresumed : Served limit { x with line := x.line.act .resume } :=
        { h with kept := h.kept.resume, waits := fun _ => hopen }
      rw [hact]
      exact hresumed.written hopen _
    | receiving =>
      have hact : x.act limit .poll = x.listen := by simp only [Caller.act, hstage]
      rw [hact]
      exact h.listen hopen

theorem reply (h : x.Served limit) {m : Message} (hm : m.hop = .client)
    (hfits : m.frame.length ≤ Deframer.defaultLimit.toNat) :
    (x.act limit (.reply m)).Served limit := by
  rw [Caller.act]
  split
  · exact { h with
      fitting := by
        intro m' hm'
        rcases List.mem_append.1 hm' with hm' | hm'
        · exact h.fitting m' hm'
        · rw [List.mem_singleton.1 hm']
          exact ⟨hm, hfits⟩
      arrived := by
        rw [List.flatMap_append]
        exact h.arrived.trans (List.prefix_append _ _)
      results := by
        rw [List.map_append]
        exact h.results.trans (List.prefix_append _ _) }
  · exact h

/-- The bytes that arrive come behind those that have. -/
theorem deliver (h : x.Served limit) (most : Nat) :
    (x.act limit (.deliver most)).Served limit := by
  obtain ⟨left, hleft⟩ := h.arrived
  have hdata : (x.replies.flatMap Message.frame).drop x.line.arrived.length = left := by
    rw [← hleft, List.drop_left]
  rw [Caller.act, hdata]
  have harrived : (x.line.act (.arrive (left.take most))).arrived =
      x.line.arrived ++ left.take most := by
    simp [Line.act, h.lives]
  have hlives : (x.line.act (.arrive (left.take most))).inlet.hasEnded = false := by
    simp [Line.act, Inlet.arrive, h.lives]
  refine { h with kept := h.kept.arrive _, lives := hlives, arrived := ?_, waits := h.waits }
  rw [harrived, ← hleft, List.prefix_append_right_inj]
  exact List.take_prefix _ _

theorem act (h : x.Served limit) {a : CallAct σ} (ha : a.Fits limit) :
    (x.act limit a).Served limit := by
  cases a with
  | call m => exact h.call ha.1 ha.2
  | poll => exact h.poll
  | reply m => exact h.reply ha.1 ha.2
  | deliver most => exact h.deliver most
  | outside change => exact { h with kept := h.kept.act (.outside change) }

theorem run (h : x.Served limit) {acts : List (CallAct σ)} (hfit : ∀ a ∈ acts, a.Fits limit) :
    (x.run limit acts).Served limit := by
  induction acts generalizing x with
  | nil => exact h
  | cons a acts ih =>
    exact ih (h.act (hfit a List.mem_cons_self)) fun b hb => hfit b (List.mem_cons_of_mem _ hb)

end Served

/-- **A call returns the reply that comes next, whichever request that answers.**  A server
    receives the requests of the calls in order, and replies in order; the results of the calls
    that take a reply are those of the replies, in order.  So the call that takes a reply takes
    its own exactly if every call before it has taken one, and otherwise that to a request of a
    call before it which was given up or failed.  The same holds of a call that is made now. -/
theorem run_matches [Outlet σ] (outlet : σ) {acts : List (CallAct σ)}
    (hfit : ∀ a ∈ acts, a.Fits limit) :
    let x := (opened outlet).run limit acts
    x.requests limit <+: x.line.passed.map Message.encode ∧
      x.answered.map Prod.snd <+: x.replies.map (fun m => Session.replied (.done m)) ∧
      (∀ taken call, (x.answered.map Prod.fst)[taken]? = some call →
        taken ≤ call ∧ (taken = call ↔ ∀ earlier < call, earlier ∈ x.answered.map Prod.fst)) ∧
      ∀ m reply, m.hop = .client → m.frame.length ≤ limit.toNat →
        (x.line.session.ask x.line.outlet x.line.inlet m).2.2.2 = .done reply →
        ∃ told, x.replies[x.answered.length]? = some told ∧ Reply.ofMessage told = .ok reply := by
  intro x
  have hserved : x.Served limit := (served_opened limit outlet).run hfit
  refine ⟨(unframe_part hserved.asked ⟨_, hserved.kept.written⟩).1, hserved.results, ?_, ?_⟩
  · intro taken call hcall
    exact ⟨index_le_of_increasing hserved.ordered hcall,
      index_eq_iff_of_increasing hserved.ordered hcall⟩
  · intro m reply hhop hframe hask
    obtain ⟨-, -, -, hreplies, -, hanswered⟩ := act_call limit x m
    obtain ⟨more, hmore⟩ := (hserved.call hhop hframe).results
    rw [hanswered reply hask, hreplies, List.map_append, List.append_assoc] at hmore
    have hlast : (x.replies.map fun m => Session.replied (.done m))[x.answered.length]? =
        some (.done reply) := by
      rw [← hmore, List.getElem?_append_right (List.length_map _).le, List.length_map, Nat.sub_self]
      rfl
    rw [List.getElem?_map, Option.map_eq_some_iff] at hlast
    obtain ⟨told, htold, hresult⟩ := hlast
    obtain ⟨_, hdone, hreply⟩ := Session.replied_eq_done hresult
    cases hdone
    exact ⟨told, htold, hreply⟩

/-- Two lookups, of which the second is polled again and again for its reply, take their own. -/
theorem run_matches_lookups :
    let acts : List (CallAct Sink) := [.call (.client (.lookup [97])),
      .reply (.client (.store [97] [49])), .deliver 11, .poll, .call (.client (.lookup [98])),
      .reply (.client (.failure [110, 111])), .deliver 4, .poll, .deliver 3, .poll]
    let x := (opened ({} : Sink)).run 64 acts
    (∀ a ∈ acts, a.Fits 64) ∧
      x.answered = [(0, .done (.object [97] [49])), (1, .done (.failure "no"))] ∧
      ∀ earlier < 1, earlier ∈ x.answered.map Prod.fst := by
  intro acts x
  have hfit : ∀ a ∈ acts, a.Fits 64 := by decide
  have hanswered : x.answered = [(0, .done (.object [97] [49])), (1, .done (.failure "no"))] := by
    decide +kernel
  obtain ⟨-, -, hcalls, -⟩ := run_matches ({} : Sink) hfit
  exact ⟨hfit, hanswered, (hcalls 1 1 (by rw [hanswered]; rfl)).2.1 rfl⟩

/-- A lookup that is given up while its reply is on the way: the next one returns the reply to
    it. -/
theorem run_stale :
    let x := (opened ({} : Sink)).run 64
      [.call (.client (.lookup [97])), .reply (.client (.store [97] [49])), .deliver 11,
        .call (.client (.lookup [98]))]
    x.answered = [(1, .done (.object [97] [49]))] := by
  decide +kernel

end Caller

end Depot
