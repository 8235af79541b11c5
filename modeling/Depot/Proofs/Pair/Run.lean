/-
  Depot — what the clients of one node are told by another.

  Two nodes with a link between them go through clients' requests and the arrival of frames
  in any order, and no link goes.  Then each request that leaves the near node is answered
  by what the far store holds when it arrives there, and nothing else comes of it
  (`run_relays`).  The only requests to the far node that do not leave are those that find
  all tags out (`run_refused`).
-/
import Depot.Proofs.Pair.Start
import Depot.Proofs.Pair.Steps

namespace Depot

variable {σ : Type u} {τ : Type v}

namespace Pair

variable [Outbound σ] [Outbound τ] {p : Pair σ τ} {shard : ShardId} {capacity : Nat}
  {tags : TagPool}

/-- All that is kept. -/
structure Sound (shard : ShardId) (capacity : Nat) (tags : TagPool) (p : Pair σ τ) : Prop where
  near : p.Near shard capacity
  far : p.Far tags
  flow : p.Flow

omit [Outbound σ] [Outbound τ] in
/-- Nothing was asked yet, and no frame is on the link. -/
theorem Sound.fresh {c d : Config} {near : Node (Recorded σ)} {far : Node (Recorded τ)}
    {nearEnd farEnd : LinkId} (hn : near.Fresh c) (hf : far.Fresh d)
    (hnear : near.Faces nearEnd (.dialed shard)) (hfar : far.Faces farEnd .accepted) :
    Sound shard (TagPool.ofCapacity c.tagCapacity).capacity (TagPool.ofCapacity d.tagCapacity)
      { near, far, nearEnd, farEnd } where
  near := by
    refine ⟨hnear, hn.store, congrArg TagPool.capacity hn.tags,
      fun _ hq => absurd hq List.not_mem_nil, fun _ he => absurd he List.not_mem_nil,
      fun _ _ _ hi => absurd hi (Option.some_ne_none _).symm,
      fun id _ => ⟨[], [], ?_, List.prefix_rfl, Nat.le_refl 0, nofun, fun l hl => ?_⟩⟩
    · rw [hn.taken id]
      exact .nil
    · rw [hn.order id l hl]
      exact ⟨rfl, rfl, rfl, nofun⟩
  far := ⟨hfar, hf.tags⟩
  flow := by
    refine ⟨hn.taken nearEnd, ⟨List.nodup_nil, fun _ _ hq => absurd hq List.not_mem_nil,
      fun tag o ho => ?_⟩, Nat.le_refl 0, Nat.le_refl 0, congrArg List.length (hf.taken farEnd),
      fun _ _ _ _ _ hk => absurd hk (Option.some_ne_none _).symm⟩
    cases (hn.waiting tag).symm.trans ho

theorem Sound.start (c d : Config) (wires : σ) (wires' : τ) (shard : ShardId) (early late : Nat) :
    (start c d wires wires' shard early late).Sound shard
      (TagPool.ofCapacity c.tagCapacity).capacity (TagPool.ofCapacity d.tagCapacity) := by
  obtain ⟨hn, hnear⟩ := Node.linked_start c wires early (.dialed shard)
  obtain ⟨hf, hfar⟩ := Node.linked_start d wires' late .accepted
  exact .fresh hn hf hnear hfar

/-! ## Steps -/

theorem Sound.next_near (h : p.Sound shard capacity tags) {a : Action σ}
    (ha : p.admits (.near a) = true) (hw : (p.next (.near a)).near.Whole) :
    (p.next (.near a)).Sound shard capacity tags := by
  obtain ⟨hown, hadmits⟩ := Bool.and_eq_true_iff.1 ha
  have ho := own_recorded hown
  have hcalm := Node.Whole.calm hw h.near.faces.coherent ho.quiet
  exact ⟨h.near.ask ho hadmits hw, ⟨h.far.faces, h.far.tags⟩,
    h.flow.ask (h.near.faces.sends nofun ho hadmits hcalm)⟩

theorem Sound.next_far (h : p.Sound shard capacity tags) {a : Action τ}
    (ha : p.admits (.far a) = true) (hw : (p.next (.far a)).far.Whole) :
    (p.next (.far a)).Sound shard capacity tags := by
  obtain ⟨hown, hadmits⟩ := Bool.and_eq_true_iff.1 ha
  have ho := own_recorded hown
  have hcalm := Node.Whole.calm hw h.far.faces.coherent ho.quiet
  have hfaces := h.far.faces.act hadmits ho.attach hw
  obtain ⟨htags, htaken⟩ := h.far.faces.silent hfaces ho hadmits hcalm
  exact ⟨h.near.aside {}, ⟨hfaces, htags.trans h.far.tags⟩, h.flow.aside htaken⟩

theorem Sound.next_outward (h : p.Sound shard capacity tags) (hw : (p.next .outward).far.Whole) :
    (p.next .outward).Sound shard capacity tags := by
  cases hf : p.outward[p.handled.length]? with
  | none => rwa [next_outward_none hf]
  | some f =>
    rw [next_outward_some hf] at hw ⊢
    rw [h.flow.outward, List.getElem?_map, Option.map_eq_some_iff] at hf
    obtain ⟨⟨tag, q⟩, hleft, rfl⟩ := hf
    have hrequest := (h.near.asked q (mem_left.1 (List.mem_of_getElem? hleft)).1).1
    have harrival := @arrival_ofMessage (Recorded τ) p.farEnd (.peer tag q.request) rfl
      (hrequest.encodable tag)
    rw [Asked.frame, harrival] at hw ⊢
    obtain ⟨s', reply, hd, -⟩ := Node.duty_request hrequest
    obtain ⟨hstore, htags, htaken⟩ :=
      h.far.faces.answers hd (Node.Whole.calm hw h.far.faces.coherent rfl)
    exact ⟨h.near.aside { handled := List.prefix_append _ _ },
      ⟨h.far.faces.act (h.far.faces.admits rfl) nofun hw, htags.trans h.far.tags⟩,
      h.flow.handle hleft (hstore ▸ hd) htaken⟩

omit [Outbound σ] [Outbound τ] in
/-- The far node answered the first request under way with what arrives now. -/
theorem Sound.arrives (h : p.Sound shard capacity tags) {f : Frame}
    (hf : p.homeward[p.met.length]? = some f) : ∃ reply tag q t' m, f = Frame.ofMessage reply ∧
      reply.hop = .peer ∧ reply.Encodable ∧ p.Arrives reply tag q t' m := by
  have hlt : p.met.length < p.handled.length :=
    h.flow.homeward ▸ (List.getElem?_eq_some_iff.1 hf).1
  obtain ⟨⟨s, s'⟩, hhandled⟩ : ∃ e, p.handled[p.met.length]? = some e :=
    ⟨_, List.getElem?_eq_getElem hlt⟩
  obtain ⟨⟨tag, q⟩, hleft⟩ : ∃ e, p.left[p.met.length]? = some e :=
    ⟨_, List.getElem?_eq_getElem (Nat.lt_of_lt_of_le hlt h.flow.handled_le)⟩
  obtain ⟨reply, hd, hhome⟩ := h.flow.replies _ tag q s s' hleft hhandled
  cases hf.symm.trans hhome
  have hrequest := (h.near.asked q (mem_left.1 (List.mem_of_getElem? hleft)).1).1
  obtain ⟨s₁, reply₁, hd₁, hop, henc, hrelay⟩ := @Node.duty_request s tag _ hrequest
  cases hd.symm.trans hd₁
  obtain ⟨t', m, hsettle, hrelays⟩ := hrelay p.near.store h.near.store
  have hpending : (tag, q) ∈ p.pending := by
    rw [pending, List.mem_iff_getElem?]
    exact ⟨0, by rwa [List.getElem?_drop]⟩
  exact ⟨reply, tag, q, t', m, rfl, hop, henc, hleft, hsettle, h.flow.expects.waits tag q hpending,
    s, s', hhandled, hrelays⟩

theorem Sound.next_homeward (h : p.Sound shard capacity tags)
    (hw : (p.next .homeward).near.Whole) : (p.next .homeward).Sound shard capacity tags := by
  cases hf : p.homeward[p.met.length]? with
  | none => rwa [next_homeward_none hf]
  | some f =>
    rw [next_homeward_some hf] at hw ⊢
    have hlt : p.met.length < p.handled.length :=
      h.flow.homeward ▸ (List.getElem?_eq_some_iff.1 hf).1
    obtain ⟨reply, tag, q, t', m, rfl, hop, henc, ha⟩ := h.arrives hf
    have harrival := @arrival_ofMessage (Recorded σ) p.nearEnd reply hop henc
    rw [harrival] at hw ⊢
    obtain ⟨deadline, hwait⟩ := ha.waits
    obtain ⟨-, hwaiting, -, htaken⟩ := h.near.faces.settles nofun ha.duty hwait
      (Node.Whole.calm hw h.near.faces.coherent rfl)
    exact ⟨h.near.meet hop ha hw, ⟨h.far.faces, h.far.tags⟩,
      h.flow.meet ha.left hlt hwaiting htaken⟩

theorem Sound.next (h : p.Sound shard capacity tags) {v : Event σ τ} (ha : p.admits v = true)
    (hn : (p.next v).near.Whole) (hf : (p.next v).far.Whole) :
    (p.next v).Sound shard capacity tags := by
  cases v with
  | near a => exact h.next_near ha hn
  | far a => exact h.next_far ha hf
  | outward => exact h.next_outward hf
  | homeward => exact h.next_homeward hn

/-- Links that are there in the end were there before. -/
theorem whole_next {v : Event σ τ} (hn : (p.next v).near.Whole) (hf : (p.next v).far.Whole) :
    p.near.Whole ∧ p.far.Whole := by
  cases v with
  | near a => exact ⟨Node.Whole.before hn, hf⟩
  | far a => exact ⟨hn, Node.Whole.before hf⟩
  | outward =>
    cases ho : p.outward[p.handled.length]? with
    | none =>
      rw [next_outward_none ho] at hn hf
      exact ⟨hn, hf⟩
    | some f =>
      rw [next_outward_some ho] at hn hf
      exact ⟨hn, Node.Whole.before hf⟩
  | homeward =>
    cases ho : p.homeward[p.met.length]? with
    | none =>
      rw [next_homeward_none ho] at hn hf
      exact ⟨hn, hf⟩
    | some f =>
      rw [next_homeward_some ho] at hn hf
      exact ⟨Node.Whole.before hn, hf⟩

theorem Sound.run {events : List (Event σ τ)} (h : p.Sound shard capacity tags)
    (ha : p.admitsAll events = true) (hn : (p.run events).near.Whole)
    (hf : (p.run events).far.Whole) : (p.run events).Sound shard capacity tags := by
  induction events using List.reverseRecOn with
  | nil => exact h
  | append_singleton events v ih =>
    rw [admitsAll_concat, Bool.and_eq_true] at ha
    rw [run_concat] at hn hf ⊢
    obtain ⟨hn', hf'⟩ := whole_next hn hf
    exact (ih ha.1 hn' hf').next ha.2 hn hf

/-! ## Accounts -/

omit [Outbound σ] [Outbound τ] in
/-- What a client was told so far, and what it is still owed. -/
theorem Near.account (h : p.Near shard capacity) {id : LinkId} {l : Link}
    (hl : p.near.links.get? id = some l) (hk : l.kind = .client) :
    ∃ forwarded : List Message,
      Interleaves ((p.directOn id).map Frame.ofMessage) (forwarded.map Frame.ofMessage)
        (p.near.wires.takenOn id) ∧
      forwarded.length + l.owed = (p.askedOn id).length ∧
      ∀ (i : Nat) q m, (p.askedOn id)[i]? = some q → forwarded[i]? = some m → p.Outcome q m := by
  have hne : id ≠ p.nearEnd := by
    rintro rfl
    have hkind := Node.kind?_eq_some.2 ⟨l, hl, hk⟩
    cases h.faces.link.symm.trans hkind
  obtain ⟨direct, forwarded, ht⟩ := h.told id hne
  obtain ⟨rfl, hfirst, hnext, -⟩ := ht.link l hl
  refine ⟨forwarded, ht.taken, ?_, fun i q m hq hm => ?_⟩
  · rw [← hnext, ← hfirst]
    rfl
  · obtain ⟨q', hq', hreq, houtcome⟩ := ht.resolved i m hm
    -- No other request has the same slot.
    have hin : q' ∈ p.askedOn id := List.mem_filter.2 ⟨hq', decide_eq_true (by rw [hreq])⟩
    obtain ⟨j, hj⟩ := List.mem_iff_getElem?.1 hin
    cases hreq.symm.trans (h.slots id j q' hj)
    cases hq.symm.trans hj
    exact houtcome

omit [Outbound σ] [Outbound τ] in
/-- Where no frame is under way, nothing waits. -/
theorem Sound.still (h : p.Sound shard capacity tags) (hout : p.handled.length = p.outward.length)
    (hhome : p.met.length = p.homeward.length) :
    p.near.waiting.size = 0 ∧ p.near.tags.outCount = 0 ∧
      ∀ id l, p.near.links.get? id = some l → l.kind = .client → l.owed = 0 := by
  have hpending : p.pending = [] := by
    refine List.drop_eq_nil_of_le ?_
    rw [hhome, h.flow.homeward, hout, h.flow.outward, List.length_map]
  have hnone : ∀ tag, p.near.waiting.get? tag = none := by
    intro tag
    cases ho : p.near.waiting.get? tag with
    | none => rfl
    | some o =>
      have hin := h.flow.expects.listed tag o ho
      rw [hpending] at hin
      cases hin
  have hsize := Table.size_eq_zero_iff.2 hnone
  refine ⟨hsize, ?_, fun id l hl hk => h.near.faces.matched.owed_eq_zero hsize hl hk⟩
  refine List.length_eq_zero_iff.2 (List.eq_nil_iff_forall_not_mem.2 fun tag htag => ?_)
  have hisOut := h.near.faces.coherent.tags tag
  rw [TagPool.isOut_eq_true.2 htag, Table.contains, hnone] at hisOut
  cases hisOut

/-- Two nodes with a link between them go through clients' requests and the arrival of frames,
    and no link goes.  What is asked is what the near node's clients want of other shards, lookups
    as lookups and deletions as deletions.  Each client's frames at the near node are its direct replies and the
    outcomes of its first forwarded requests, each in order, those that come next being owed.  A
    request for the far node leaves unless all tags are out.  The link took one frame for each
    request that left, and one for each of these that arrived; the far node's pool is as it was,
    and nothing waits there.  Where no frame is under way, the near node waits for nothing and
    all its tags are back. -/
theorem run_relays {c d : Config} {wires : σ} {wires' : τ} {shard : ShardId} {early late : Nat}
    {events : List (Event σ τ)}
    (h : (start c d wires wires' shard early late).admitsAll events = true)
    (hn : ((start c d wires wires' shard early late).run events).near.Whole)
    (hf : ((start c d wires wires' shard early late).run events).far.Whole) :
    let p := (start c d wires wires' shard early late).run events
    let capacity := (TagPool.ofCapacity c.tagCapacity).capacity
    p.asked.map Asked.what = (start c d wires wires' shard early late).brought events ∧
    (∀ id l, p.near.links.get? id = some l → l.kind = .client →
      ∃ forwarded : List Message,
        Interleaves ((p.directOn id).map Frame.ofMessage) (forwarded.map Frame.ofMessage)
          (p.near.wires.takenOn id) ∧
        forwarded.length + l.owed = (p.askedOn id).length ∧
        ∀ (i : Nat) q m, (p.askedOn id)[i]? = some q → forwarded[i]? = some m → p.Outcome q m) ∧
    (∀ q ∈ p.asked, q.shard = shard → (∃ tag, q.sent = .ok tag) ∨
      capacity ≤ q.out ∧ q.sent = .error (.tag (.exhausted capacity))) ∧
    p.outward = p.left.map Asked.frame ∧ p.handled.length ≤ p.outward.length ∧
    p.homeward.length = p.handled.length ∧ p.met.length ≤ p.homeward.length ∧
    p.far.tags = TagPool.ofCapacity d.tagCapacity ∧ p.far.waiting.size = 0 ∧
    (p.handled.length = p.outward.length → p.met.length = p.homeward.length →
      p.near.waiting.size = 0 ∧ p.near.tags.outCount = 0 ∧
        ∀ id l, p.near.links.get? id = some l → l.kind = .client → l.owed = 0) := by
  intro p capacity
  have hs : p.Sound shard capacity (TagPool.ofCapacity d.tagCapacity) :=
    (Sound.start c d wires wires' shard early late).run h hn hf
  refine ⟨asked_run _ events, fun id l hl hk => hs.near.account hl hk, fun q hq => (hs.near.asked q hq).2.2,
    hs.flow.outward, ?_, hs.flow.homeward, ?_, hs.far.tags,
    Table.size_eq_zero_iff.2 hs.far.faces.waiting_accepted, hs.still⟩
  · rw [hs.flow.outward, List.length_map]
    exact hs.flow.handled_le
  · rw [hs.flow.homeward]
    exact hs.flow.met_le

end Pair

/-! ## One tag -/

namespace Node

theorem whole_of_two {n : Node σ} {kind kind' : LinkKind} (hn : n.nextLink = 2)
    (h : n.kind? 0 = some kind) (h' : n.kind? 1 = some kind') : n.Whole := by
  intro id hid
  rw [hn] at hid
  obtain rfl | rfl : id = 0 ∨ id = 1 := Nat.le_one_iff_eq_zero_or_eq_one.1 (Nat.le_of_lt_succ hid)
  · rw [h]
    exact Option.some_ne_none kind
  · rw [h']
    exact Option.some_ne_none kind'

/-- A request that finds no tag is refused. -/
theorem act_exhausted [Outbound σ] {n : Node σ} {id target : LinkId} {l : Link} {m : Message}
    {shard : ShardId} {request : PeerBody} {e : TagError} (hl : n.links.get? id = some l)
    (hd : duty n.store m = .forward shard request) (hp : n.peers.get? shard = some target)
    (ht : n.tags.draw = .error e) :
    n.act (.event (.message id m)) =
      (n.reserve id l).tell (some (id, l.order.next)) (Message.failure (Fault.tag e).message) := by
  have hid : n.links.contains id = true := Table.contains_eq_true.2 ⟨l, hl⟩
  have hi : (n.reserve id l).issue (id, l.order.next) shard request =
      (n.reserve id l, .error (.tag e)) := by
    simp only [issue, show (n.reserve id l).peers.get? shard = some target from hp,
      show (n.reserve id l).tags.draw = .error e from ht]
  show n.receive id m = _
  simp only [receive, hid, if_true, hd]
  exact forward_error hl hi

end Node

namespace Pair

/-- A node with one tag and a client, and one with a client. -/
def scanty : Pair Unit Unit := start { tagCapacity := 1 } {} () () 1 1 1

/-- The far node's client stores two objects, and the near node's asks for the first. -/
def fetchRun : List (Event Unit Unit) :=
  [.far (.event (.message 0 (.client (.store [97] [1])))),
    .far (.event (.message 0 (.client (.store [98] [2])))),
    .near (.event (.message 0 (.client (.peerLookup [97] 1))))]

/-- It has the first object, and deletes the second one. -/
def fetchedRun : List (Event Unit Unit) :=
  fetchRun ++ [.outward, .homeward, .near (.event (.message 0 (.client (.peerDelete [98] 1)))),
    .outward, .homeward]

theorem run_relays_fetch :
    let p := scanty.run fetchedRun
    scanty.admitsAll fetchedRun = true ∧ p.near.Whole ∧ p.far.Whole ∧
      p.asked.map Asked.what = [(0, 1, .lookup [97]), (0, 1, .delete [98])] ∧
      p.outward = p.left.map Asked.frame ∧ p.far.waiting.size = 0 ∧ p.near.waiting.size = 0 ∧
      p.far.store.get? [98] = none ∧
      p.near.wires.takenOn 0 = [Frame.ofMessage (.client (.store [97] [1])),
        Frame.ofMessage (Message.success (Node.deletedText [98]))] := by
  have ha : scanty.admitsAll fetchedRun = true := by cbv
  have hn : (scanty.run fetchedRun).near.Whole := Node.whole_of_two (by cbv) (by cbv) (by cbv)
  have hf : (scanty.run fetchedRun).far.Whole := Node.whole_of_two (by cbv) (by cbv) (by cbv)
  have hbrought : scanty.brought fetchedRun = [(0, 1, .lookup [97]), (0, 1, .delete [98])] := by
    cbv
  obtain ⟨hasked, -, -, hout, -, -, -, -, hfar, hstill⟩ := run_relays ha hn hf
  exact ⟨ha, hn, hf, hasked.trans hbrought, hout, hfar, (hstill (by cbv) (by cbv)).1, by cbv,
    by cbv⟩

/-- The near node's client asks for both objects at once. -/
def crowdedRun : List (Event Unit Unit) :=
  fetchRun ++ [.near (.event (.message 0 (.client (.peerLookup [98] 1))))] ++ [.outward] ++
    [.homeward]

/-- The pair once the second request is refused with `m`. -/
def crowded (m : Message) : Pair Unit Unit :=
  let p := scanty.run fetchRun
  { p with
    near := (p.near.reserve 0 { id := 0, kind := .client, order := { window := [none] } }).tell
      (some (0, 1)) m
    asked := p.asked ++ [⟨(0, 1), 1, .lookup [98], 1, .error (.tag (.exhausted 1))⟩] }

theorem run_crowded : scanty.run crowdedRun =
    ((crowded (Message.failure (Fault.tag (.exhausted 1)).message)).next .outward).next
      .homeward := by
  have hl : (scanty.run fetchRun).near.links.get? 0 =
      some { id := 0, kind := .client, order := { window := [none] } } := by cbv
  have hp : (scanty.run fetchRun).near.peers.get? 1 = some 1 := by cbv
  have ht : (scanty.run fetchRun).near.tags.draw = .error (.exhausted 1) := by cbv
  have hasks : (scanty.run fetchRun).near.asks? (.event (.message 0 (.client (.peerLookup [98] 1))))
      = some ⟨(0, 1), 1, .lookup [98], 1, .error (.tag (.exhausted 1))⟩ := by cbv
  have hnone : (scanty.run fetchRun).near.answers?
      (.event (.message 0 (.client (.peerLookup [98] 1)))) = none := by cbv
  have hact := @Node.act_exhausted _ _ _ _ _ _ (.client (.peerLookup [98] 1)) _ _ _ hl rfl hp ht
  have hask : (scanty.run fetchRun).ask (.event (.message 0 (.client (.peerLookup [98] 1)))) =
      crowded (Message.failure (Fault.tag (.exhausted 1)).message) := by
    rw [ask, hact, hasks, hnone, Option.toList_none, List.append_nil]
    rfl
  rw [crowdedRun, run_concat, run_concat, run_concat, ← hask]
  rfl

/-- The second request finds no tag: its client is told so, though the far node holds the object
    and is never asked. -/
theorem run_refused :
    let p := scanty.run crowdedRun
    scanty.admitsAll crowdedRun = true ∧ p.near.Whole ∧ p.far.Whole ∧
      p.handled.length = p.outward.length ∧ p.met.length = p.homeward.length ∧
      (p.askedOn 0).map Asked.request = [.lookup [97], .lookup [98]] ∧
      p.far.store.get? [98] = some ⟨[2], true⟩ ∧
      p.near.wires.takenOn 0 = [Frame.ofMessage (.client (.store [97] [1])),
        Frame.ofMessage (Message.failure (Fault.tag (.exhausted 1)).message)] := by
  have hadmits : (scanty.admitsAll fetchRun && (scanty.run fetchRun).admits
      (.near (.event (.message 0 (.client (.peerLookup [98] 1)))))) = true := by cbv
  have ha : scanty.admitsAll crowdedRun = true := by
    rw [crowdedRun, admitsAll_concat, admitsAll_concat, admitsAll_concat, hadmits]
    rfl
  have key : ∀ m, let p := ((crowded m).next .outward).next .homeward
      p.near.Whole ∧ p.far.Whole ∧ p.handled.length = p.outward.length ∧
        p.met.length = p.homeward.length ∧
        (p.askedOn 0).map Asked.request = [.lookup [97], .lookup [98]] ∧
        p.far.store.get? [98] = some ⟨[2], true⟩ ∧
        p.near.wires.takenOn 0 = [Frame.ofMessage (.client (.store [97] [1])),
          Frame.ofMessage m] := by
    intro m
    exact ⟨Node.whole_of_two (by cbv) (by cbv) (by cbv),
      Node.whole_of_two (by cbv) (by cbv) (by cbv), by cbv, by cbv, by cbv, by cbv, by cbv⟩
  intro p
  have hp : p = _ := run_crowded
  rw [hp]
  exact ⟨ha, key _⟩

end Pair

end Depot
