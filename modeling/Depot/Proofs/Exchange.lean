/-
  Depot — replies that come late.

  A peer answers each errand in its own time, and all that its reply says of the
  errand is the tag.  Once a request has failed, its tag goes to another; a reply
  that comes after that is handed to whoever waits under the tag then, who is told
  what it says (`Node.act_addressed`).  `run_right_iff` says exactly when: a reply
  goes astray if its tag has left again on the same link, and the request with which
  it left still waits.  `run_astray` is such a run.
-/
import Depot.Proofs.Node.Errand
import Depot.Link.Recorded

namespace Depot

variable {σ : Type u}

/-- Whether it answers an errand. -/
def PeerBody.isReply : PeerBody → Bool
  | success _ | failure _ | store .. => true
  | lookup _ | delete _ => false

/-- Whether it brings the reply to an errand. -/
def Action.isReply : Action σ → Bool
  | event (.message _ (.peer _ body)) => body.isReply
  | _ => false

/-- The requester to whom a reply with this tag on this link is handed. -/
def Node.addressee? (n : Node σ) (link : LinkId) (tag : Tag) : Option (LinkId × Nat) :=
  (n.answered? link tag).bind PendingRequest.requester

namespace Node

theorem duty_reply (s : Store) (tag : Tag) {body : PeerBody} (hb : body.isReply = true) :
    ∃ store m, duty s (.peer tag body) = .settle tag store m := by
  cases body with
  | success | failure | store => exact ⟨_, _, rfl⟩
  | lookup | delete => cases hb

theorem addressee?_eq_some {n : Node σ} {link : LinkId} {tag : Tag} {r : LinkId × Nat} :
    n.addressee? link tag = some r ↔
      ∃ o, n.waiting.get? tag = some o ∧ o.target = link ∧ o.requester = some r := by
  unfold addressee? answered?
  rw [Option.bind_eq_some_iff]
  constructor
  · rintro ⟨o, ho, hr⟩
    obtain ⟨hw, ht⟩ := Option.filter_eq_some_iff.1 ho
    exact ⟨o, hw, of_decide_eq_true ht, hr⟩
  · rintro ⟨o, hw, ht, hr⟩
    exact ⟨o, Option.filter_eq_some_iff.2 ⟨hw, decide_eq_true ht⟩, hr⟩

variable [Outbound σ]

theorem act_reply {n : Node σ} {link : LinkId} {tag : Tag} {body : PeerBody} {store : Store}
    {m : Message} (hl : n.links.contains link = true)
    (hd : duty n.store (.peer tag body) = .settle tag store m) :
    n.act (.event (.message link (.peer tag body))) = { n with store }.settle link tag m := by
  show n.receive link (.peer tag body) = _
  unfold receive
  rw [if_pos hl, hd]

/-- A reply is handed to its addressee. -/
theorem act_addressed {n : Node σ} (hc : Phase.Coherent ⟨n, [], []⟩) {link : LinkId} {tag : Tag}
    {body : PeerBody} (hb : body.isReply = true) {r : LinkId × Nat}
    (hr : n.addressee? link tag = some r) :
    ∃ store m, (Message.peer tag body).settled? n.store = some (tag, m) ∧
      n.act (.event (.message link (.peer tag body))) =
        (Node.release { n with store } tag).tell (some r) m := by
  obtain ⟨store, m, hd⟩ := duty_reply n.store tag hb
  obtain ⟨o, hw, rfl, hor⟩ := addressee?_eq_some.1 hr
  obtain ⟨shard, hk⟩ := hc.node.targets tag o hw
  obtain ⟨l, hl, -⟩ := kind?_eq_some.1 hk
  refine ⟨store, m, duty_settles_iff.1 ⟨store, hd⟩, ?_⟩
  rw [act_reply (Table.contains_eq_true.2 ⟨l, hl⟩) hd, settle]
  have ho : ({ n with store } : Node σ).answered? o.target tag = some o :=
    Option.filter_eq_some_iff.2 ⟨hw, decide_eq_true rfl⟩
  rw [ho]
  dsimp only
  rw [hor]

/-- If there is none, no link learns of the reply. -/
theorem act_unaddressed {n : Node σ} {link : LinkId} {tag : Tag} {body : PeerBody}
    (hb : body.isReply = true) (hr : n.addressee? link tag = none) :
    (n.act (.event (.message link (.peer tag body)))).wires = n.wires := by
  cases hl : n.links.contains link with
  | false =>
    show (n.receive link _).wires = _
    rw [receive, hl]
    rfl
  | true =>
    obtain ⟨store, m, hd⟩ := duty_reply n.store tag hb
    rw [act_reply hl hd, settle]
    cases ho : ({ n with store } : Node σ).answered? link tag with
    | none => rfl
    | some o =>
      rw [addressee?, show n.answered? link tag = some o from ho] at hr
      dsimp only
      rw [show o.requester = none from hr]
      exact wires_release _ _

end Node

/-- A node, and its peers with the errands that left to them. -/
structure Exchange (σ : Type u) where
  node : Node σ
  errands : List Errand := []
  /-- The errands that were answered, and to whom the replies were handed. -/
  handed : List (Nat × (LinkId × Nat)) := []

namespace Exchange

/-- What happens next. -/
inductive Event (σ : Type u) where
  | own (a : Action σ) (h : a.isReply = false)
  /-- A peer answers an errand. -/
  | reply (k : Nat) (body : PeerBody) (h : body.isReply = true)

/-- No errand left yet. -/
def start (c : Config) (wires : σ) : Exchange σ := { node := Node.ofConfig c wires }

variable [Outbound σ]

/-- What happens changes the node, and what left or is handed to whom is written down. -/
def next (x : Exchange σ) : Event σ → Exchange σ
  | .own a _ =>
    { x with node := x.node.act a, errands := x.errands ++ (x.node.sends? a).toList }
  | .reply k body _ =>
    match x.errands[k]? with
    | none => x
    | some e =>
      { x with
        node := x.node.act (.event (.message e.link (.peer e.tag body)))
        handed := x.handed ++ ((x.node.addressee? e.link e.tag).map fun r => (k, r)).toList }

def run (x : Exchange σ) (events : List (Event σ)) : Exchange σ := events.foldl next x

omit [Outbound σ] in
/-- Every reply was handed to the requester of the errand that it answers. -/
def Right (x : Exchange σ) : Prop :=
  ∀ h ∈ x.handed, ∃ e, x.errands[h.1]? = some e ∧ e.requester = h.2

omit [Outbound σ] in
/-- The tag of the errand has left again on the same link, with a request that waits. -/
def Stale (x : Exchange σ) (k : Nat) : Prop :=
  ∃ (e e' : Errand) (k' : Nat), x.errands[k]? = some e ∧ x.errands[k']? = some e' ∧ k < k' ∧
    e'.link = e.link ∧ e'.tag = e.tag ∧ x.node.Awaits e'.tag e'.requester

/-! ## Invariants -/

omit [Outbound σ] in
/-- The errands trace what the node has sent, and what was handed was for one of them. -/
structure Sound (x : Exchange σ) : Prop where
  coherent : Phase.Coherent ⟨x.node, [], []⟩
  traces : x.node.Traces x.errands
  known : ∀ h ∈ x.handed, h.1 < x.errands.length

theorem sends?_reply (n : Node σ) (link : LinkId) (tag : Tag) (body : PeerBody) :
    n.sends? (.event (.message link (.peer tag body))) = none := by
  unfold Node.sends?
  dsimp only
  cases n.links.get? link <;> rfl

theorem next_of_none {x : Exchange σ} {k : Nat} (he : x.errands[k]? = none) (body : PeerBody)
    (hb : body.isReply = true) : x.next (.reply k body hb) = x := by
  simp only [next, he]

theorem next_of_some {x : Exchange σ} {k : Nat} {e : Errand} (he : x.errands[k]? = some e)
    (body : PeerBody) (hb : body.isReply = true) :
    x.next (.reply k body hb) = { x with
      node := x.node.act (.event (.message e.link (.peer e.tag body)))
      handed := x.handed ++ ((x.node.addressee? e.link e.tag).map fun r => (k, r)).toList } := by
  simp only [next, he]

theorem Sound.next {x : Exchange σ} (h : x.Sound) (v : Event σ) : (x.next v).Sound := by
  cases v with
  | own a =>
    refine ⟨h.coherent.act a, h.traces.act h.coherent a, fun e he => ?_⟩
    show e.1 < (x.errands ++ (x.node.sends? a).toList).length
    rw [List.length_append]
    exact Nat.lt_add_right _ (h.known e he)
  | reply k body hb =>
    cases he : x.errands[k]? with
    | none =>
      rw [next_of_none he]
      exact h
    | some e =>
      rw [next_of_some he]
      have ht := h.traces.act h.coherent (.event (.message e.link (.peer e.tag body)))
      rw [sends?_reply, Option.toList_none, List.append_nil] at ht
      have hc := h.coherent.act (.event (.message e.link (.peer e.tag body)))
      refine ⟨hc, ht, fun g hg => ?_⟩
      rcases List.mem_append.1 hg with hg | hg
      · exact h.known g hg
      · obtain ⟨r, -, rfl⟩ := Option.map_eq_some_iff.1 (Option.mem_toList.1 hg)
        exact (List.getElem?_eq_some_iff.1 he).1

theorem run_concat (x : Exchange σ) (events : List (Event σ)) (v : Event σ) :
    x.run (events ++ [v]) = (x.run events).next v := by
  rw [run, List.foldl_append]
  rfl

theorem Sound.run {x : Exchange σ} (h : x.Sound) (events : List (Event σ)) :
    (x.run events).Sound := by
  induction events using List.reverseRecOn with
  | nil => exact h
  | append_singleton events v ih =>
    rw [run_concat]
    exact ih.next v

theorem Sound.start (c : Config) (wires : σ) : (start c wires).Sound where
  coherent := Phase.Coherent.run c wires []
  traces := ⟨nofun, nofun, List.nodup_nil⟩
  known := nofun

/-! ## Where a reply goes -/

omit [Outbound σ] in
theorem Sound.requester_inj {x : Exchange σ} (h : x.Sound) {k k' : Nat} {e e' : Errand}
    (he : x.errands[k]? = some e) (he' : x.errands[k']? = some e')
    (hr : e.requester = e'.requester) : k = k' := by
  obtain ⟨hlt, -⟩ := List.getElem?_eq_some_iff.1 he
  refine (List.getElem?_inj (by simpa using hlt) h.traces.once).1 ?_
  rw [List.getElem?_map, List.getElem?_map, he, he', Option.map_some, Option.map_some, hr]

omit [Outbound σ] in
/-- A reply to an errand that is not stale is handed to its requester or to nobody. -/
theorem Sound.addressee?_iff {x : Exchange σ} (h : x.Sound) {k : Nat} {e : Errand}
    (he : x.errands[k]? = some e) :
    (∀ r, x.node.addressee? e.link e.tag = some r → r = e.requester) ↔ ¬ x.Stale k := by
  constructor
  · rintro hall ⟨e₁, e', k', he₁, he', hlt, hlink, htag, o, ho, hr⟩
    cases he.symm.trans he₁
    obtain ⟨j, f, hf, -, htarget, hreq, -⟩ := h.traces.last e'.tag o ho
    -- The request that waits is the newer errand, so the reply is for its requester.
    have hj : j = k' := h.requester_inj hf he' (hreq _ hr)
    subst hj
    cases hf.symm.trans he'
    have hgo : x.node.addressee? e.link e.tag = some e'.requester :=
      Node.addressee?_eq_some.2 ⟨o, htag ▸ ho, htarget.symm.trans hlink, hr⟩
    exact Nat.lt_irrefl _ (h.requester_inj he he' (hall _ hgo).symm ▸ hlt)
  · intro hs r hr
    obtain ⟨o, ho, ht, hor⟩ := Node.addressee?_eq_some.1 hr
    obtain ⟨j, f, hf, htag, hlink, hreq, hlast⟩ := h.traces.last e.tag o ho
    have hle : k ≤ j := Nat.le_of_not_lt fun hlt => hlast k e hlt he rfl
    rcases Nat.eq_or_lt_of_le hle with rfl | hlt
    · cases he.symm.trans hf
      exact (hreq r hor).symm
    · refine absurd ⟨e, f, j, he, hf, hlt, hlink.trans ht, htag, o, htag.symm ▸ ho, ?_⟩ hs
      rw [hreq r hor]
      exact hor

/-- A new errand leaves the others as they are. -/
theorem Sound.right_own {x : Exchange σ} (h : x.Sound) (a : Action σ) (ha : a.isReply = false) :
    (x.next (.own a ha)).Right ↔ x.Right := by
  have hget : ∀ g ∈ x.handed,
      (x.errands ++ (x.node.sends? a).toList)[g.1]? = x.errands[g.1]? := fun g hg =>
    List.getElem?_append_left (h.known g hg)
  constructor
  · intro hr g hg
    obtain ⟨e, he, hreq⟩ := hr g hg
    exact ⟨e, (hget g hg).symm.trans he, hreq⟩
  · intro hr g hg
    obtain ⟨e, he, hreq⟩ := hr g hg
    exact ⟨e, (hget g hg).trans he, hreq⟩

/-- A reply that is handed over is handed rightly unless its errand is stale. -/
theorem Sound.right_reply {x : Exchange σ} (h : x.Sound) (k : Nat) (body : PeerBody)
    (hb : body.isReply = true) :
    (x.next (.reply k body hb)).Right ↔ x.Right ∧ ¬ x.Stale k := by
  cases he : x.errands[k]? with
  | none =>
    rw [next_of_none he]
    refine (and_iff_left ?_).symm
    rintro ⟨e, -, -, he', -⟩
    cases he.symm.trans he'
  | some e =>
    rw [next_of_some he, ← h.addressee?_iff he]
    constructor
    · intro hr
      refine ⟨fun g hg => hr g (List.mem_append_left _ hg), fun r hgo => ?_⟩
      obtain ⟨e', he', hreq⟩ := hr (k, r)
        (List.mem_append_right _ (Option.mem_toList.2 (by rw [hgo]; rfl)))
      cases he.symm.trans he'
      exact hreq.symm
    · rintro ⟨hr, hgo⟩ g hg
      rcases List.mem_append.1 hg with hg | hg
      · exact hr g hg
      · obtain ⟨r, hr', rfl⟩ := Option.map_eq_some_iff.1 (Option.mem_toList.1 hg)
        exact ⟨e, he, (hgo r hr').symm⟩

/-- What was handed rightly stays so, and a reply adds to it rightly unless its errand is stale. -/
theorem Sound.right_next {x : Exchange σ} (h : x.Sound) (v : Event σ) :
    (x.next v).Right ↔ x.Right ∧ ∀ k body hb, v = .reply k body hb → ¬ x.Stale k := by
  cases v with
  | own a ha =>
    rw [h.right_own a ha]
    exact (and_iff_left fun k body hb he => by cases he).symm
  | reply k body hb =>
    rw [h.right_reply k body hb]
    refine and_congr_right fun _ => ⟨?_, fun hs => hs k body hb rfl⟩
    rintro hs _ _ _ ⟨⟩
    exact hs

/-! ## Requests that failed -/

omit [Outbound σ] in
/-- The request of the errand does not wait any more. -/
def Over (x : Exchange σ) (k : Nat) (e : Errand) : Prop :=
  x.errands[k]? = some e ∧ ¬ x.node.Awaits e.tag e.requester

/-- A request does not wait again, since no other has its slot. -/
theorem Sound.over_next {x : Exchange σ} (h : x.Sound) {k : Nat} {e : Errand} (ho : x.Over k e)
    (v : Event σ) : (x.next v).Over k e := by
  obtain ⟨he, hno⟩ := ho
  have hlt := (List.getElem?_eq_some_iff.1 he).1
  cases v with
  | own a ha =>
    have hs : (x.next (.own a ha)).Sound := h.next _
    have he' : (x.errands ++ (x.node.sends? a).toList)[k]? = some e := by
      rw [List.getElem?_append_left hlt, he]
    refine ⟨he', fun hw => ?_⟩
    rcases Node.awaits_act hw with hw | ⟨f, hf, hr⟩
    · exact hno hw
    · have hnew : (x.errands ++ (x.node.sends? a).toList)[x.errands.length]? = some f := by
        rw [hf]
        simp
      exact Nat.lt_irrefl _ (hs.requester_inj he' hnew hr.symm ▸ hlt)
  | reply k' body hb =>
    cases he' : x.errands[k']? with
    | none =>
      rw [next_of_none he']
      exact ⟨he, hno⟩
    | some f =>
      rw [next_of_some he']
      refine ⟨he, fun hw => ?_⟩
      rcases Node.awaits_act hw with hw | ⟨g, hg, -⟩
      · exact hno hw
      · rw [sends?_reply] at hg
        cases hg

theorem Sound.over_run {x : Exchange σ} (h : x.Sound) {k : Nat} {e : Errand} (ho : x.Over k e)
    (events : List (Event σ)) : (x.run events).Over k e := by
  induction events using List.reverseRecOn with
  | nil => exact ho
  | append_singleton events v ih =>
    rw [run_concat]
    exact (h.run events).over_next ih v

/-- A request that is late is over once the node has looked. -/
theorem over_expire {x : Exchange σ} {k now : Nat} {e : Errand} {o : PendingRequest}
    (he : x.errands[k]? = some e) (ho : x.node.waiting.get? e.tag = some o)
    (hd : o.deadline ≤ now) : (x.next (.own (.expire now) rfl)).Over k e := by
  have hlt := (List.getElem?_eq_some_iff.1 he).1
  constructor
  · show (x.errands ++ (x.node.sends? (.expire now)).toList)[k]? = some e
    rw [List.getElem?_append_left hlt, he]
  · rintro ⟨o', ho', -⟩
    have hnone : (x.node.expire now).waiting.get? e.tag = none := Node.get?_expire fun o₁ ho₁ => by
      cases ho.symm.trans ho₁
      exact hd
    cases hnone.symm.trans ho'

omit [Outbound σ] in
/-- A reply to a request that is over reaches nobody unless its errand is stale. -/
theorem Sound.addressee?_over {x : Exchange σ} (h : x.Sound) {k : Nat} {e : Errand}
    (ho : x.Over k e) : x.node.addressee? e.link e.tag = none ↔ ¬ x.Stale k := by
  rw [← h.addressee?_iff ho.1]
  constructor
  · intro hnone r hr
    cases hnone.symm.trans hr
  · intro hall
    cases hr : x.node.addressee? e.link e.tag with
    | none => rfl
    | some r =>
      obtain ⟨o, hw, -, hor⟩ := Node.addressee?_eq_some.1 hr
      exact absurd ⟨o, hw, hall r hr ▸ hor⟩ ho.2

/-! ## Runs -/

theorem forall_split_concat {α : Type u} {P : List α → α → Prop} {xs : List α} {x : α} :
    (∀ before y after, xs ++ [x] = before ++ y :: after → P before y) ↔
      (∀ before y after, xs = before ++ y :: after → P before y) ∧ P xs x := by
  constructor
  · refine fun h => ⟨fun before y after he => h before y (after ++ [x]) ?_, h xs x [] rfl⟩
    rw [he, List.append_assoc, List.cons_append]
  · rintro ⟨h, hx⟩ before y after he
    rcases List.eq_nil_or_concat after with rfl | ⟨after, z, rfl⟩
    · obtain ⟨rfl, hy⟩ := List.append_inj' he rfl
      cases hy
      exact hx
    · have he' : xs ++ [x] = (before ++ y :: after) ++ [z] := by simpa using he
      exact h before y after (List.append_inj' he' rfl).1

/-- In a run every reply is handed to the requester of the errand that it answers exactly if
    none comes while its errand is stale; and once a request has failed as its time was over,
    a reply to it reaches nobody exactly if its errand is not stale.  To hand a reply to a
    requester is to end the request and to tell the requester what the reply says; a reply that
    is handed to nobody reaches no link. -/
theorem run_right_iff (c : Config) (wires : σ) (events : List (Event σ)) :
    (((start c wires).run events).Right ↔
      ∀ before v after, events = before ++ v :: after →
        ∀ k body hb, v = .reply k body hb → ¬ ((start c wires).run before).Stale k) ∧
    (∀ before now after k e o, events = before ++ .own (.expire now) rfl :: after →
      ((start c wires).run before).errands[k]? = some e →
      ((start c wires).run before).node.waiting.get? e.tag = some o → o.deadline ≤ now →
      (((start c wires).run events).node.addressee? e.link e.tag = none ↔
        ¬ ((start c wires).run events).Stale k)) ∧
    let n := ((start c wires).run events).node
    ∀ link tag (body : PeerBody), body.isReply = true →
      (∀ r, n.addressee? link tag = some r → ∃ store m,
        (Message.peer tag body).settled? n.store = some (tag, m) ∧
          n.act (.event (.message link (.peer tag body))) =
            (Node.release { n with store } tag).tell (some r) m) ∧
      (n.addressee? link tag = none →
        (n.act (.event (.message link (.peer tag body)))).wires = n.wires) := by
  refine ⟨?_, ?_, fun link tag body hb => ⟨fun r => ?_, Node.act_unaddressed hb⟩⟩
  · induction events using List.reverseRecOn with
    | nil => exact ⟨fun _ before v after he => by simp at he, fun _ => nofun⟩
    | append_singleton events v ih =>
      rw [run_concat, ((Sound.start c wires).run events).right_next, ih]
      exact (forall_split_concat (P := fun before v => ∀ k body hb, v = .reply k body hb →
        ¬ ((start c wires).run before).Stale k)).symm
  · rintro before now after k e o rfl he ho hd
    have hx := (Sound.start c wires).run before
    have hover : ((start c wires).run (before ++ .own (.expire now) rfl :: after)).Over k e := by
      rw [run, List.foldl_append]
      exact (hx.next _).over_run (over_expire he ho hd) after
    exact ((Sound.start c wires).run _).addressee?_over hover
  · exact Node.act_addressed ((Sound.start c wires).run events).coherent hb

/-- A client asks for two objects of another shard, for the second when the time for the first
    is over; the reply to the first comes then. -/
def astray : List (Event Unit) :=
  [.own (.attach .client) rfl, .own (.attach (.dialed 1)) rfl,
    .own (.event (.message 0 (.client (.peerLookup [97] 1)))) rfl, .own (.elapse 50) rfl,
    .own (.expire 50) rfl, .own (.event (.message 0 (.client (.peerLookup [98] 1)))) rfl,
    .reply 0 (.store [97] [49]) rfl]

/-- The reply to the first request is handed over as that to the second. -/
theorem run_astray :
    ((start { tagCapacity := 8, timeout := 50 } ()).run astray).handed = [(0, (0, 1))] ∧
      ¬ ((start { tagCapacity := 8, timeout := 50 } ()).run astray).Right := by
  have hhanded : ((start { tagCapacity := 8, timeout := 50 } ()).run astray).handed =
      [(0, (0, 1))] := by cbv
  have herrands : ((start { tagCapacity := 8, timeout := 50 } ()).run astray).errands =
      [⟨1, 0, (0, 0)⟩, ⟨1, 0, (0, 1)⟩] := by cbv
  refine ⟨hhanded, fun h => ?_⟩
  rw [Right, hhanded, herrands] at h
  obtain ⟨e, he, hr⟩ := h (0, (0, 1)) (List.mem_singleton_self _)
  cases he
  cases hr

end Exchange

end Depot
