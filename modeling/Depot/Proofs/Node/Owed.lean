/-
  Depot — every reply that is owed has its request.

  A client's link is owed a reply in a slot exactly while one request waits for
  it: `run_owed` says so after every action of every run in which readers say what
  their links carry.  So no reply is ever for a slot that is not owed one, and a
  node in which nothing waits owes nothing.

  In the middle of an action the reply may be on its way, its request gone from
  the table and its slot still owed; `Phase.Matched` counts such replies in.
-/
import Depot.Link.Recorded
import Depot.Proofs.Node.Coherent

namespace Depot

variable {σ : Type u}

namespace Node

/-- A request waits under the tag for the requester. -/
def Awaits (n : Node σ) (tag : Tag) (r : LinkId × Nat) : Prop :=
  ∃ o, n.waiting.get? tag = some o ∧ o.requester = some r

/-- The requester is a client that is there, and its slot is owed a reply. -/
def Owes (n : Node σ) (r : LinkId × Nat) : Prop :=
  ∃ l, n.links.get? r.1 = some l ∧ l.kind = .client ∧ l.owes r.2 = true

/-! ## What the changes do to requests and slots -/

theorem alarms_release {n : Node σ} {tag : Tag} {id slot : Nat}
    (h : Alarm.slot id slot ∈ (n.release tag).alarms) : Alarm.slot id slot ∈ n.alarms := by
  unfold release reclaim at h
  split at h
  · exact h
  · exact (List.mem_append.1 h).resolve_right (by simp)

theorem awaits_release {n : Node σ} {tag t : Tag} {r : LinkId × Nat} :
    (n.release tag).Awaits t r ↔ t ≠ tag ∧ n.Awaits t r := by
  unfold Awaits
  rw [waiting_release, Table.get?_erase]
  by_cases ht : t = tag <;> simp [ht]

theorem owes_release {n : Node σ} {tag : Tag} {r : LinkId × Nat} :
    (n.release tag).Owes r ↔ n.Owes r := by
  rw [Owes, links_release, Owes]

theorem requester_forget {o : PendingRequest} {link : LinkId} {r : LinkId × Nat} :
    (o.forget link).requester = some r ↔ r.1 ≠ link ∧ o.requester = some r := by
  unfold PendingRequest.forget
  cases ho : o.requester with
  | none => simp [ho]
  | some r' =>
    by_cases hr : r'.1 = link
    · simp only [Option.any_some, hr, decide_true, if_true, reduceCtorEq, false_iff, not_and]
      rintro hne he
      cases he
      exact hne hr
    · simp only [Option.any_some, hr, decide_false, Bool.false_eq_true, if_false, ho]
      exact ⟨fun he => ⟨by cases he; exact hr, he⟩, And.right⟩

/-- A slot whose reply is kept is not owed any more. -/
theorem owes_keep {n : Node σ} {r s : LinkId × Nat} {l : Link} {reply : Frame}
    {order : ReplyOrder Frame} (hl : n.links.get? r.1 = some l)
    (hf : l.order.fill? r.2 reply = some order) (wires : σ) :
    Owes { n with
      links := n.links.modify r.1 fun _ => { l with order := order.release.1 }, wires } s ↔
      n.Owes s ∧ s ≠ r := by
  obtain ⟨k, slot⟩ := s
  obtain ⟨c, slot'⟩ := r
  unfold Owes
  rw [Table.get?_replace hl]
  by_cases hk : k = c
  · subst hk
    have hown : Link.owes { l with order := order.release.1 } slot = true ↔
        l.owes slot = true ∧ slot ≠ slot' :=
      (ReplyOrder.isOwed_release order slot).trans (ReplyOrder.isOwed_fill? hf slot)
    simp [hl, hown, and_assoc]
  · simp [hk]

variable [Outbound σ]

theorem owes_detach {n : Node σ} {id : LinkId} {r : LinkId × Nat} :
    (n.detach id).1.Owes r ↔ r.1 ≠ id ∧ n.Owes r := by
  unfold Owes
  rw [links_detach]
  by_cases hr : r.1 = id <;> simp [hr]

theorem awaits_of_detach {n : Node σ} {id : LinkId} {tag : Tag} {r : LinkId × Nat}
    (h : (n.detach id).1.Awaits tag r) : n.Awaits tag r := by
  have key : ∀ {q : Node σ × List (Tag × String)}, n.Detached id q → q.1.Awaits tag r →
      n.Awaits tag r := by
    intro q hq hw
    cases hq with
    | absent | idle | dialed | accepted => exact hw
    | client =>
      obtain ⟨o', ho', hr⟩ := hw
      rw [Table.get?_map, Option.map_eq_some_iff] at ho'
      obtain ⟨o, ho, rfl⟩ := ho'
      exact ⟨o, ho, (requester_forget.1 hr).2⟩
  exact key (detach_cases n id) h

/-- A client takes the name off its requests when it goes; other links have none. -/
theorem awaits_detach {n : Node σ} {id : LinkId} {tag : Tag} {r : LinkId × Nat}
    (hs : ∀ l, n.links.get? id = some l → l.state = .active)
    (ho : n.Awaits tag r → n.Owes r) :
    (n.detach id).1.Awaits tag r ↔ r.1 ≠ id ∧ n.Awaits tag r := by
  have hne : n.kind? id ≠ some .client → n.Awaits tag r → r.1 ≠ id := by
    rintro hk hw rfl
    obtain ⟨l, hl, hc, -⟩ := ho hw
    exact hk (kind?_eq_some.2 ⟨l, hl, hc⟩)
  have key : ∀ {q : Node σ × List (Tag × String)}, n.Detached id q →
      (q.1.Awaits tag r ↔ r.1 ≠ id ∧ n.Awaits tag r) := by
    intro q hq
    cases hq with
    | absent h => exact ⟨fun hw => ⟨hne (by simp [kind?, h]) hw, hw⟩, And.right⟩
    | idle h hi => exact absurd (hs _ h) hi
    | dialed h hk => exact ⟨fun hw => ⟨hne (by simp [kind?, h, hk]) hw, hw⟩, And.right⟩
    | accepted h hk => exact ⟨fun hw => ⟨hne (by simp [kind?, h, hk]) hw, hw⟩, And.right⟩
    | client h hk =>
      unfold Awaits
      simp only [Table.get?_map, Option.map_eq_some_iff]
      constructor
      · rintro ⟨_, ⟨o, ho, rfl⟩, hr⟩
        exact ⟨(requester_forget.1 hr).1, o, ho, (requester_forget.1 hr).2⟩
      · rintro ⟨hr, o, ho, hor⟩
        exact ⟨_, ⟨o, ho, rfl⟩, requester_forget.2 ⟨hr, hor⟩⟩
  exact key (detach_cases n id)

end Node

/-! ## The matching -/

/-- The replies that are owed and the requests that wait are matched, but for the
    replies on their way; and what can be sent is sent. -/
structure Phase.Matched (p : Phase σ) : Prop where
  owes : ∀ {tag r}, p.node.Awaits tag r → p.node.Owes r
  awaited : ∀ {r}, p.node.Owes r → (∃ tag, p.node.Awaits tag r) ∨ r ∈ p.held.map Prod.fst
  once : ∀ {tag tag' r}, p.node.Awaits tag r → p.node.Awaits tag' r → tag = tag'
  held : ∀ {r}, r ∈ p.held.map Prod.fst →
    (p.node.links.get? r.1 = none ∨ p.node.Owes r) ∧ ∀ tag, ¬ p.node.Awaits tag r
  apart : (p.held.map Prod.fst).Nodup
  front : ∀ id l, p.node.links.get? id = some l → ReplyOrder.ready l.order.window = []
  alarms : ∀ id slot, Alarm.slot id slot ∉ p.node.alarms

namespace Phase.Matched

theorem same {n m : Node σ} {lost lost' held} (h : Phase.Matched ⟨n, lost, held⟩)
    (hl : m.links = n.links := by rfl) (hw : m.waiting = n.waiting := by rfl)
    (ha : m.alarms = n.alarms := by rfl) : Phase.Matched ⟨m, lost', held⟩ := by
  have haw : m.Awaits = n.Awaits := by
    funext tag r
    rw [Node.Awaits, hw, Node.Awaits]
  have how : m.Owes = n.Owes := by
    funext r
    rw [Node.Owes, hl, Node.Owes]
  constructor <;> dsimp only
  · rw [haw, how]
    exact h.owes
  · rw [haw, how]
    exact h.awaited
  · rw [haw]
    exact h.once
  · rw [haw, how, hl]
    exact h.held
  · exact h.apart
  · rw [hl]
    exact h.front
  · rw [ha]
    exact h.alarms

/-- A request is over, and its reply is on its way. -/
theorem release {n : Node σ} {lost lost' held tag o} (h : Phase.Matched ⟨n, lost, held⟩)
    (ho : n.waiting.get? tag = some o) (m : Message) :
    Phase.Matched ⟨n.release tag, lost', o.replies m ++ held⟩ := by
  have hmem : ∀ {r}, r ∈ (o.replies m ++ held).map Prod.fst ↔
      o.requester = some r ∨ r ∈ held.map Prod.fst := by
    intro r
    rw [List.map_append, List.mem_append, PendingRequest.replies, List.map_map]
    simp
  have hown : ∀ {r}, o.requester = some r → n.Awaits tag r := fun hr => ⟨o, ho, hr⟩
  refine ⟨fun hw => ?_, fun {r} how => ?_, fun hw hw' => ?_, fun {r} hr => ?_, ?_,
    fun id l hl => ?_, fun id slot ha => h.alarms id slot (Node.alarms_release ha)⟩
  · exact Node.owes_release.2 (h.owes (Node.awaits_release.1 hw).2)
  · rcases h.awaited (Node.owes_release.1 how) with ⟨t, ht⟩ | hr
    · by_cases htag : t = tag
      · subst htag
        obtain ⟨o', ho', hr⟩ := ht
        cases ho.symm.trans ho'
        exact .inr (hmem.2 (.inl hr))
      · exact .inl ⟨t, Node.awaits_release.2 ⟨htag, ht⟩⟩
    · exact .inr (hmem.2 (.inr hr))
  · exact h.once (Node.awaits_release.1 hw).2 (Node.awaits_release.1 hw').2
  · show ((n.release tag).links.get? r.1 = none ∨ _) ∧ _
    rw [Node.links_release, Node.owes_release]
    rcases hmem.1 hr with hr | hr
    · refine ⟨.inr (h.owes (hown hr)), fun t ht => ?_⟩
      obtain ⟨hne, ht⟩ := Node.awaits_release.1 ht
      exact hne (h.once ht (hown hr))
    · exact ⟨(h.held hr).1, fun t ht => (h.held hr).2 t (Node.awaits_release.1 ht).2⟩
  · show ((o.replies m ++ held).map Prod.fst).Nodup
    cases hr : o.requester with
    | none => simpa [PendingRequest.replies, hr] using h.apart
    | some r =>
      rw [PendingRequest.replies, hr]
      refine List.nodup_cons.2 ⟨fun hin => ?_, h.apart⟩
      exact (h.held hin).2 tag (hown hr)
  · replace hl : (n.release tag).links.get? id = some l := hl
    rw [Node.links_release] at hl
    exact h.front id l hl

/-- A slot is reserved, for which a reply is on its way. -/
theorem reserve {n : Node σ} {id l} (h : Phase.Matched ⟨n, [], []⟩)
    (hl : n.links.get? id = some l) (hk : l.kind = .client) (m : Message) :
    Phase.Matched ⟨n.reserve id l, [], [((id, l.order.next), m)]⟩ := by
  have hget : ∀ k, (n.reserve id l).links.get? k =
      if k = id then some l.reserve.1 else n.links.get? k := Table.get?_replace hl _
  have how : ∀ {r}, (n.reserve id l).Owes r ↔ n.Owes r ∨ r = (id, l.order.next) := by
    rintro ⟨k, slot⟩
    unfold Node.Owes
    rw [hget]
    by_cases hkid : k = id
    · subst hkid
      have hres : l.reserve.1.owes slot = true ↔ l.owes slot = true ∨ slot = l.order.next :=
        ReplyOrder.isOwed_reserve l.order slot
      have hkr : l.reserve.1.kind = .client := hk
      simp [hl, hk, hres, hkr]
    · simp [hkid]
  have hnew : ¬ n.Owes (id, l.order.next) := by
    rintro ⟨l', hl', -, ho⟩
    cases hl.symm.trans hl'
    exact Nat.lt_irrefl _ (ReplyOrder.lt_next_of_isOwed ho)
  refine ⟨fun hw => how.2 (.inl (h.owes hw)), fun hr => ?_, h.once, fun {r} hr => ?_,
    by simp, fun k l' hk' => ?_, h.alarms⟩
  · exact (how.1 hr).imp (fun hr => (h.awaited hr).resolve_right List.not_mem_nil)
      List.mem_singleton.2
  · cases List.mem_singleton.1 hr
    exact ⟨.inr (how.2 (.inr rfl)), fun t ht => hnew (h.owes ht)⟩
  · replace hk' : (n.reserve id l).links.get? k = some l' := hk'
    rw [hget] at hk'
    split at hk'
    · cases hk'
      have hf := h.front id l hl
      show ReplyOrder.ready (l.order.window ++ [none]) = []
      cases hw : l.order.window with
      | nil => rfl
      | cons x w =>
        rw [hw] at hf
        cases x with
        | none => rfl
        | some reply => cases hf
    · exact h.front k l' hk'

/-- In place of a reply on its way, the request leaves. -/
theorem depart {n : Node σ} {lost held r m tag} (h : Phase.Matched ⟨n, lost, (r, m) :: held⟩)
    (ho : n.Owes r) (ht : n.waiting.get? tag = none) (tags : TagPool) (wires : σ)
    (target : LinkId) (deadline : Nat) :
    Phase.Matched ⟨{ n with
      tags, wires, waiting := n.waiting.insert tag ⟨some r, target, deadline⟩ }, lost, held⟩ := by
  have haw : ∀ {t s}, Node.Awaits { n with
      tags, wires, waiting := n.waiting.insert tag ⟨some r, target, deadline⟩ } t s ↔
      t = tag ∧ s = r ∨ n.Awaits t s := by
    intro t s
    unfold Node.Awaits
    rw [Table.get?_insert]
    by_cases htag : t = tag
    · subst htag
      simp [ht, eq_comm]
    · simp [htag]
  obtain ⟨-, hno⟩ := h.held (r := r) (List.mem_cons_self ..)
  obtain ⟨hnot, hnd⟩ := List.nodup_cons.1 h.apart
  refine ⟨fun hw => ?_, fun {s} hs => ?_, fun hw hw' => ?_, fun {s} hs => ?_, hnd, h.front,
    h.alarms⟩
  · rcases haw.1 hw with ⟨-, rfl⟩ | hw
    · exact ho
    · exact h.owes hw
  · rcases h.awaited hs with ⟨t, hw⟩ | hs
    · exact .inl ⟨t, haw.2 (.inr hw)⟩
    · rcases List.mem_cons.1 hs with rfl | hs
      · exact .inl ⟨tag, haw.2 (.inl ⟨rfl, rfl⟩)⟩
      · exact .inr hs
  · rcases haw.1 hw with ⟨rfl, hs⟩ | hold
    · rcases haw.1 hw' with ⟨rfl, -⟩ | hold'
      · rfl
      · exact absurd (hs ▸ hold') (hno _)
    · rcases haw.1 hw' with ⟨-, hs⟩ | hold'
      · exact absurd (hs ▸ hold) (hno _)
      · exact h.once hold hold'
  · obtain ⟨h₁, h₂⟩ := h.held (List.mem_cons_of_mem _ hs)
    refine ⟨h₁, fun t hw => ?_⟩
    rcases haw.1 hw with ⟨-, rfl⟩ | hw
    · exact hnot hs
    · exact h₂ t hw

/-- A link comes up. -/
theorem join {n : Node σ} {lost} (h : Phase.Matched ⟨n, lost, []⟩)
    (hf : n.links.get? n.nextLink = none) (kind : LinkKind) (peers : Table ShardId LinkId) :
    Phase.Matched ⟨n.join kind peers, lost, []⟩ := by
  have how : ∀ {r}, (n.join kind peers).Owes r ↔ n.Owes r := by
    rintro ⟨k, slot⟩
    unfold Node.Owes
    rw [Node.links_join]
    by_cases hk : k = n.nextLink
    · subst hk
      simp [hf, Link.owes, ReplyOrder.isOwed]
    · simp [hk]
  refine ⟨fun hw => how.2 (h.owes hw), fun hr => h.awaited (how.1 hr), h.once,
    fun hr => absurd hr List.not_mem_nil, List.nodup_nil, fun k l hl => ?_, h.alarms⟩
  replace hl : (n.join kind peers).links.get? k = some l := hl
  rw [Node.links_join] at hl
  split at hl
  · cases hl
    rfl
  · exact h.front k l hl

variable [Outbound σ]

theorem detach {n : Node σ} {lost lost' held} (id : LinkId) (h : Phase.Matched ⟨n, lost, held⟩)
    (hs : ∀ l, n.links.get? id = some l → l.state = .active) :
    Phase.Matched ⟨(n.detach id).1, lost', held⟩ := by
  have haw : ∀ {t r}, (n.detach id).1.Awaits t r ↔ r.1 ≠ id ∧ n.Awaits t r :=
    Node.awaits_detach hs h.owes
  refine ⟨fun hw => ?_, fun hr => ?_, fun hw hw' => h.once (haw.1 hw).2 (haw.1 hw').2,
    fun {r} hr => ⟨?_, fun t ht => (h.held hr).2 t (haw.1 ht).2⟩, h.apart, fun k l hl => ?_, ?_⟩
  · exact Node.owes_detach.2 ⟨(haw.1 hw).1, h.owes (haw.1 hw).2⟩
  · obtain ⟨hne, hr⟩ := Node.owes_detach.1 hr
    exact (h.awaited hr).imp_left fun ⟨t, ht⟩ => ⟨t, haw.2 ⟨hne, ht⟩⟩
  · show (n.detach id).1.links.get? r.1 = none ∨ _
    rw [Node.links_detach, Node.owes_detach]
    by_cases hid : r.1 = id
    · exact .inl (if_pos hid)
    · rw [if_neg hid]
      exact (h.held hr).1.imp_right fun ho => ⟨hid, ho⟩
  · replace hl : (n.detach id).1.links.get? k = some l := hl
    rw [Node.links_detach] at hl
    split at hl
    · cases hl
    · exact h.front k l hl
  · show ∀ k slot, Alarm.slot k slot ∉ (n.detach id).1.alarms
    rw [Node.alarms_detach]
    exact h.alarms

/-- A reply that is kept is not owed any more. -/
theorem fulfil {n : Node σ} {lost held r m} (h : Phase.Matched ⟨n, lost, (r, m) :: held⟩) :
    Phase.Matched ⟨(n.fulfil (some r) m).1, lost, held⟩ := by
  obtain ⟨hr, hno⟩ := h.held (r := r) (List.mem_cons_self ..)
  obtain ⟨hnot, hnd⟩ := List.nodup_cons.1 h.apart
  have key : ∀ {q : Node σ × Option LinkId}, n.Fulfilled r.1 r.2 m q →
      Phase.Matched ⟨q.1, lost, held⟩ := by
    intro q hq
    cases hq with
    | gone hl =>
      refine ⟨h.owes, fun {s} hs => ?_, h.once, fun hs => h.held (List.mem_cons_of_mem _ hs), hnd,
        h.front, h.alarms⟩
      refine (h.awaited hs).imp_right fun hm => (List.mem_cons.1 hm).resolve_left ?_
      rintro rfl
      obtain ⟨l, hl', -⟩ := hs
      cases hl.symm.trans hl'
    | stray hl ho =>
      rcases hr with hr | ⟨l', hl', -, ho'⟩
      · cases hl.symm.trans hr
      · cases hl.symm.trans hl'
        rw [ho] at ho'
        cases ho'
    | @kept l order wires fault hl ho hf hw =>
      have how := fun {s : LinkId × Nat} => Node.owes_keep (s := s) hl hf wires
      refine ⟨fun {t s} hs => how.2 ⟨h.owes hs, ?_⟩, fun hs => ?_, h.once, fun {s} hs => ?_, hnd,
        fun k l' hl' => ?_, h.alarms⟩
      · rintro rfl
        exact hno _ hs
      · refine (h.awaited (how.1 hs).1).imp_right fun hm => ?_
        exact (List.mem_cons.1 hm).resolve_left (how.1 hs).2
      · obtain ⟨h₁, h₂⟩ := h.held (List.mem_cons_of_mem _ hs)
        refine ⟨h₁.imp (fun hnone => ?_) fun hs' => how.2 ⟨hs', ?_⟩, h₂⟩
        · show (n.links.modify r.1 _).get? s.1 = none
          rw [Table.get?_modify, hnone]
          rfl
        · rintro rfl
          exact hnot hs
      · replace hl' : (n.links.modify r.1 fun _ =>
          { l with order := order.release.1 }).get? k = some l' := hl'
        rw [Table.get?_replace hl] at hl'
        split at hl'
        · cases hl'
          exact ReplyOrder.ready_drop _
        · exact h.front k l' hl'
  exact key (Node.fulfil_cases n r.1 r.2 m)

/-- A link that refuses a reply is a client's. -/
theorem refused {n told : Node σ} {lost held r m id}
    (h : Phase.Matched ⟨n, lost, (r, m) :: held⟩) (hf : n.fulfil (some r) m = (told, some id)) :
    told.kind? id = some .client := by
  have ha : n.Alike told := Node.fulfil_alike hf
  obtain ⟨rfl, hthere⟩ := Node.fulfil_refused hf
  obtain ⟨l, hl, hclient, -⟩ := (h.held (r := r) (List.mem_cons_self ..)).1.resolve_left hthere
  rw [ha.kind?]
  exact Node.kind?_eq_some.2 ⟨l, hl, hclient⟩

theorem enter {n : Node σ} (h : Phase.Matched ⟨n, [], []⟩) (hc : Phase.Coherent ⟨n, [], []⟩)
    (kind : LinkKind) : Phase.Matched ⟨(n.enter kind).1, (n.enter kind).2, []⟩ := by
  have key : ∀ {q : Node σ × List (Tag × String)}, n.Entered kind q →
      Phase.Matched ⟨q.1, q.2, []⟩ := by
    intro q hq
    cases hq with
    | plain | alone => exact h.join hc.fresh _ _
    | @instead shard old =>
      refine (h.join hc.fresh (.dialed shard) _).detach old fun l hl => ?_
      rw [Node.links_join] at hl
      split at hl
      · cases hl
        rfl
      · exact (hc.links old l hl).2.1
  exact key (n.enter_cases kind)

/-! ## Actions -/

theorem move {p q : Phase σ} (hm : p.Move q) (hc : p.Coherent) (h : p.Matched) : q.Matched := by
  cases hm with
  | skip => exact h.same
  | release ho => exact h.release ho _
  | @tell n told r m lost held ht =>
    have hf : Phase.Matched ⟨(n.fulfil (some r) m).1, lost, held⟩ := h.fulfil
    rwa [ht] at hf
  | @refuse n told r m lost held id ht =>
    have hf : Phase.Matched ⟨(n.fulfil (some r) m).1, lost, held⟩ := h.fulfil
    have ha : n.Alike told := Node.fulfil_alike ht
    rw [ht] at hf
    have hct : Phase.Coherent ⟨told, lost, held⟩ := hc.alike ha fun _ hx => hx
    exact hf.detach id fun l hl => (hct.links id l hl).2.1

omit [Outbound σ] in
/-- Only what a client says is to be forwarded. -/
theorem client_of_forward {n : Node σ} {id : LinkId} {m : Message} {l : Link} {shard : ShardId}
    {request : PeerBody} (ha : n.admits (.event (.message id m)) = true)
    (hl : n.links.get? id = some l) (hd : Node.duty n.store m = .forward shard request) :
    l.kind = .client := by
  have hm : m.hop = .client := by
    cases m with
    | client body => rfl
    | peer tag body => cases body <;> cases hd
  have hk : m.hop = l.kind.hop := by
    simpa [Node.admits, hl] using ha
  cases hkind : l.kind with
  | client => rfl
  | dialed | accepted => simp [hm, hkind, LinkKind.hop] at hk

theorem opens {n : Node σ} {a : Action σ} {p : Phase σ} (ho : n.Opens a p)
    (ha : n.admits a = true) (hc : Phase.Coherent ⟨n, [], []⟩) (h : Phase.Matched ⟨n, [], []⟩) :
    p.Matched := by
  have hs : ∀ id l, n.links.get? id = some l → l.state = .active := fun id l hl =>
    (hc.links id l hl).2.1
  cases ho with
  | elapse | rewire | expire | answer | orphan => exact h.same
  | trail => exact h
  | enter kind => exact h.enter hc kind
  | close id => exact h.detach id (hs id)
  | @choke id m reply l store wires =>
    have hw : Phase.Matched ⟨{ n with store, wires }, [], []⟩ := h.same
    exact hw.detach id (hs id)
  | @forward id m l shard request target tags tag wires hl hd ht hg =>
    have hr : Phase.Matched ⟨n.reserve id l, [], [((id, l.order.next), m)]⟩ :=
      h.reserve hl (client_of_forward ha hl hd) m
    obtain ⟨howed, hno⟩ := hr.held (r := (id, l.order.next)) (List.mem_cons_self ..)
    have hfree : n.waiting.get? tag = none := by
      have := hc.tags tag
      rw [show n.tags.isOut tag = false from (TagPool.draw_spec hg).1] at this
      simpa [Table.contains] using this.symm
    refine hr.depart (howed.resolve_left fun hnone => ?_) hfree _ _ _ _
    replace hnone : (n.links.modify id fun _ => l.reserve.1).get? id = none := hnone
    rw [Table.get?_replace hl, if_pos rfl] at hnone
    cases hnone
  | refuse hl hd => exact h.reserve hl (client_of_forward ha hl hd) _
  | @sever id m l shard request target tag wires fault hl hd =>
    have hr : Phase.Matched ⟨n.reserve id l, [], [((id, l.order.next),
      Message.failure (Node.severedText shard fault))]⟩ :=
      h.reserve hl (client_of_forward ha hl hd) _
    have hw : Phase.Matched ⟨{ n.reserve id l with wires }, [], _⟩ := hr.same
    exact hw.detach target fun l' hl' => ((hc.reserve hl).links target l' hl').2.1
  | @settle id m reply l tag store o hl hd ho =>
    have hw : Phase.Matched ⟨{ n with store }, [], []⟩ := h.same
    have hr : Phase.Matched ⟨_, [], _⟩ := hw.release (Option.filter_eq_some_iff.1 ho).1 reply
    rwa [List.append_nil] at hr

/-- What every move keeps where the tables agree and the replies are matched, moves keep. -/
theorem moves {P : Phase σ → Prop} {p q : Phase σ} (h : p.Matched)
    (hP : ∀ {p q}, Phase.Move p q → p.Coherent → p.Matched → P p → P q) (hm : p.Moves q)
    (hc : p.Coherent) (hp : P p) : q.Matched ∧ P q := by
  have step : ∀ {p q : Phase σ}, p.Move q →
      p.Coherent ∧ p.Matched ∧ P p → q.Coherent ∧ q.Matched ∧ P q :=
    fun hm ⟨hc, h, hp⟩ => ⟨Coherent.move hm hc, move hm hc h, hP hm hc h hp⟩
  exact (hm.keeps step ⟨hc, h, hp⟩).2

theorem act {n : Node σ} {a : Action σ} (ha : n.admits a = true)
    (hc : Phase.Coherent ⟨n, [], []⟩) (h : Phase.Matched ⟨n, [], []⟩) :
    Phase.Matched ⟨n.act a, [], []⟩ := by
  obtain ⟨p, ho, hm⟩ := n.act_opens a
  exact ((h.opens ho ha hc).moves (P := fun _ => True) (fun _ _ _ _ => trivial) hm
    (hc.opens ho) trivial).1

theorem run {c : Config} {wires : σ} {actions : List (Action σ)}
    (h : (Node.ofConfig c wires).admitsAll actions = true) :
    Phase.Matched ⟨(Node.ofConfig c wires).run actions, [], []⟩ := by
  induction actions using List.reverseRecOn with
  | nil =>
    refine ⟨?_, ?_, ?_, nofun, List.nodup_nil, ?_, nofun⟩
    · rintro tag r ⟨o, ho, -⟩
      cases ho
    · rintro r ⟨l, hl, -⟩
      cases hl
    · rintro tag tag' r ⟨o, ho, -⟩
      cases ho
    · rintro id l hl
      cases hl
  | append_singleton actions a ih =>
    rw [Node.admitsAll_concat, Bool.and_eq_true] at h
    rw [Node.run_concat]
    exact (ih h.1).act h.2 (Coherent.run c wires actions)

end Phase.Matched

/-! ## Requests that fail -/

/-- The request under the tag is about to fail, if it still waits. -/
def Phase.Doomed (tag : Tag) (p : Phase σ) : Prop :=
  p.node.waiting.contains tag = true → ∃ text, (tag, text) ∈ p.lost

theorem Phase.Matched.owed_eq_zero {n : Node σ} (h : Phase.Matched ⟨n, [], []⟩)
    (hw : n.waiting.size = 0) {id : LinkId} {l : Link} (hl : n.links.get? id = some l)
    (hk : l.kind = .client) : l.owed = 0 := by
  refine Decidable.byContradiction fun ho => ?_
  have howes : n.Owes (id, l.order.first) :=
    ⟨l, hl, hk, ReplyOrder.isOwed_first (h.front id l hl) ho⟩
  obtain ⟨tag, o, hget, -⟩ := (h.awaited howes).resolve_right List.not_mem_nil
  rw [Table.size_eq_zero_iff.1 hw tag] at hget
  cases hget

variable [Outbound σ]

theorem Node.contains_detach (n : Node σ) (id : LinkId) (tag : Tag) :
    (n.detach id).1.waiting.contains tag = n.waiting.contains tag := by
  have key : ∀ {q : Node σ × List (Tag × String)}, n.Detached id q →
      q.1.waiting.contains tag = n.waiting.contains tag := by
    intro q hq
    cases hq with
    | absent | idle | dialed | accepted => rfl
    | client =>
      unfold Table.contains
      rw [Table.get?_map, Option.isSome_map]
  exact key (n.detach_cases id)

theorem Phase.Doomed.move {tag : Tag} {p q : Phase σ} (hm : p.Move q) (h : p.Doomed tag) :
    q.Doomed tag := by
  intro ht
  cases hm with
  | @skip n tag' text lost held hw =>
    obtain ⟨text', hin⟩ := h ht
    rcases List.mem_cons.1 hin with he | hin
    · cases he
      rw [Table.contains, hw] at ht
      cases ht
    · exact ⟨text', hin⟩
  | @release n tag' text lost held o ho =>
    replace ht : (n.release tag').waiting.contains tag = true := ht
    rw [Node.waiting_release, Table.contains, Table.get?_erase] at ht
    split at ht
    · cases ht
    · rename_i hne
      obtain ⟨text', hin⟩ := h ht
      exact ⟨text', (List.mem_cons.1 hin).resolve_left fun he => hne (congrArg Prod.fst he)⟩
  | @tell n told r m lost held hr =>
    have ha : n.Alike told := Node.fulfil_alike hr
    exact h (ha.waiting ▸ ht)
  | @refuse n told r m lost held id hr =>
    have ha : n.Alike told := Node.fulfil_alike hr
    replace ht : (told.detach id).1.waiting.contains tag = true := ht
    rw [Node.contains_detach, ha.waiting] at ht
    exact (h ht).imp fun _ hin => List.mem_append_right _ hin

/-- A request that is late does not wait any more. -/
theorem Node.get?_expire {n : Node σ} {now : Nat} {tag : Tag}
    (h : ∀ o, n.waiting.get? tag = some o → o.deadline ≤ now) :
    (n.expire now).waiting.get? tag = none := by
  have hd : Phase.Doomed tag ⟨n, n.late now, []⟩ := by
    intro ht
    obtain ⟨o, ho⟩ := Table.contains_eq_true.1 ht
    have hl : (tag, o) ∈ n.waiting.entries.filter fun e => e.2.deadline ≤ now :=
      List.mem_filter.2 ⟨Table.mem_entries.2 ho, decide_eq_true (h o ho)⟩
    exact ⟨timeoutText, List.mem_map.2 ⟨_, hl, rfl⟩⟩
  have hm : Phase.Moves ⟨n, n.late now, []⟩ ⟨n.expire now, [], []⟩ := n.failAll_moves _ _
  have hend : Phase.Doomed tag ⟨n.expire now, [], []⟩ := hm.keeps Phase.Doomed.move hd
  cases ho : (n.expire now).waiting.get? tag with
  | none => rfl
  | some o =>
    obtain ⟨text, hin⟩ := hend (Table.contains_eq_true.2 ⟨o, ho⟩)
    cases hin

/-- After every action of every run, the slots that are owed a reply and the
    requests that wait for one are matched one to one, and a client that is owed
    anything is owed the reply that comes first.  So no reply is for a slot that is
    not owed one, and where nothing waits, as once every deadline is over, no client
    is owed anything. -/
theorem Node.run_owed {c : Config} {wires : σ} {actions : List (Action σ)}
    (h : (Node.ofConfig c wires).admitsAll actions = true) :
    let n := (Node.ofConfig c wires).run actions
    let settled := fun n : Node σ =>
      ∀ id l, n.links.get? id = some l → l.kind = .client → l.owed = 0
    (∀ tag r, n.Awaits tag r → n.Owes r) ∧ (∀ r, n.Owes r → ∃! tag, n.Awaits tag r) ∧
      (∀ id l, n.links.get? id = some l → l.kind = .client → l.owed ≠ 0 →
        l.owes l.order.first = true) ∧
      (∀ id slot, Alarm.slot id slot ∉ n.alarms) ∧ (n.waiting.size = 0 → settled n) ∧
      ∀ now, (∀ tag o, n.waiting.get? tag = some o → o.deadline ≤ now) →
        (n.expire now).waiting.size = 0 ∧ settled (n.expire now) := by
  intro n settled
  have hm : Phase.Matched ⟨n, [], []⟩ := Phase.Matched.run h
  have hc : Phase.Coherent ⟨n, [], []⟩ := Phase.Coherent.run c wires actions
  refine ⟨fun tag r hw => hm.owes hw, fun r hr => ?_, fun id l hl _ ho => ?_, hm.alarms,
    fun hw id l hl hk => hm.owed_eq_zero hw hl hk, fun now hd => ?_⟩
  · obtain ⟨tag, ht⟩ := (hm.awaited hr).resolve_right List.not_mem_nil
    exact ⟨tag, ht, fun tag' ht' => hm.once ht' ht⟩
  · exact ReplyOrder.isOwed_first (hm.front id l hl) ho
  · have he : Phase.Matched ⟨n.expire now, [], []⟩ := hm.act (a := .expire now) rfl hc
    have hw : (n.expire now).waiting.size = 0 :=
      Table.size_eq_zero_iff.2 fun tag => get?_expire (hd tag)
    exact ⟨hw, fun id l hl hk => he.owed_eq_zero hw hl hk⟩

/-- A client asks for an object of another shard, whose node does not answer. -/
def lookupRun : List (Action Unit) :=
  [.attach .client, .attach (.dialed 1), .event (.message 0 (.client (.peerLookup [] 1)))]

theorem Node.run_owed_lookup :
    (Node.ofConfig {} ()).admitsAll lookupRun = true ∧
      ((Node.ofConfig {} ()).run lookupRun).Awaits 0 (0, 0) ∧
      ((Node.ofConfig {} ()).run lookupRun).Owes (0, 0) ∧
      (((Node.ofConfig {} ()).run lookupRun).expire 5000).waiting.size = 0 := by
  have ha : (Node.ofConfig {} ()).admitsAll lookupRun = true := by cbv
  have hw : ((Node.ofConfig {} ()).run lookupRun).waiting.get? 0 =
      some ⟨some (0, 0), 1, 5000⟩ := by cbv
  have hd : ∀ e ∈ ((Node.ofConfig {} ()).run lookupRun).waiting.entries,
      e.2.deadline ≤ 5000 := by
    rw [show ((Node.ofConfig {} ()).run lookupRun).waiting.entries =
      [(0, ⟨some (0, 0), 1, 5000⟩)] by cbv]
    decide
  obtain ⟨owes, -, -, -, -, late⟩ := run_owed ha
  refine ⟨ha, ⟨_, hw, rfl⟩, owes 0 (0, 0) ⟨_, hw, rfl⟩, (late 5000 fun tag o ho => ?_).1⟩
  exact hd (tag, o) (Table.mem_entries.2 ho)

end Depot
