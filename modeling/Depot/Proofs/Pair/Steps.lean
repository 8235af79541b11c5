/-
  Depot — what two nodes with a link between them keep.

  Three things are kept by whatever happens to a pair, as long as no link goes: the near
  node accounts to each client for what it asked (`Near`), the far node has nothing but
  answered requests (`Far`), and the frames on the link are the requests that left and
  their replies, those that are under way being what the near node waits for (`Flow`).
-/
import Depot.Proofs.Pair.Faces

namespace Depot

variable {σ : Type u} {τ : Type v}

namespace Node

section

variable (n : Node σ) (a : Action σ) (id : LinkId)

/-- What is answered at once on a link, of all that is. -/
theorem filter_answers? :
    ((n.answers? a).toList.filter fun e => e.1 = id).map Prod.snd = (n.direct? id a).toList := by
  cases a with
  | attach | expire | elapse | rewire => rfl
  | event e =>
    cases e with
    | closed => rfl
    | message link m =>
      unfold answers?
      by_cases hid : link = id
      · subst hid
        cases hd : n.direct? link (.event (.message link m)) <;> simp [hd]
      · have hnone : n.direct? id (.event (.message link m)) = none := by
          rw [direct?, heard?, if_neg fun hc => hid hc.1]
          rfl
        rw [hnone]
        cases hd : n.direct? link (.event (.message link m)) <;> simp [hd, hid]

/-- What is to be forwarded of a link, of all that is. -/
theorem length_filter_asks? [Outbound σ] :
    ((n.asks? a).toList.filter fun q => q.requester.1 = id).length =
      (n.forwarded? id a).toList.length := by
  cases a with
  | attach | expire | elapse | rewire => rfl
  | event e =>
    cases e with
    | closed => rfl
    | message link m =>
      cases hl : n.links.get? link with
      | none =>
        have hnone : n.heard? id (.event (.message link m)) = none := by
          refine if_neg fun hc => ?_
          obtain ⟨l, hl'⟩ := Table.contains_eq_true.1 (hc.1 ▸ hc.2)
          cases hl.symm.trans hl'
        rw [asks?_of_none hl, forwarded?, hnone]
        rfl
      | some l =>
        rw [forwarded?_of_get? id hl]
        cases hf : m.forwarded? with
        | none => simp [asks?, hl, hf]
        | some e =>
          simp only [asks?, hl, hf]
          by_cases hid : link = id <;> simp [hid]

/-- A reply is given only on a link that is there. -/
theorem lt_of_answers? {n : Node σ} {a : Action σ} {e : LinkId × Message}
    (hc : Phase.Coherent ⟨n, [], []⟩) (h : n.answers? a = some e) : e.1 < n.nextLink := by
  cases a with
  | attach | expire | elapse | rewire => cases h
  | event v =>
    cases v with
    | closed => cases h
    | message link m =>
      obtain ⟨reply, hreply, rfl⟩ := Option.map_eq_some_iff.1 h
      refine Nat.lt_of_not_le fun hle => ?_
      rw [direct?, heard?_of_le hc hle] at hreply
      cases hreply

end

/-! ## Requests that wait -/

/-- What waits at a node are these requests, which left on the link. -/
structure Expects (n : Node σ) (k : LinkId) (pending : List (Tag × Asked)) : Prop where
  apart : (pending.map Prod.fst).Nodup
  waits : ∀ tag q, (tag, q) ∈ pending →
    ∃ deadline, n.waiting.get? tag = some ⟨some q.requester, k, deadline⟩
  listed : ∀ tag o, n.waiting.get? tag = some o → tag ∈ pending.map Prod.fst

namespace Expects

variable {n n' : Node σ} {k : LinkId} {pending : List (Tag × Asked)} {tag : Tag} {q : Asked}

theorem same (h : n.Expects k pending) (hw : n'.waiting = n.waiting) : n'.Expects k pending :=
  ⟨h.apart, hw ▸ h.waits, hw ▸ h.listed⟩

/-- A request leaves under a tag under which nothing waits. -/
theorem concat (h : n.Expects k pending) (hfree : n.waiting.get? tag = none) {deadline : Nat}
    (hw : n'.waiting = n.waiting.insert tag ⟨some q.requester, k, deadline⟩) :
    n'.Expects k (pending ++ [(tag, q)]) := by
  have hnew : tag ∉ pending.map Prod.fst := by
    intro hin
    obtain ⟨e, he, rfl⟩ := List.mem_map.1 hin
    obtain ⟨deadline', hget⟩ := h.waits e.1 e.2 he
    cases hfree.symm.trans hget
  refine ⟨?_, fun tag' q' hin => ?_, fun tag' o ho => ?_⟩
  · rw [List.map_append, List.map_singleton, ← List.concat_eq_append]
    exact h.apart.concat hnew
  · rw [hw, Table.get?_insert]
    rcases List.mem_append.1 hin with hold | hlast
    · have hne : tag' ≠ tag := by
        rintro rfl
        exact hnew (List.mem_map.2 ⟨(tag', q'), hold, rfl⟩)
      rw [if_neg hne]
      exact h.waits tag' q' hold
    · cases List.mem_singleton.1 hlast
      exact ⟨deadline, if_pos rfl⟩
  · rw [hw, Table.get?_insert] at ho
    rw [List.map_append, List.mem_append]
    split at ho
    · rename_i htag
      exact .inr (List.mem_singleton.2 htag)
    · exact .inl (h.listed tag' o ho)

/-- The first request is over. -/
theorem tail (h : n.Expects k ((tag, q) :: pending)) (hw : n'.waiting = n.waiting.erase tag) :
    n'.Expects k pending := by
  obtain ⟨hnew, hapart⟩ := List.nodup_cons.1 h.apart
  refine ⟨hapart, fun tag' q' hin => ?_, fun tag' o ho => ?_⟩
  · have hne : tag' ≠ tag := by
      rintro rfl
      exact hnew (List.mem_map.2 ⟨(tag', q'), hin, rfl⟩)
    rw [hw, Table.get?_erase, if_neg hne]
    exact h.waits tag' q' (List.mem_cons_of_mem _ hin)
  · rw [hw, Table.get?_erase] at ho
    split at ho
    · cases ho
    · rename_i hne
      exact (List.mem_cons.1 (h.listed tag' o ho)).resolve_left hne

end Expects

end Node

namespace Pair

theorem mem_left {p : Pair σ τ} {tag : Tag} {q : Asked} :
    (tag, q) ∈ p.left ↔ q ∈ p.asked ∧ q.sent = .ok tag := by
  unfold left Asked.left?
  rw [List.mem_filterMap]
  constructor
  · rintro ⟨q', hq', heq⟩
    obtain ⟨tag', htag, heq⟩ := Option.map_eq_some_iff.1 heq
    cases heq
    refine ⟨hq', ?_⟩
    cases hs : q.sent with
    | error fault => rw [hs] at htag; cases htag
    | ok tag' => rw [hs] at htag; cases htag; rfl
  · rintro ⟨hq, hs⟩
    exact ⟨q, hq, by rw [hs]; rfl⟩

/-- The requests that left and whose replies have not arrived yet. -/
def pending (p : Pair σ τ) : List (Tag × Asked) := p.left.drop p.met.length

/-! ## What is kept -/

/-- The near node is right, and accounts to each client for what it asked. -/
structure Near (shard : ShardId) (capacity : Nat) (p : Pair σ τ) : Prop where
  faces : p.near.Faces p.nearEnd (.dialed shard)
  store : p.near.store.Open
  pool : p.near.tags.capacity = capacity
  asked : ∀ q ∈ p.asked, q.request.Asks ∧ q.requester.1 < p.near.nextLink ∧
    (q.shard = shard → (∃ tag, q.sent = .ok tag) ∨
      capacity ≤ q.out ∧ q.sent = .error (.tag (.exhausted capacity)))
  given : ∀ e ∈ p.direct, e.1 < p.near.nextLink
  slots : ∀ id (i : Nat) q, (p.askedOn id)[i]? = some q → q.requester = (id, i)
  told : ∀ id, id ≠ p.nearEnd → ∃ direct forwarded,
    p.near.Told id (p.directOn id) (p.askedOn id).length p.Answers direct forwarded

/-- The far node is right, and its pool is as it was. -/
structure Far (tags : TagPool) (p : Pair σ τ) : Prop where
  faces : p.far.Faces p.farEnd .accepted
  tags : p.far.tags = tags

/-- The frames on the link are the requests that left and their replies; those under way are
    what the near node waits for. -/
structure Flow (p : Pair σ τ) : Prop where
  outward : p.outward = p.left.map Asked.frame
  expects : p.near.Expects p.nearEnd p.pending
  met_le : p.met.length ≤ p.handled.length
  handled_le : p.handled.length ≤ p.left.length
  homeward : p.homeward.length = p.handled.length
  replies : ∀ (k : Nat) tag q s s', p.left[k]? = some (tag, q) → p.handled[k]? = some (s, s') →
    ∃ reply, Node.duty s (.peer tag q.request) = .answer s' reply ∧
      p.homeward[k]? = some (Frame.ofMessage reply)

variable [Outbound σ] {p : Pair σ τ} {shard : ShardId} {capacity : Nat}

/-! ## The near node on its own -/

theorem extends_ask (p : Pair σ τ) (a : Action (Recorded σ)) : p.Extends (p.ask a) :=
  { asked := List.prefix_append _ _ }

theorem left_ask (p : Pair σ τ) (a : Action (Recorded σ)) :
    (p.ask a).left = p.left ++ ((p.near.asks? a).bind Asked.left?).toList := by
  show (p.asked ++ _).filterMap _ = _
  rw [List.filterMap_append]
  cases p.near.asks? a with
  | none => rfl
  | some q =>
    cases hq : q.left? with
    | none => simp [left, hq]
    | some e => simp [left, hq]

theorem askedOn_ask (p : Pair σ τ) (a : Action (Recorded σ)) (id : LinkId) :
    (p.ask a).askedOn id =
      p.askedOn id ++ (p.near.asks? a).toList.filter fun q => q.requester.1 = id :=
  List.filter_append ..

theorem directOn_ask (p : Pair σ τ) (a : Action (Recorded σ)) (id : LinkId) :
    (p.ask a).directOn id = p.directOn id ++ (p.near.direct? id a).toList := by
  rw [← Node.filter_answers?, directOn, directOn, ← List.map_append, ← List.filter_append]
  rfl

section

variable {a : Action (Recorded σ)} (h : p.Near shard capacity) (ho : a.Own)
  (ha : p.near.admits a = true) (hw : (p.near.act a).Whole)
include h

omit [Outbound σ] in
/-- Nothing was asked or told on a link that did not come up yet. -/
theorem Near.fresh {id : LinkId} (hid : p.near.nextLink ≤ id) :
    p.directOn id = [] ∧ p.askedOn id = [] := by
  constructor
  · refine List.map_eq_nil_iff.2 (List.filter_eq_nil_iff.2 fun e he heq => ?_)
    have hlt := h.given e he
    rw [of_decide_eq_true heq] at hlt
    exact Nat.not_lt.2 hid hlt
  · refine List.filter_eq_nil_iff.2 fun q hq heq => ?_
    have hlt := (h.asked q hq).2.1
    rw [of_decide_eq_true heq] at hlt
    exact Nat.not_lt.2 hid hlt

include ho ha hw

/-- A client's requests have the slots of their numbers. -/
theorem Near.slots_ask {id : LinkId} {i : Nat} {q : Asked}
    (hi : ((p.ask a).askedOn id)[i]? = some q) : q.requester = (id, i) := by
  have hcalm := hw.calm h.faces.coherent ho.quiet
  rw [askedOn_ask, List.getElem?_append] at hi
  split at hi
  · exact h.slots id i q hi
  · obtain ⟨hq, hid⟩ := List.mem_filter.1 (List.mem_of_getElem? hi)
    obtain rfl : q.requester.1 = id := of_decide_eq_true hid
    obtain ⟨-, hne, ⟨l, hl, hslot⟩, -⟩ := h.faces.asks ho ha hcalm (Option.mem_toList.1 hq)
    -- The next slot of the link is the number of the requests so far.
    obtain ⟨direct, forwarded, ht⟩ := h.told _ hne
    obtain ⟨-, -, hnext, -⟩ := ht.link l hl
    have hone : (p.near.asks? a).toList.length ≤ 1 := by cases p.near.asks? a <;> simp
    have hlt := Nat.lt_of_lt_of_le (List.getElem?_eq_some_iff.1 hi).1
      (Nat.le_trans (List.length_filter_le ..) hone)
    exact Prod.ext rfl (by rw [hslot, hnext]; omega)

theorem Near.told_ask {id : LinkId} (hid : id ≠ p.nearEnd) :
    ∃ direct forwarded, (p.near.act a).Told id ((p.ask a).directOn id)
      ((p.ask a).askedOn id).length (p.ask a).Answers direct forwarded := by
  obtain ⟨direct, forwarded, ht⟩ := h.told id hid
  rw [directOn_ask, askedOn_ask, List.length_append, Node.length_filter_asks?]
  refine ht.act ha h.faces.coherent h.faces.matched (fun k hk => h.faces.rest id k hk hid)
    (fun hnext => ?_) (fun f hf w => ho.rewire f hf w id) fun {r m} hr => ?_
  · obtain ⟨hdirect, hasked⟩ := h.fresh hnext.le
    exact ⟨hdirect, congrArg List.length hasked⟩
  · rcases hr with hr | hr
    · exact hr.extend (extends_ask p a)
    · obtain ⟨q, fault, hq, hreq, hsent, rfl⟩ := h.faces.resolves ho hw hr
      exact ⟨q, List.mem_append_right _ (Option.mem_toList.2 hq), hreq, .refused hsent⟩

theorem Near.ask : (p.ask a).Near shard capacity := by
  have hcalm := hw.calm h.faces.coherent ho.quiet
  have hle := (p.near.nextLink_act a).1
  refine ⟨h.faces.act ha ho.attach hw, ?_, ?_, fun q hq => ?_, fun e he => ?_,
    fun id i q hi => h.slots_ask ho ha hw hi, fun id hid => h.told_ask ho ha hw hid⟩
  · show (p.near.act a).store.Open
    rw [Node.store_act]
    exact Node.storeAfter_open h.store a
  · exact (h.faces.sends nofun ho ha hcalm).capacity.trans h.pool
  · rcases List.mem_append.1 hq with hq | hq
    · obtain ⟨hrequest, hlt, hsent⟩ := h.asked q hq
      exact ⟨hrequest, Nat.lt_of_lt_of_le hlt hle, hsent⟩
    · obtain ⟨hrequest, -, ⟨l, hl, -⟩, hsent⟩ := h.faces.asks ho ha hcalm (Option.mem_toList.1 hq)
      rw [h.pool] at hsent
      exact ⟨hrequest, Nat.lt_of_lt_of_le (h.faces.coherent.links _ l hl).2.2 hle, hsent⟩
  · rcases List.mem_append.1 he with he | he
    · exact Nat.lt_of_lt_of_le (h.given e he) hle
    · exact Nat.lt_of_lt_of_le
        (Node.lt_of_answers? h.faces.coherent (Option.mem_toList.1 he)) hle

end

omit [Outbound σ] in
/-- What happens at the far node leaves the near one as it is. -/
theorem Near.aside (h : p.Near shard capacity) {p' : Pair σ τ} (he : p.Extends p')
    (hn : p'.near = p.near := by rfl) (hk : p'.nearEnd = p.nearEnd := by rfl)
    (ha : p'.asked = p.asked := by rfl) (hd : p'.direct = p.direct := by rfl) :
    p'.Near shard capacity := by
  obtain ⟨near, far, nearEnd, farEnd, asked, direct, handled, met⟩ := p'
  cases hn
  cases hk
  cases ha
  cases hd
  refine ⟨h.faces, h.store, h.pool, h.asked, h.given, h.slots, fun id hid => ?_⟩
  obtain ⟨direct, forwarded, ht⟩ := h.told id hid
  exact ⟨direct, forwarded, ht.mono fun hr => hr.extend he⟩

/-! ## Arrivals -/

/-- The first reply that has not arrived yet, as the near node gets it. -/
structure Arrives (p : Pair σ τ) (reply : Message) (tag : Tag) (q : Asked) (t' : Store)
    (m : Message) : Prop where
  left : p.left[p.met.length]? = some (tag, q)
  duty : Node.duty p.near.store reply = .settle tag t' m
  waits : ∃ deadline, p.near.waiting.get? tag = some ⟨some q.requester, p.nearEnd, deadline⟩
  relays : ∃ s s', p.handled[p.met.length]? = some (s, s') ∧
    Relays q.request s s' p.near.store t' m

section

variable {reply m : Message} {tag : Tag} {q : Asked} {t' : Store} (h : p.Near shard capacity)
  (hop : reply.hop = .peer) (ha : p.Arrives reply tag q t' m)
  (hw : (p.near.act (.event (.message p.nearEnd reply))).Whole)

theorem extends_meet (p : Pair σ τ) (a : Action (Recorded σ)) : p.Extends (p.meet a) :=
  { met := List.prefix_append _ _ }

include h ha hw

/-- While no link goes, a reply resolves the request that it answers, and nothing else is
    resolved. -/
theorem Near.resolves_meet {r : LinkId × Nat} {m' : Message}
    (hr : p.near.Resolves (.event (.message p.nearEnd reply)) r m') :
    r = q.requester ∧ m' = m := by
  obtain ⟨deadline, hwait⟩ := ha.waits
  cases hr with
  | @answered id m₁ reply' tag' o heq hd ho hreq =>
    cases heq
    obtain ⟨store, hd⟩ := Node.duty_settles_iff.2 hd
    cases ha.duty.symm.trans hd
    obtain ⟨ho, -⟩ := Option.filter_eq_some_iff.1 ho
    cases hwait.symm.trans ho
    exact ⟨(Option.some.inj hreq).symm, rfl⟩
  | expired heq => cases heq
  | @lost tag o shard ho hreq hkind hgone =>
    exact (hw.stays h.faces.coherent (hkind ▸ Option.some_ne_none _) hgone).elim
  | refused heq hl hs hd =>
    obtain ⟨-, rfl⟩ := NodeEvent.message.inj (Action.event.inj heq)
    cases ha.duty.symm.trans (Node.duty_eq_forward_iff.2 hd)

theorem Near.answers_meet {r : LinkId × Nat} {m' : Message}
    (hr : p.Answers r m' ∨ p.near.Resolves (.event (.message p.nearEnd reply)) r m') :
    (p.meet (.event (.message p.nearEnd reply))).Answers r m' := by
  rcases hr with hr | hr
  · exact hr.extend (extends_meet p _)
  · obtain ⟨rfl, rfl⟩ := h.resolves_meet ha hw hr
    obtain ⟨deadline, hwait⟩ := ha.waits
    obtain ⟨s, s', hs, hrelays⟩ := ha.relays
    obtain ⟨hstore, -⟩ := h.faces.settles nofun ha.duty hwait (hw.calm h.faces.coherent rfl)
    refine ⟨q, (mem_left.1 (List.mem_of_getElem? ha.left)).1, rfl, .relayed ha.left hs ?_ hrelays⟩
    show (p.met ++ [_])[p.met.length]? = _
    rw [List.getElem?_concat_length, hstore]

include hop

theorem Near.meet : (p.meet (.event (.message p.nearEnd reply))).Near shard capacity := by
  obtain ⟨deadline, hwait⟩ := ha.waits
  have hcalm := hw.calm h.faces.coherent rfl
  obtain ⟨hstore, hwaiting, hpool, htaken⟩ := h.faces.settles nofun ha.duty hwait hcalm
  have hle := (p.near.nextLink_act (.event (.message p.nearEnd reply))).1
  have hadmits : p.near.admits (.event (.message p.nearEnd reply)) = true := h.faces.admits hop
  refine ⟨h.faces.act hadmits nofun hw, ?_, hpool.trans h.pool,
    fun q' hq => ?_, fun e he => Nat.lt_of_lt_of_le (h.given e he) hle, h.slots, fun id hid => ?_⟩
  · show (p.near.act _).store.Open
    rw [Node.store_act]
    exact Node.storeAfter_open h.store _
  · obtain ⟨hrequest, hlt, hsent⟩ := h.asked q' hq
    exact ⟨hrequest, Nat.lt_of_lt_of_le hlt hle, hsent⟩
  · obtain ⟨direct, forwarded, ht⟩ := h.told id hid
    have hnone : p.near.heard? id (.event (.message p.nearEnd reply)) = none :=
      if_neg fun hc => hid hc.1.symm
    obtain ⟨direct', forwarded', ht'⟩ := ht.act hadmits h.faces.coherent h.faces.matched
      (fun k hk => h.faces.rest id k hk hid)
      (fun hnext => ⟨(h.fresh hnext.le).1, congrArg List.length (h.fresh hnext.le).2⟩) nofun
      (h.answers_meet ha hw)
    rw [Node.direct?, Node.forwarded?, hnone, Option.bind_none, Option.bind_none,
      Option.toList_none, List.append_nil] at ht'
    exact ⟨direct', forwarded', ht'⟩

end

/-! ## Frames on the link -/

/-- The request that leaves is the last one under way. -/
theorem Flow.ask (h : p.Flow) {a : Action (Recorded σ)}
    (hs : p.near.Sends (p.near.act a) p.nearEnd ((p.near.asks? a).bind Asked.left?)) :
    (p.ask a).Flow := by
  have hleft := left_ask p a
  have hpending : (p.ask a).pending =
      p.pending ++ ((p.near.asks? a).bind Asked.left?).toList := by
    rw [pending, hleft]
    exact List.drop_append_of_le_length (Nat.le_trans h.met_le h.handled_le)
  refine ⟨?_, ?_, h.met_le, ?_, h.homeward, fun k tag q s s' hk hhandled => ?_⟩
  · show (p.near.act a).wires.takenOn p.nearEnd = _
    rw [hs.taken, hleft, List.map_append, ← h.outward]
    cases (p.near.asks? a).bind Asked.left? <;> rfl
  · rw [hpending]
    cases hsent : (p.near.asks? a).bind Asked.left? with
    | none =>
      rw [Option.toList_none, List.append_nil]
      exact h.expects.same (hs.keeps hsent).1
    | some e =>
      obtain ⟨hfree, deadline, hwaiting⟩ := hs.adds e.1 e.2 hsent
      exact h.expects.concat hfree hwaiting
  · rw [hleft, List.length_append]
    exact Nat.le_add_right_of_le h.handled_le
  · have hlt := (List.getElem?_eq_some_iff.1 hhandled).1
    rw [hleft, List.getElem?_append_left (Nat.lt_of_lt_of_le hlt h.handled_le)] at hk
    exact h.replies k tag q s s' hk hhandled

/-- The reply that arrives is to the first request under way. -/
theorem Flow.meet (h : p.Flow) {a : Action (Recorded σ)} {tag : Tag} {q : Asked}
    (hleft : p.left[p.met.length]? = some (tag, q)) (hlt : p.met.length < p.handled.length)
    (hw : (p.near.act a).waiting = p.near.waiting.erase tag)
    (htaken : (p.near.act a).wires.takenOn p.nearEnd = p.near.wires.takenOn p.nearEnd) :
    (p.meet a).Flow := by
  have hpending : p.pending = (tag, q) :: (p.meet a).pending := by
    obtain ⟨hlen, heq⟩ := List.getElem?_eq_some_iff.1 hleft
    show p.left.drop p.met.length = _ :: p.left.drop (p.met ++ [_]).length
    rw [List.drop_eq_getElem_cons hlen, heq, List.length_append]
    rfl
  refine ⟨htaken.trans h.outward, ?_, ?_, h.handled_le, h.homeward, h.replies⟩
  · exact Node.Expects.tail (hpending ▸ h.expects) hw
  · show (p.met ++ [_]).length ≤ _
    rw [List.length_append]
    exact hlt

variable [Outbound τ]

omit [Outbound σ] in
/-- What the far node's clients bring does not get on the link. -/
theorem Flow.aside (h : p.Flow) {a : Action (Recorded τ)}
    (htaken : (p.far.act a).wires.takenOn p.farEnd = p.far.wires.takenOn p.farEnd) :
    Flow { p with far := p.far.act a } := by
  have hhome : Pair.homeward { p with far := p.far.act a } = p.homeward := htaken
  refine ⟨h.outward, h.expects, h.met_le, h.handled_le, hhome ▸ h.homeward, ?_⟩
  rw [hhome]
  exact h.replies

omit [Outbound σ] in
/-- The next request is answered. -/
theorem Flow.handle (h : p.Flow) {a : Action (Recorded τ)} {tag : Tag} {q : Asked}
    {reply : Message} (hleft : p.left[p.handled.length]? = some (tag, q))
    (hd : Node.duty p.far.store (.peer tag q.request) = .answer (p.far.act a).store reply)
    (htaken : (p.far.act a).wires.takenOn p.farEnd =
      p.far.wires.takenOn p.farEnd ++ [Frame.ofMessage reply]) :
    (p.handle a).Flow := by
  have hhome : (p.handle a).homeward = p.homeward ++ [Frame.ofMessage reply] := htaken
  have hhandled : (p.handle a).handled.length = p.handled.length + 1 := by
    show (p.handled ++ [_]).length = _
    rw [List.length_append]
    rfl
  refine ⟨h.outward, h.expects, ?_, ?_, ?_, fun k tag' q' s s' hk hs => ?_⟩
  · rw [hhandled]
    exact Nat.le_succ_of_le h.met_le
  · rw [hhandled]
    exact (List.getElem?_eq_some_iff.1 hleft).1
  · rw [hhome, hhandled, List.length_append, h.homeward]
    rfl
  · replace hs : (p.handled ++ [_])[k]? = some (s, s') := hs
    rw [hhome, List.getElem?_append, h.homeward]
    rw [List.getElem?_append] at hs
    split at hs
    · rename_i hlt
      rw [if_pos hlt]
      exact h.replies k tag' q' s s' hk hs
    · rename_i hle
      obtain ⟨hk', heq⟩ := List.getElem?_eq_some_iff.1 hs
      rw [List.length_singleton] at hk'
      obtain rfl : k = p.handled.length := by omega
      cases hleft.symm.trans hk
      rw [if_neg hle, Nat.sub_self]
      simp only [Nat.sub_self, List.getElem_cons_zero] at heq
      cases heq
      exact ⟨reply, hd, rfl⟩

end Pair

end Depot
