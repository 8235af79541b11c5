/-
  Depot — the requests that left.

  An errand is a request that left on a link under a tag.  A request that waits is
  the last errand under its tag (`Traces`); no requester ever has two errands.
  Both are kept by every action, since a tag is drawn only while nothing waits
  under it, and a slot is reserved once.
-/
import Depot.Proofs.Node.Owed
import Depot.Proofs.Node.Requests

namespace Depot

variable {σ : Type u}

/-- A request that left on a link. -/
structure Errand where
  link : LinkId
  tag : Tag
  requester : LinkId × Nat
  deriving DecidableEq, Repr

namespace Node

/-! ## What no change adds -/

/-- No request waits in `m` that did not in `n`, and no link that is in both has fewer slots
    reserved. -/
structure Thins (n m : Node σ) : Prop where
  waiting : ∀ tag o', m.waiting.get? tag = some o' → ∃ o, n.waiting.get? tag = some o ∧
    o.target = o'.target ∧ ∀ r, o'.requester = some r → o.requester = some r
  slots : ∀ id l', m.links.get? id = some l' → id < n.nextLink →
    ∃ l, n.links.get? id = some l ∧ l.order.next ≤ l'.order.next
  nextLink : n.nextLink ≤ m.nextLink

namespace Thins

variable {n m k : Node σ}

theorem trans (h : n.Thins m) (h' : m.Thins k) : n.Thins k := by
  refine ⟨fun tag o' ho' => ?_, fun id l' hl' hid => ?_, Nat.le_trans h.nextLink h'.nextLink⟩
  · obtain ⟨o₁, ho₁, ht₁, hr₁⟩ := h'.waiting tag o' ho'
    obtain ⟨o, ho, ht, hr⟩ := h.waiting tag o₁ ho₁
    exact ⟨o, ho, ht.trans ht₁, fun r hr' => hr r (hr₁ r hr')⟩
  · obtain ⟨l₁, hl₁, hle₁⟩ := h'.slots id l' hl' (Nat.lt_of_lt_of_le hid h.nextLink)
    obtain ⟨l, hl, hle⟩ := h.slots id l₁ hl₁ hid
    exact ⟨l, hl, Nat.le_trans hle hle₁⟩

theorem same (hw : m.waiting = n.waiting := by rfl) (hl : m.links = n.links := by rfl)
    (hn : m.nextLink = n.nextLink := by rfl) : n.Thins m :=
  ⟨fun _ o ho => ⟨o, hw ▸ ho, rfl, fun _ hr => hr⟩, fun _ l h _ => ⟨l, hl ▸ h, Nat.le_refl _⟩,
    Nat.le_of_eq hn.symm⟩

theorem release (n : Node σ) (tag : Tag) : n.Thins (n.release tag) := by
  refine ⟨fun t o ho => ?_, fun id l hl _ => ?_, Nat.le_of_eq (nextLink_release n tag).symm⟩
  · rw [waiting_release, Table.get?_erase] at ho
    split at ho
    · cases ho
    · exact ⟨o, ho, rfl, fun _ hr => hr⟩
  · rw [links_release] at hl
    exact ⟨l, hl, Nat.le_refl _⟩

/-- A link keeps its slots or gets one more. -/
theorem modify {id : LinkId} {l l' : Link} (hl : n.links.get? id = some l)
    (hle : l.order.next ≤ l'.order.next) (hm : m.links = n.links.modify id fun _ => l')
    (hw : m.waiting = n.waiting := by rfl) (hn : m.nextLink = n.nextLink := by rfl) :
    n.Thins m := by
  refine ⟨fun _ o ho => ⟨o, hw ▸ ho, rfl, fun _ hr => hr⟩, fun k l'' hl'' _ => ?_,
    Nat.le_of_eq hn.symm⟩
  rw [hm, Table.get?_replace hl] at hl''
  split at hl''
  · rename_i hk
    cases hl''
    exact ⟨l, hk ▸ hl, hle⟩
  · exact ⟨l'', hl'', Nat.le_refl _⟩

theorem join (n : Node σ) (kind : LinkKind) (peers : Table ShardId LinkId) :
    n.Thins (n.join kind peers) := by
  refine ⟨fun _ o ho => ⟨o, ho, rfl, fun _ hr => hr⟩, fun id l hl hid => ?_, Nat.le_succ _⟩
  rw [links_join, if_neg (Nat.ne_of_lt hid)] at hl
  exact ⟨l, hl, Nat.le_refl _⟩

variable [Outbound σ]

theorem detach (n : Node σ) (id : LinkId) : n.Thins (n.detach id).1 := by
  refine ⟨?_, fun k l hl _ => ?_, Nat.le_of_eq (nextLink_detach n id).symm⟩
  · have key : ∀ {q : Node σ × List (Tag × String)}, n.Detached id q →
        ∀ tag o', q.1.waiting.get? tag = some o' → ∃ o, n.waiting.get? tag = some o ∧
          o.target = o'.target ∧ ∀ r, o'.requester = some r → o.requester = some r := by
      intro q hq tag o' ho'
      cases hq with
      | absent | idle | dialed | accepted => exact ⟨o', ho', rfl, fun _ hr => hr⟩
      | client =>
        rw [Table.get?_map, Option.map_eq_some_iff] at ho'
        obtain ⟨o, ho, rfl⟩ := ho'
        refine ⟨o, ho, ?_, fun r hr => (requester_forget.1 hr).2⟩
        unfold PendingRequest.forget
        split <;> rfl
    exact key (n.detach_cases id)
  · rw [links_detach] at hl
    split at hl
    · cases hl
    · exact ⟨l, hl, Nat.le_refl _⟩

theorem fulfil (n : Node σ) (r : LinkId × Nat) (m : Message) :
    n.Thins (n.fulfil (some r) m).1 := by
  have key : ∀ {q : Node σ × Option LinkId}, n.Fulfilled r.1 r.2 m q → n.Thins q.1 := by
    intro q hq
    cases hq with
    | gone => exact same
    | stray hl => exact modify hl (Nat.le_refl _) rfl
    | kept hl ho hf hw =>
      refine modify hl (Nat.le_of_eq ?_) rfl
      exact ((ReplyOrder.next_release _).trans (ReplyOrder.next_fill? hf)).symm
  exact key (n.fulfil_cases r.1 r.2 m)

theorem move {p q : Phase σ} (hm : p.Move q) : p.node.Thins q.node := by
  cases hm with
  | skip => exact same
  | release => exact release _ _
  | @tell n told r m lost held ht =>
    have hf := fulfil n r m
    rwa [ht] at hf
  | @refuse n told r m lost held id ht =>
    have hf := fulfil n r m
    rw [ht] at hf
    exact hf.trans (detach told id)

theorem moves {p q : Phase σ} (hm : p.Moves q) : p.node.Thins q.node := by
  induction hm with
  | refl => exact same
  | tail _ hm ih => exact ih.trans (move hm)

end Thins

variable [Outbound σ]

/-! ## What leaves -/

/-- The request that leaves in an action. -/
def sends? (n : Node σ) : Action σ → Option Errand
  | .event (.message id m) =>
    match n.links.get? id, m.forwarded? with
    | some l, some (shard, request) =>
      match n.peers.get? shard, ((n.reserve id l).issue (id, l.order.next) shard request).2 with
      | some link, .ok tag => some ⟨link, tag, (id, l.order.next)⟩
      | _, _ => none
    | _, _ => none
  | _ => none

/-- The errand starts with the next slot of its requester and a tag that is not out. -/
structure Departs (n : Node σ) (e : Errand) (p : Phase σ) : Prop where
  fresh : n.tags.isOut e.tag = false
  waiting : ∃ deadline, p.node.waiting =
    n.waiting.insert e.tag ⟨some e.requester, e.link, deadline⟩
  slot : ∃ l, n.links.get? e.requester.1 = some l ∧ e.requester.2 = l.order.next ∧
    p.node.links = n.links.modify e.requester.1 fun _ => l.reserve.1
  nextLink : p.node.nextLink = n.nextLink

omit [Outbound σ] in
/-- Only the link of the requester changes; it has one slot more. -/
theorem Departs.links {n : Node σ} {e : Errand} {p : Phase σ} (hd : n.Departs e p) {id : LinkId}
    {l : Link} (hl : p.node.links.get? id = some l) :
    id = e.requester.1 ∧ l.order.next = e.requester.2 + 1 ∨
      id ≠ e.requester.1 ∧ n.links.get? id = some l := by
  obtain ⟨l', hl', hslot, hlinks⟩ := hd.slot
  rw [hlinks, Table.get?_replace hl'] at hl
  split at hl
  · rename_i hid
    cases hl
    exact .inl ⟨hid, hslot ▸ ReplyOrder.next_reserve l'.order⟩
  · rename_i hid
    exact .inr ⟨hid, hl⟩

/-- Either a request leaves, or nothing waits that did not before. -/
theorem Opens.sends {n : Node σ} {a : Action σ} {p : Phase σ} (ho : n.Opens a p) :
    n.sends? a = none ∧ n.Thins p.node ∨ ∃ e, n.sends? a = some e ∧ n.Departs e p := by
  have hnone : ∀ {link m}, (∀ shard request, duty n.store m ≠ .forward shard request) →
      n.sends? (.event (.message link m)) = none := by
    intro link m hd
    unfold sends?
    dsimp only
    rw [forwarded?_eq_none hd]
    cases n.links.get? link <;> rfl
  have hgrow : ∀ {l : Link}, l.order.next ≤ l.reserve.1.order.next := fun {l} =>
    Nat.le_of_lt (Nat.lt_of_succ_le (Nat.le_of_eq (ReplyOrder.next_reserve l.order).symm))
  cases ho with
  | elapse | rewire | expire => exact .inl ⟨rfl, Thins.same⟩
  | enter kind =>
    have key : ∀ {q : Node σ × List (Tag × String)}, n.Entered kind q → n.Thins q.1 := by
      intro q hq
      cases hq with
      | plain | alone => exact Thins.join n _ _
      | instead => exact (Thins.join n _ _).trans (Thins.detach _ _)
    exact .inl ⟨rfl, key (n.enter_cases kind)⟩
  | close link => exact .inl ⟨rfl, Thins.detach n link⟩
  | trail hl =>
    refine .inl ⟨?_, Thins.same⟩
    unfold sends?
    dsimp only
    rw [hl]
  | answer hl hd => exact .inl ⟨hnone (by simp [hd]), Thins.same⟩
  | orphan hl hd => exact .inl ⟨hnone (by simp [hd]), Thins.same⟩
  | choke hl hd =>
    refine .inl ⟨hnone (by simp [hd]), Thins.trans ?_ (Thins.detach _ _)⟩
    exact Thins.same
  | settle hl hd =>
    refine .inl ⟨hnone (by simp [hd]), Thins.trans ?_ (Thins.release _ _)⟩
    exact Thins.same
  | refuse hl hd hf =>
    rw [duty_eq_forward_iff] at hd
    refine .inl ⟨?_, Thins.modify hl hgrow rfl⟩
    simp only [sends?, hl, hd, hf]
    split <;> trivial
  | sever hl hd ht hw hf =>
    rw [duty_eq_forward_iff] at hd
    refine .inl ⟨by simp only [sends?, hl, hd, ht, hf], Thins.trans ?_ (Thins.detach _ _)⟩
    exact Thins.modify hl hgrow rfl
  | @forward link m l shard request target tags tag wires hl hd ht hg hw hf =>
    rw [duty_eq_forward_iff] at hd
    refine .inr ⟨⟨target, tag, (link, l.order.next)⟩, by simp only [sends?, hl, hd, ht, hf], ?_⟩
    exact ⟨(TagPool.draw_spec hg).1, ⟨_, rfl⟩, ⟨l, hl, rfl, rfl⟩, rfl⟩

/-- If nothing leaves in an action, nothing waits after it that did not before. -/
theorem thins_act {n : Node σ} {a : Action σ} (h : n.sends? a = none) : n.Thins (n.act a) := by
  obtain ⟨p, ho, hm⟩ := n.act_opens a
  rcases ho.sends with ⟨-, ht⟩ | ⟨e, hsome, -⟩
  · exact ht.trans (Thins.moves hm)
  · cases h.symm.trans hsome

/-- What waits after an action waited before, or left in it. -/
theorem awaits_act {n : Node σ} {a : Action σ} {tag : Tag} {r : LinkId × Nat}
    (h : (n.act a).Awaits tag r) :
    n.Awaits tag r ∨ ∃ e, n.sends? a = some e ∧ e.requester = r := by
  obtain ⟨o, ho, hr⟩ := h
  obtain ⟨p, hopens, hm⟩ := n.act_opens a
  obtain ⟨o₁, ho₁, -, hr₁⟩ := (Thins.moves hm).waiting tag o ho
  rcases hopens.sends with ⟨-, ht⟩ | ⟨e, hsome, hd⟩
  · obtain ⟨o₂, ho₂, -, hr₂⟩ := ht.waiting tag o₁ ho₁
    exact .inl ⟨o₂, ho₂, hr₂ r (hr₁ r hr)⟩
  · obtain ⟨deadline, hw⟩ := hd.waiting
    rw [hw, Table.get?_insert] at ho₁
    split at ho₁
    · cases ho₁
      exact .inr ⟨e, hsome, Option.some.inj (hr₁ r hr)⟩
    · exact .inl ⟨o₁, ho₁, hr₁ r hr⟩

/-! ## Requests that wait and errands -/

/-- Each request that waits is the last errand under its tag, and no requester has two errands. -/
structure Traces (n : Node σ) (errands : List Errand) : Prop where
  last : ∀ tag o, n.waiting.get? tag = some o → ∃ (k : Nat) (e : Errand), errands[k]? = some e ∧
    e.tag = tag ∧ e.link = o.target ∧ (∀ r, o.requester = some r → e.requester = r) ∧
    ∀ (k' : Nat) (e' : Errand), k < k' → errands[k']? = some e' → e'.tag ≠ tag
  past : ∀ e ∈ errands, e.requester.1 < n.nextLink ∧
    ∀ l, n.links.get? e.requester.1 = some l → e.requester.2 < l.order.next
  once : (errands.map Errand.requester).Nodup

namespace Traces

variable {n m : Node σ} {errands : List Errand}

omit [Outbound σ] in
theorem thins (h : n.Traces errands) (ht : n.Thins m) : m.Traces errands := by
  refine ⟨fun tag o' ho' => ?_, fun e he => ⟨?_, fun l' hl' => ?_⟩, h.once⟩
  · obtain ⟨o, ho, htarget, hr⟩ := ht.waiting tag o' ho'
    obtain ⟨k, e, hk, htag, hlink, hreq, hlast⟩ := h.last tag o ho
    exact ⟨k, e, hk, htag, hlink.trans htarget, fun r hr' => hreq r (hr r hr'), hlast⟩
  · exact Nat.lt_of_lt_of_le (h.past e he).1 ht.nextLink
  · obtain ⟨l, hl, hle⟩ := ht.slots _ l' hl' (h.past e he).1
    exact Nat.lt_of_lt_of_le ((h.past e he).2 l hl) hle

omit [Outbound σ] in
theorem departs {e : Errand} {p : Phase σ} (h : n.Traces errands)
    (hc : Phase.Coherent ⟨n, [], []⟩) (hd : n.Departs e p) : p.node.Traces (errands ++ [e]) := by
  obtain ⟨deadline, hw⟩ := hd.waiting
  obtain ⟨l, hl, hslot, -⟩ := hd.slot
  refine ⟨fun tag o ho => ?_, fun e' he' => ?_, ?_⟩
  · rw [hw, Table.get?_insert] at ho
    split at ho
    · rename_i htag
      cases ho
      refine ⟨errands.length, e, by simp, htag.symm, rfl, fun r hr => Option.some.inj hr, ?_⟩
      intro k' e' hk' he'
      have hlen : k' < (errands ++ [e]).length := (List.getElem?_eq_some_iff.1 he').1
      rw [List.length_append, List.length_singleton] at hlen
      omega
    · rename_i htag
      obtain ⟨k, e₁, hk, htag₁, hlink, hreq, hlast⟩ := h.last tag o ho
      obtain ⟨hlt, -⟩ := List.getElem?_eq_some_iff.1 hk
      refine ⟨k, e₁, by rw [List.getElem?_append_left hlt, hk], htag₁, hlink, hreq, ?_⟩
      intro k' e' hk' he'
      rw [List.getElem?_append] at he'
      split at he'
      · exact hlast k' e' hk' he'
      · rw [List.getElem?_singleton] at he'
        split at he'
        · cases he'
          exact Ne.symm htag
        · cases he'
  · rw [hd.nextLink]
    rcases List.mem_append.1 he' with he' | he'
    · refine ⟨(h.past e' he').1, fun l' hl' => ?_⟩
      rcases hd.links hl' with ⟨hreq, hnext⟩ | ⟨-, hold⟩
      · rw [hnext, hslot]
        exact Nat.lt_succ_of_lt ((h.past e' he').2 l (hreq ▸ hl))
      · exact (h.past e' he').2 l' hold
    · cases List.mem_singleton.1 he'
      refine ⟨(hc.links _ l hl).2.2, fun l' hl' => ?_⟩
      obtain ⟨-, hnext⟩ := (hd.links hl').resolve_right fun hold => hold.1 rfl
      exact hnext ▸ Nat.lt_succ_self _
  · rw [List.map_append, List.nodup_append]
    refine ⟨h.once, by simp, fun r hr r' hr' hrr => ?_⟩
    obtain ⟨e', he', rfl⟩ := List.mem_map.1 hr
    obtain ⟨e₁, he₁, rfl⟩ := List.mem_map.1 hr'
    cases List.mem_singleton.1 he₁
    have hlt := (h.past e' he').2 l (hrr ▸ hl)
    rw [hrr, hslot] at hlt
    exact Nat.lt_irrefl _ hlt

theorem act (h : n.Traces errands) (hc : Phase.Coherent ⟨n, [], []⟩) (a : Action σ) :
    (n.act a).Traces (errands ++ (n.sends? a).toList) := by
  obtain ⟨p, ho, hm⟩ := n.act_opens a
  rcases ho.sends with ⟨hnone, ht⟩ | ⟨e, hsome, hd⟩
  · rw [hnone, Option.toList_none, List.append_nil]
    exact h.thins (ht.trans (Thins.moves hm))
  · rw [hsome]
    exact (h.departs hc hd).thins (Thins.moves hm)

end Traces

end Node

end Depot
