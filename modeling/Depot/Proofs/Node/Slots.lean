/-
  Depot — the last slot of a reply order.

  While a slot stands at the end of a reply order and waits, whatever the node does to other
  replies it does as if the slot were not there: every change commutes with `withSlot`, and so
  does a whole cascade (`failAll_withSlot`).  The reply to it waits behind the others, or goes at
  once if there are none (`fulfil_next_of_owed`, `fulfil_next_of_free`).
-/
import Depot.Proofs.Node.Owed
import Depot.Proofs.Table

namespace Depot

variable {σ : Type u}

/-! ## Orders and links with a slot more -/

namespace ReplyOrder

variable {α : Type u} {o : ReplyOrder α} {slot : Nat}

theorem ready_append_none (w : List (Option α)) : ready (w ++ [none]) = ready w := by
  induction w with
  | nil => rfl
  | cons x w ih =>
    cases x with
    | none => rfl
    | some reply => rw [List.cons_append, ready, ih, ready]

theorem release_reserve (o : ReplyOrder α) :
    o.reserve.1.release = (o.release.1.reserve.1, o.release.2) := by
  have hready : ready o.reserve.1.window = ready o.window := ready_append_none o.window
  have hdrop : (o.window ++ [none]).drop (ready o.window).length =
      o.window.drop (ready o.window).length ++ [none] :=
    List.drop_append_of_le_length o.length_release_le
  simp only [release, hready]
  simp only [reserve, hdrop]

theorem fill?_reserve (h : o.isOwed slot = true) (reply : α) :
    o.reserve.1.fill? slot reply = (o.fill? slot reply).map fun o' => o'.reserve.1 := by
  obtain ⟨-, hnone⟩ := isOwed_iff.1 h
  obtain ⟨hlt, -⟩ := List.getElem?_eq_some_iff.1 hnone
  have howed : o.reserve.1.isOwed slot = true := (isOwed_reserve o slot).2 (.inl h)
  rw [fill?, if_pos howed, fill?, if_pos h, Option.map_some]
  simp only [reserve, List.set_append_left _ _ hlt]

theorem fill?_next (o : ReplyOrder α) (reply : α) :
    o.reserve.1.fill? o.next reply = some { o with window := o.window ++ [some reply] } := by
  have howed : o.reserve.1.isOwed o.next = true := (isOwed_reserve o o.next).2 (.inr rfl)
  have hindex : o.next - o.reserve.1.first = o.window.length := Nat.add_sub_cancel_left ..
  rw [fill?, if_pos howed, hindex]
  simp only [reserve, List.set_append_right _ _ (Nat.le_refl _), Nat.sub_self, List.set_cons_zero]

/-- Nothing is ready behind a slot that is owed its reply. -/
theorem ready_append_of_owed {w : List (Option α)} (h : ready w = []) (hne : w ≠ [])
    (w' : List (Option α)) : ready (w ++ w') = [] := by
  cases w with
  | nil => exact absurd rfl hne
  | cons x w =>
    cases x with
    | none => rfl
    | some reply => cases h

end ReplyOrder

namespace Link

variable [Outbound σ] {l : Link}

/-- What is sent does not depend on the replies that are owed. -/
theorem sendAll_order (l : Link) (order : ReplyOrder Frame) (wires : σ) (fs : List Frame) :
    ({ l with order } : Link).sendAll wires fs = l.sendAll wires fs := by
  induction fs generalizing wires with
  | nil => rfl
  | cons f fs ih =>
    have hsend : ({ l with order } : Link).send wires f = l.send wires f := rfl
    simp only [sendAll, hsend, ih]

theorem fulfil_reserve {slot : Nat} (h : l.owes slot = true) (wires : σ) (f : Frame) :
    l.reserve.1.fulfil wires slot f =
      ((l.fulfil wires slot f).1.reserve.1, (l.fulfil wires slot f).2) := by
  obtain ⟨order, hfill⟩ : ∃ order, l.order.fill? slot f = some order :=
    ⟨_, if_pos h⟩
  have hreserve : l.reserve.1.order.fill? slot f = some order.reserve.1 := by
    show l.order.reserve.1.fill? slot f = _
    rw [ReplyOrder.fill?_reserve h, hfill, Option.map_some]
  unfold fulfil
  simp only [hfill, hreserve, ReplyOrder.release_reserve]
  exact Prod.ext rfl (sendAll_order l _ _ _)

theorem fulfil_next_of_owed (hfront : ReplyOrder.ready l.order.window = []) (howed : l.owed ≠ 0)
    (wires : σ) (f : Frame) : l.reserve.1.fulfil wires l.order.next f =
      ({ l with order := { l.order with window := l.order.window ++ [some f] } }, wires, none) := by
  have hfill : l.reserve.1.order.fill? l.order.next f =
      some { l.order with window := l.order.window ++ [some f] } := l.order.fill?_next f
  have hready : ReplyOrder.ready (l.order.window ++ [some f]) = [] :=
    ReplyOrder.ready_append_of_owed hfront (fun hnil => howed (congrArg List.length hnil)) _
  unfold fulfil
  simp only [hfill, ReplyOrder.release, hready, sendAll, List.length_nil, Nat.add_zero,
    List.drop_zero]
  rfl

theorem fulfil_next_of_free (howed : l.owed = 0) (wires : σ) (f : Frame) :
    l.reserve.1.fulfil wires l.order.next f =
      ({ l with order := ⟨l.order.next + 1, []⟩ }, l.send wires f) := by
  have hnil : l.order.window = [] := List.length_eq_zero_iff.1 howed
  have hfill : l.reserve.1.order.fill? l.order.next f =
      some { l.order with window := l.order.window ++ [some f] } := l.order.fill?_next f
  have hsend : l.reserve.1.sendAll wires [f] = l.send wires f := by
    show l.sendAll wires [f] = _
    simp only [sendAll]
    split <;> simp only [*]
  unfold fulfil
  rw [hfill]
  simp only [ReplyOrder.release, ReplyOrder.next, hnil, List.nil_append, ReplyOrder.ready, hsend]
  rfl

end Link

/-! ## Nodes with a slot more -/

namespace Node

/-- The node once a further slot of a link is reserved, if the link is there. -/
def withSlot (n : Node σ) (id : LinkId) : Node σ :=
  { n with links := n.links.modify id fun l => l.reserve.1 }

variable {n : Node σ} {id : LinkId}

theorem reserve_eq_withSlot {l : Link} (hl : n.links.get? id = some l) :
    n.reserve id l = n.withSlot id := by
  have hlinks : (n.links.modify id fun _ => l.reserve.1) =
      n.links.modify id fun l => l.reserve.1 := by
    refine Table.modify_congr fun l' hl' => ?_
    cases hl.symm.trans hl'
    rfl
  rw [reserve, hlinks, withSlot]

theorem get?_withSlot (n : Node σ) (id k : LinkId) :
    (n.withSlot id).links.get? k =
      (n.links.get? k).map fun l => if k = id then l.reserve.1 else l :=
  Table.get?_modify ..

theorem release_withSlot (n : Node σ) (id : LinkId) (tag : Tag) :
    (n.withSlot id).release tag = (n.release tag).withSlot id := by
  unfold release reclaim withSlot
  dsimp only
  split <;> rfl

variable [Outbound σ]

theorem detach_withSlot (n : Node σ) (id k : LinkId) :
    (n.withSlot id).detach k = ((n.detach k).1.withSlot id, (n.detach k).2) := by
  have hget := n.get?_withSlot id k
  unfold detach
  cases hl : n.links.get? k with
  | none =>
    rw [hl, Option.map_none] at hget
    simp only [hget]
  | some l =>
    rw [hl, Option.map_some] at hget
    have hkind : (if k = id then l.reserve.1 else l).kind = l.kind := by split <;> rfl
    have hclosing : (if k = id then l.reserve.1 else l).toClosing.2 = l.toClosing.2 := by
      split
      · unfold Link.toClosing
        split
        · rename_i hs
          rw [if_pos (show l.state = .active from hs)]
        · rename_i hs
          rw [if_neg (show ¬ l.state = .active from hs)]
      · rfl
    have herase : (n.withSlot id).links.erase k =
        (n.links.erase k).modify id fun l => l.reserve.1 := Table.erase_modify ..
    simp only [hget, hkind, hclosing, herase]
    split
    · cases l.kind <;> rfl
    · rfl

theorem fulfil_withSlot {r : LinkId × Nat} (h : n.Owes r) (id : LinkId) (m : Message) :
    (n.withSlot id).fulfil (some r) m =
      ((n.fulfil (some r) m).1.withSlot id, (n.fulfil (some r) m).2) := by
  obtain ⟨l, hl, -, howes⟩ := h
  have hget := n.get?_withSlot id r.1
  rw [hl, Option.map_some] at hget
  unfold fulfil
  dsimp only
  simp only [hget, hl]
  by_cases hr : r.1 = id
  · have howes' : l.reserve.1.owes r.2 = true := (ReplyOrder.isOwed_reserve ..).2 (.inl howes)
    subst hr
    simp only [if_true, howes, howes', Link.fulfil_reserve howes, withSlot, Table.modify_modify]
  · simp only [if_neg hr, withSlot, Table.modify_comm (Ne.symm hr)]

theorem fail_withSlot (h : ∀ {tag r}, n.Awaits tag r → n.Owes r) (id : LinkId) (tag : Tag)
    (text : String) : (n.withSlot id).fail tag text =
      ((n.fail tag text).1.withSlot id, (n.fail tag text).2) := by
  unfold fail
  rw [show (n.withSlot id).waiting.get? tag = n.waiting.get? tag from rfl]
  cases ho : n.waiting.get? tag with
  | none => rfl
  | some o =>
    obtain ⟨requester, target, deadline⟩ := o
    dsimp only
    rw [release_withSlot]
    cases requester with
    | none => rfl
    | some r =>
      have howes : (n.release tag).Owes r := owes_release.2 (h ⟨_, ho, rfl⟩)
      rw [fulfil_withSlot howes]
      obtain ⟨⟨told, refused⟩, hf⟩ : ∃ q,
        (n.release tag).fulfil (some r) (Message.failure text) = q := ⟨_, rfl⟩
      rw [hf]
      cases refused with
      | none => rfl
      | some k => exact detach_withSlot told id k

/-- A cascade leaves the last slot as it is. -/
theorem failAll_withSlot {lost : List (Tag × String)} (hc : Phase.Coherent ⟨n, lost, []⟩)
    (hmt : Phase.Matched ⟨n, lost, []⟩) (id : LinkId) :
    (n.withSlot id).failAll lost = (n.failAll lost).withSlot id := by
  induction n, lost using failAll.induct with
  | case1 n => rw [failAll, failAll]
  | case2 n tag text lost failed ih =>
    -- Every request that still waits has a slot of its own, which is none of those reserved later.
    have hm := fail_moves n tag text lost []
    have hmt' : Phase.Matched ⟨failed.1, failed.2 ++ lost, []⟩ :=
      (hmt.moves (P := fun _ => True) (fun _ _ _ _ => trivial) hm hc trivial).1
    have hc' : Phase.Coherent ⟨failed.1, failed.2 ++ lost, []⟩ := hm.keeps .move hc
    rw [failAll, failAll, fail_withSlot hmt.owes]
    exact ih hc' hmt'

theorem close_withSlot (hc : Phase.Coherent ⟨n, [], []⟩) (hmt : Phase.Matched ⟨n, [], []⟩)
    (id k : LinkId) : (n.withSlot id).close k = (n.close k).withSlot id := by
  have hc' : Phase.Coherent ⟨(n.detach k).1, (n.detach k).2 ++ [], []⟩ := hc.detach k
  have hmt' : Phase.Matched ⟨(n.detach k).1, (n.detach k).2, []⟩ :=
    hmt.detach k fun l hl => (hc.links k l hl).2.1
  rw [List.append_nil] at hc'
  unfold close
  rw [detach_withSlot]
  exact failAll_withSlot hc' hmt' id

/-! ## The slot that is next -/

/-- The link, if it is there, is a client's, and this is the slot that it reserves next. -/
def NextSlot (n : Node σ) (id : LinkId) (slot : Nat) : Prop :=
  ∀ l, n.links.get? id = some l → l.kind = .client ∧ l.order.next = slot

namespace NextSlot

variable {m : Node σ} {slot : Nat}

omit [Outbound σ] in
theorem replace {k : LinkId} {l l' : Link} (h : n.NextSlot id slot) (hl : n.links.get? k = some l)
    (hm : m.links = n.links.modify k fun _ => l') (hkind : l'.kind = l.kind)
    (hnext : l'.order.next = l.order.next) : m.NextSlot id slot := by
  intro l₁ hl₁
  rw [hm, Table.get?_replace hl] at hl₁
  split at hl₁
  · rename_i hk
    cases hl₁
    rw [hkind, hnext]
    exact h l (hk ▸ hl)
  · exact h l₁ hl₁

theorem detach (h : n.NextSlot id slot) (k : LinkId) : (n.detach k).1.NextSlot id slot := by
  intro l hl
  rw [links_detach] at hl
  split at hl
  · cases hl
  · exact h l hl

theorem fulfil (h : n.NextSlot id slot) (r : LinkId × Nat) (msg : Message) :
    (n.fulfil (some r) msg).1.NextSlot id slot := by
  have key : ∀ {q : Node σ × Option LinkId}, n.Fulfilled r.1 r.2 msg q → q.1.NextSlot id slot := by
    intro q hq
    cases hq with
    | gone => exact h
    | stray hl => exact h.replace hl rfl rfl rfl
    | kept hl ho hf hw =>
      refine h.replace hl rfl rfl ?_
      exact (ReplyOrder.next_release _).trans (ReplyOrder.next_fill? hf)
  exact key (n.fulfil_cases r.1 r.2 msg)

theorem move {p q : Phase σ} (hm : p.Move q) (h : p.node.NextSlot id slot) :
    q.node.NextSlot id slot := by
  cases hm with
  | skip => exact h
  | @release n tag =>
    intro l hl
    rw [links_release] at hl
    exact h l hl
  | @tell n told r msg lost held hf =>
    have htold := h.fulfil r msg
    rwa [hf] at htold
  | @refuse n told r msg lost held k hf =>
    have htold := h.fulfil r msg
    rw [hf] at htold
    exact htold.detach k

theorem close (h : n.NextSlot id slot) (k : LinkId) : (n.close k).NextSlot id slot :=
  (failAll_moves (n.detach k).1 (n.detach k).2 []).keeps move (h.detach k)

end NextSlot

end Node

end Depot
