/-
  Depot — links that are closed.

  A client's link that closes leaves nothing behind but its name on the requests that wait
  for it, and that is taken off (`close_client`).  An id is given out once, so whatever still
  comes in on a link that is gone changes nothing, however late it comes (`act_gone`).
  `run_closes` says both of every run.
-/
import Depot.Proofs.Link.Queue
import Depot.Proofs.Node.History

namespace Depot

variable {σ : Type u}

/-- A request that is forgotten by a link keeps its target and its deadline. -/
theorem PendingRequest.forget_eq (o : PendingRequest) (link : LinkId) :
    o.forget link = { o with requester := o.requester.filter fun r => r.1 ≠ link } := by
  obtain ⟨requester, target, deadline⟩ := o
  unfold forget
  cases requester with
  | none => rfl
  | some r => by_cases h : r.1 = link <;> simp [Option.filter_some, h]

namespace Node

variable [Outbound σ]

/-- Nothing fails with a client's link. -/
theorem close_client {n : Node σ} {id : LinkId} {l : Link} (hl : n.links.get? id = some l)
    (hs : l.state = .active) (hk : l.kind = .client) :
    n.close id = { n with
      links := n.links.erase id
      wires := Outbound.hangUp n.wires id
      waiting := n.waiting.map fun _ o => o.forget id } := by
  have ha : l.toClosing.2 = true := by simp [Link.toClosing, hs]
  have hd : n.detach id = ({ n with
      links := n.links.erase id
      wires := Outbound.hangUp n.wires id
      waiting := n.waiting.map fun _ o => o.forget id }, []) := by
    simp only [detach, hl, ha, hk, if_true]
  rw [close, hd, failAll]

/-- Nothing happens on a link that is gone. -/
theorem act_gone {n : Node σ} {e : NodeEvent} (h : n.links.get? e.link = none) :
    n.act (.event e) = n := by
  cases e with
  | message id m =>
    show n.receive id m = n
    rw [receive, if_neg]
    simp [Table.contains, show n.links.get? id = none from h]
  | closed id error =>
    have hd : n.detach id = (n, []) := by
      simp only [detach, show n.links.get? id = none from h]
    show n.close id = n
    rw [close, hd, failAll]

/-- A link that is gone does not come back. -/
theorem gone_act {n : Node σ} {id : LinkId} (h : id < n.nextLink ∧ n.kind? id = none)
    (a : Action σ) : id < (n.act a).nextLink ∧ (n.act a).kind? id = none := by
  refine ⟨h.1.trans_le (n.nextLink_act a).1, ?_⟩
  cases hk : (n.act a).kind? id with
  | none => rfl
  | some kind =>
    rcases kind?_act hk with hold | ⟨-, hnew⟩
    · rw [h.2] at hold
      cases hold
    · exact absurd h.1 (Nat.not_lt.2 hnew.le)

theorem kind?_close (n : Node σ) (id : LinkId) : (n.close id).kind? id = none := by
  have hm : Phase.Moves ⟨(n.detach id).1, (n.detach id).2, []⟩ ⟨n.close id, [], []⟩ :=
    failAll_moves _ _ _
  exact hm.gone (by rw [kind?_detach, if_pos rfl])

theorem gone_run {n : Node σ} {id : LinkId} (h : id < n.nextLink ∧ n.kind? id = none)
    (later : List (Action σ)) : id < (n.run later).nextLink ∧ (n.run later).kind? id = none := by
  induction later using List.reverseRecOn with
  | nil => exact h
  | append_singleton later a ih =>
    rw [run_concat]
    exact gone_act ih a

/-- To close a client's link, at any time of any run, takes the link out and its name off the
    requests that wait, which keep their tags, targets and deadlines.  The objects, the tags,
    the links to shards, and every other link with its replies and its queued frames are as they
    were.  And once a link is gone that was there, whatever closed it, its id is never given out
    again, and all that still comes in under it changes nothing. -/
theorem run_closes (c : Config) (wires : Sockets) (actions : List (Action Sockets)) :
    let n := (ofConfig c wires).run actions
    (∀ id, n.kind? id = some .client →
      let m := n.close id
      m.store = n.store ∧ m.tags = n.tags ∧ m.peers = n.peers ∧ m.links.get? id = none ∧
        (∀ k, k ≠ id →
          m.links.get? k = n.links.get? k ∧ m.wires.table.get? k = n.wires.table.get? k) ∧
        ∀ tag, m.waiting.get? tag = (n.waiting.get? tag).map fun o =>
          { o with requester := o.requester.filter fun r => r.1 ≠ id }) ∧
    (∀ id l, n.links.get? id = some l →
      id < n.nextLink ∧ (n.close id).links.get? id = none) ∧
    ∀ id, id < n.nextLink → n.links.get? id = none → ∀ later,
      let m := n.run later
      (∀ kind, (m.attach kind).2 ≠ id) ∧
        ∀ e : NodeEvent, e.link = id → m.act (.event e) = m := by
  intro n
  have hc : Phase.Coherent ⟨n, [], []⟩ := Phase.Coherent.run c wires actions
  refine ⟨fun id hid => ?_, fun id l hl => ⟨(hc.links id l hl).2.2, ?_⟩,
    fun id hid hgone later => ?_⟩
  · obtain ⟨l, hl, hk⟩ := kind?_eq_some.1 hid
    rw [close_client hl (hc.links id l hl).2.1 hk]
    refine ⟨rfl, rfl, rfl, ?_, fun k hne => ⟨?_, Sockets.get?_hangUp_other hne _⟩, fun tag => ?_⟩
    · rw [Table.get?_erase, if_pos rfl]
    · rw [Table.get?_erase, if_neg hne]
    · rw [Table.get?_map]
      simp only [PendingRequest.forget_eq]
  · exact Option.map_eq_none_iff.1 (kind?_close n id)
  · obtain ⟨hlt, hnone⟩ := gone_run ⟨hid, by rw [kind?, hgone]; rfl⟩ later
    refine ⟨fun kind => hlt.ne', fun e he => act_gone ?_⟩
    rw [he]
    exact Option.map_eq_none_iff.1 hnone

end Node

end Depot
