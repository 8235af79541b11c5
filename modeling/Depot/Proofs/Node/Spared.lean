/-
  Depot — requests that a cascade spares.

  Requests fail in the middle of an action, and links close with them.  `Phase.Spares D n p`
  says that of the requests that wait in `n` only those with `D` fail on the way to `p`: all
  others wait as before, but for requesters whose links are gone.  Every move keeps that
  (`Phase.Spares.move`), since the only links that can close then are clients', and with a
  client's link nothing fails.
-/
import Depot.Proofs.Node.Closed
import Depot.Proofs.Node.Replies

namespace Depot

variable {σ : Type u}

namespace PendingRequest

/-- A link that did not ask cannot be forgotten. -/
theorem forget_of_ne {o : PendingRequest} {link : LinkId}
    (h : ∀ r, o.requester = some r → r.1 ≠ link) : o.forget link = o := by
  unfold forget
  refine if_neg fun hany => ?_
  obtain ⟨r, hr, hlink⟩ := (Option.any_eq_true _ _).1 hany
  exact h r hr (of_decide_eq_true hlink)

end PendingRequest

namespace Node

/-- The request as the node still knows it: without its requester, if the link of that is
    gone. -/
def still (n : Node σ) (o : PendingRequest) : PendingRequest :=
  { o with requester := o.requester.filter fun r => n.links.contains r.1 }

theorem still_congr {n m : Node σ} (h : ∀ id, m.kind? id = n.kind? id) (o : PendingRequest) :
    m.still o = n.still o := by
  have hlinks : ∀ id, m.links.contains id = n.links.contains id := by
    intro id
    have hid := congrArg Option.isSome (h id)
    rwa [kind?, kind?, Option.isSome_map, Option.isSome_map] at hid
  simp only [still, hlinks]

/-- A request whose requester is there is known as it is. -/
theorem still_of_owes {n : Node σ} {o : PendingRequest}
    (h : ∀ r, o.requester = some r → n.Owes r) : n.still o = o := by
  obtain ⟨requester, target, deadline⟩ := o
  unfold still
  cases requester with
  | none => rfl
  | some r =>
    obtain ⟨l, hl, -⟩ := h r rfl
    rw [Option.filter_some, if_pos (Table.contains_eq_true.2 ⟨l, hl⟩)]

variable [Outbound σ]

theorem still_detach (n : Node σ) (id : LinkId) (o : PendingRequest) :
    (n.detach id).1.still o = (n.still o).forget id := by
  obtain ⟨requester, target, deadline⟩ := o
  rw [PendingRequest.forget_eq]
  unfold still
  cases requester with
  | none => rfl
  | some r =>
    have hlinks : (n.detach id).1.links.contains r.1 = (n.links.contains r.1 && r.1 ≠ id) := by
      rw [Table.contains, links_detach, Table.contains]
      by_cases h : r.1 = id <;> simp [h]
    simp only [Option.filter_some, hlinks]
    cases n.links.contains r.1 <;> simp [Option.filter_some]

/-- With a link go the names of its client from the requests that wait; other links have none
    there. -/
theorem get?_detach {n : Node σ} {id : LinkId}
    (hs : ∀ l, n.links.get? id = some l → l.state = .active)
    (ho : ∀ {tag r}, n.Awaits tag r → n.Owes r) (tag : Tag) :
    (n.detach id).1.waiting.get? tag = (n.waiting.get? tag).map fun o => o.forget id := by
  have hkeep : n.kind? id ≠ some .client →
      n.waiting.get? tag = (n.waiting.get? tag).map fun o => o.forget id := by
    intro hk
    cases hw : n.waiting.get? tag with
    | none => rfl
    | some o =>
      refine congrArg some (PendingRequest.forget_of_ne fun r hr => ?_).symm
      rintro rfl
      obtain ⟨l, hl, hc, -⟩ := ho ⟨o, hw, hr⟩
      exact hk (kind?_eq_some.2 ⟨l, hl, hc⟩)
  have key : ∀ {q : Node σ × List (Tag × String)}, n.Detached id q →
      q.1.waiting.get? tag = (n.waiting.get? tag).map fun o => o.forget id := by
    intro q hq
    cases hq with
    | absent h => exact hkeep (by simp [kind?, h])
    | idle h hi => exact absurd (hs _ h) hi
    | client => exact Table.get?_map _ _ _
    | dialed h hk => exact hkeep (by simp [kind?, h, hk])
    | accepted h hk => exact hkeep (by simp [kind?, h, hk])
  exact key (detach_cases n id)

theorem capacity_detach (n : Node σ) (id : LinkId) :
    (n.detach id).1.tags.capacity = n.tags.capacity := by
  have key : ∀ {q : Node σ × List (Tag × String)}, n.Detached id q →
      q.1.tags.capacity = n.tags.capacity := by
    intro q hq
    cases hq <;> rfl
  exact key (detach_cases n id)

end Node

/-! ## What is spared -/

/-- Of the requests that wait in `n`, those without `D` still wait, and those that are about to
    fail have `D`; no others wait. -/
structure Phase.Spares (D : PendingRequest → Prop) (n : Node σ) (p : Phase σ) : Prop where
  kept : ∀ tag o, n.waiting.get? tag = some o → ¬ D o → p.node.waiting.contains tag = true
  old : ∀ tag o', p.node.waiting.get? tag = some o' →
    ∃ o, n.waiting.get? tag = some o ∧ o' = p.node.still o
  lost : ∀ tag text o, (tag, text) ∈ p.lost → n.waiting.get? tag = some o → D o
  capacity : p.node.tags.capacity = n.tags.capacity

namespace Phase.Spares

variable {D : PendingRequest → Prop} {n m : Node σ} {lost lost' : List (Tag × String)}
  {held held' : List ((LinkId × Nat) × Message)}

/-- At the start every request is known as it is. -/
theorem start (h : Phase.Matched ⟨n, lost, held⟩)
    (hlost : ∀ tag text o, (tag, text) ∈ lost → n.waiting.get? tag = some o → D o) :
    Phase.Spares D n ⟨n, lost, held⟩ where
  kept _ o ho _ := Table.contains_eq_true.2 ⟨o, ho⟩
  old _ o ho := ⟨o, ho, (Node.still_of_owes fun _ hr => h.owes ⟨o, ho, hr⟩).symm⟩
  lost := hlost
  capacity := rfl

/-- A request that is spared waits as the node still knows it. -/
theorem get? {p : Phase σ} (h : p.Spares D n) {tag : Tag} {o : PendingRequest}
    (ho : n.waiting.get? tag = some o) (hD : ¬ D o) :
    p.node.waiting.get? tag = some (p.node.still o) := by
  obtain ⟨o', ho'⟩ := Table.contains_eq_true.1 (h.kept tag o ho hD)
  obtain ⟨o₁, ho₁, rfl⟩ := h.old tag o' ho'
  cases ho.symm.trans ho₁
  exact ho'

theorem same {m' : Node σ} (h : Phase.Spares D n ⟨m, lost, held⟩) (hl : ∀ e ∈ lost', e ∈ lost)
    (hk : ∀ id, m'.kind? id = m.kind? id) (hw : m'.waiting = m.waiting := by rfl)
    (ht : m'.tags = m.tags := by rfl) : Phase.Spares D n ⟨m', lost', held'⟩ where
  kept tag o ho hD := by
    show m'.waiting.contains tag = true
    rw [hw]
    exact h.kept tag o ho hD
  old tag o' ho' := by
    replace ho' : m'.waiting.get? tag = some o' := ho'
    rw [hw] at ho'
    obtain ⟨o, ho, rfl⟩ := h.old tag o' ho'
    exact ⟨o, ho, (Node.still_congr hk o).symm⟩
  lost tag text o hin := h.lost tag text o (hl _ hin)
  capacity := (congrArg TagPool.capacity ht).trans h.capacity

/-- A request with `D` is over. -/
theorem release {tag : Tag} (h : Phase.Spares D n ⟨m, lost, held⟩)
    (hD : ∀ o, n.waiting.get? tag = some o → D o) (hl : ∀ e ∈ lost', e ∈ lost) :
    Phase.Spares D n ⟨m.release tag, lost', held'⟩ where
  kept t o ho hnot := by
    show (m.release tag).waiting.contains t = true
    have hne : t ≠ tag := by
      rintro rfl
      exact hnot (hD o ho)
    rw [Node.waiting_release, Table.contains, Table.get?_erase, if_neg hne]
    exact h.kept t o ho hnot
  old t o' ho' := by
    replace ho' : (m.release tag).waiting.get? t = some o' := ho'
    rw [Node.waiting_release, Table.get?_erase] at ho'
    split at ho'
    · cases ho'
    · obtain ⟨o, ho, rfl⟩ := h.old t o' ho'
      refine ⟨o, ho, (Node.still_congr (fun id => ?_) o).symm⟩
      rw [Node.kind?, Node.links_release]
      rfl
  lost t text o hin := h.lost t text o (hl _ hin)
  capacity := (Node.capacity_release m tag).trans h.capacity

variable [Outbound σ]

/-- A link goes, and requests with `D` are about to fail with it. -/
theorem detach {id : LinkId} (h : Phase.Spares D n ⟨m, lost, held⟩)
    (hmt : Phase.Matched ⟨m, lost, held⟩)
    (hs : ∀ l, m.links.get? id = some l → l.state = .active)
    (hD : ∀ tag text o, (tag, text) ∈ (m.detach id).2 → n.waiting.get? tag = some o → D o) :
    Phase.Spares D n ⟨(m.detach id).1, (m.detach id).2 ++ lost, held'⟩ := by
  have hget : ∀ tag, (m.detach id).1.waiting.get? tag =
      (m.waiting.get? tag).map fun o => o.forget id := Node.get?_detach hs hmt.owes
  refine ⟨fun tag o ho hnot => ?_, fun tag o' ho' => ?_, fun tag text o hin ho => ?_,
    (Node.capacity_detach m id).trans h.capacity⟩
  · show (m.detach id).1.waiting.contains tag = true
    rw [Node.contains_detach]
    exact h.kept tag o ho hnot
  · replace ho' : (m.detach id).1.waiting.get? tag = some o' := ho'
    rw [hget, Option.map_eq_some_iff] at ho'
    obtain ⟨o₁, ho₁, rfl⟩ := ho'
    obtain ⟨o, ho, rfl⟩ := h.old tag o₁ ho₁
    exact ⟨o, ho, (Node.still_detach m id o).symm⟩
  · rcases List.mem_append.1 hin with hin | hin
    · exact hD tag text o hin ho
    · exact h.lost tag text o hin ho

theorem move {p q : Phase σ} (hm : p.Move q) (hc : p.Coherent) (hmt : p.Matched)
    (h : p.Spares D n) : q.Spares D n := by
  cases hm with
  | skip => exact h.same (fun e he => List.mem_cons_of_mem _ he) fun _ => rfl
  | @release m tag text lost held o ho =>
    exact h.release (fun o ho => h.lost tag text o List.mem_cons_self ho)
      fun e he => List.mem_cons_of_mem _ he
  | @tell m told r msg lost held hf =>
    have ha : m.Alike told := Node.fulfil_alike hf
    exact h.same (fun _ he => he) ha.kind? ha.waiting ha.tags
  | @refuse m told r msg lost held id hf =>
    have ha : m.Alike told := Node.fulfil_alike hf
    have htold : Phase.Spares D n ⟨told, lost, held⟩ :=
      h.same (fun _ he => he) ha.kind? ha.waiting ha.tags
    have hmatched : Phase.Matched ⟨(m.fulfil (some r) msg).1, lost, held⟩ := hmt.fulfil
    rw [hf] at hmatched
    have hcoherent : Phase.Coherent ⟨told, lost, held⟩ := hc.alike ha fun _ hx => hx
    -- The link that refuses is a client's, with which nothing fails.
    refine htold.detach hmatched (fun l hl => (hcoherent.links id l hl).2.1) ?_
    rw [Node.lost_detach_client (hmt.refused hf)]
    exact fun _ _ _ hin => absurd hin List.not_mem_nil

theorem moves {p q : Phase σ} (hm : p.Moves q) (hc : p.Coherent) (hmt : p.Matched)
    (h : p.Spares D n) : q.Matched ∧ q.Spares D n :=
  hmt.moves move hm hc h

end Phase.Spares

end Depot
