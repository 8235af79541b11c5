/-
  Depot — a node is a bounded map.

  A node is fed the messages that come in on links that are there, one after the other
  (`dispatched?`).  `run_mapped` says that its store holds at all times what a bounded map
  holds that is fed the same messages, that it answers what the map answers, whatever
  becomes of the answer, and that nothing else touches an object.
-/
import Depot.Proofs.Node.Replies
import Depot.Proofs.Store.BoundedMap

namespace Depot

variable {σ : Type u}

/-- Whether the message may change an object. -/
def Message.writes : Message → Bool
  | client (.store ..) | client (.delete _) | peer _ (.store ..) | peer _ (.delete _) => true
  | _ => false

theorem BoundedMap.after_of_reads {budget : Nat} (s : BoundedMap budget) {m : Message}
    (h : m.writes = false) : s.after m = s := by
  unfold after
  split <;> first | rfl | cases h

theorem Offer.fault?_eq_none_iff {o : Offer} : o.fault? = none ↔ o = .taken := by
  cases o <;> simp [fault?]

namespace Node

/-- The message that an action brings on any link that is there. -/
def dispatched? (n : Node σ) : Action σ → Option Message
  | .event (.message id m) => if n.links.contains id then some m else none
  | _ => none

/-- An action does to the store what the message does that it brings. -/
theorem storeAfter_eq {budget : Nat} {n : Node σ} {s : BoundedMap budget} (h : n.store = s.store)
    (a : Action σ) : n.storeAfter a = (s.feed (n.dispatched? a).toList).store := by
  cases a with
  | attach | expire | elapse | rewire => exact h
  | event e =>
    cases e with
    | closed => exact h
    | message id m =>
      simp only [storeAfter, dispatched?]
      split
      · rw [h]
        exact BoundedMap.duty_store m
      · exact h

variable [Outbound σ]

/-- A store that holds what a map holds goes on as the map does. -/
theorem run_store {budget : Nat} {n : Node σ} {s : BoundedMap budget} (h : n.store = s.store)
    (actions : List (Action σ)) :
    (n.run actions).store = (s.feed (n.collect dispatched? actions)).store := by
  induction actions generalizing n s with
  | nil => exact h
  | cons a actions ih =>
    have hact := (n.store_act a).trans (storeAfter_eq h a)
    rw [collect, BoundedMap.feed, List.foldl_append]
    exact ih hact

end Node

variable [Outbound σ]

/-! ## What becomes of an answer -/

/-- A link that is gone takes nothing any more. -/
theorem Phase.Move.silent {p q : Phase (Recorded σ)} (hm : p.Move q) (hc : p.Coherent) {id : LinkId}
    (h : p.node.kind? id = none) :
    q.node.kind? id = none ∧ q.node.wires.takenOn id = p.node.wires.takenOn id := by
  refine ⟨?_, ?_⟩
  · exact Phase.Moves.gone (Relation.ReflTransGen.single hm) h
  have htold : ∀ {n told : Node (Recorded σ)} {r m lost held refused},
      p = ⟨n, lost, (r, m) :: held⟩ → n.fulfil (some r) m = (told, refused) →
      told.wires.takenOn id = n.wires.takenOn id := by
    rintro n told r m lost held refused rfl hf
    have key : ∀ {q : Node (Recorded σ) × Option LinkId}, n.Fulfilled r.1 r.2 m q →
        q.1.wires.takenOn id = n.wires.takenOn id := by
      intro q hq
      cases hq with
      | gone | stray => rfl
      | @kept l order wires fault hl ho hfill hw =>
        obtain ⟨count, -, htaken⟩ := Recorded.takenOn_sendAll hw
        refine (htaken id).trans ?_
        rw [if_neg, List.append_nil]
        rintro rfl
        obtain ⟨hid, -⟩ := hc.links r.1 l hl
        replace h : n.kind? l.id = none := h
        rw [hid, Node.kind?, hl] at h
        cases h
    have hq := key (n.fulfil_cases r.1 r.2 m)
    rwa [hf] at hq
  cases hm with
  | skip => rfl
  | release => exact congrArg (Recorded.takenOn · id) (Node.wires_release _ _)
  | tell hf => exact htold rfl hf
  | refuse hf => exact (Node.Told.takenOn_detach _ _ _).trans (htold rfl hf)

/-- A request that is answered at once is answered if its link takes the answer; if the link
    does not, it goes, and nothing further is said on it. -/
theorem Node.act_answers {n : Node (Recorded σ)} (hc : Phase.Coherent ⟨n, [], []⟩) {id : LinkId}
    {l : Link} {m reply : Message} {store : Store} (hl : n.links.get? id = some l)
    (hd : duty n.store m = .answer store reply) :
    let took := decide ((Outbound.offer n.wires id (Frame.ofMessage reply)).2 = .taken)
    (n.act (.event (.message id m))).links.contains id = took ∧
      (n.act (.event (.message id m))).wires.takenOn id =
        n.wires.takenOn id ++ if took then [Frame.ofMessage reply] else [] := by
  intro took
  obtain ⟨hid, hactive, -⟩ := hc.links id l hl
  have hsend : l.send n.wires (Frame.ofMessage reply) =
      ((Outbound.offer n.wires id (Frame.ofMessage reply)).1,
        (Outbound.offer n.wires id (Frame.ofMessage reply)).2.fault?) := by
    rw [Link.send_of_active hactive, hid]
  cases hf : (Outbound.offer n.wires id (Frame.ofMessage reply)).2.fault? with
  | none =>
    have htook : took = true := decide_eq_true (Offer.fault?_eq_none_iff.1 hf)
    rw [hf] at hsend
    rw [htook, act_answer hl hd hsend]
    refine ⟨Table.contains_eq_true.2 ⟨l, hl⟩, ?_⟩
    rw [Recorded.takenOn_send hsend, if_pos ⟨hid, rfl⟩, if_pos rfl]
  | some fault =>
    have htook : took = false := decide_eq_false fun ht => by
      rw [Offer.fault?_eq_none_iff.2 ht] at hf
      cases hf
    rw [hf] at hsend
    rw [htook]
    obtain ⟨p, ho, hm⟩ := n.act_opens (.event (.message id m))
    have hgone : p.node.kind? id = none ∧ p.node.wires.takenOn id = n.wires.takenOn id := by
      cases ho with
      | trail h => cases hl.symm.trans h
      | answer hl' hd' hw' =>
        cases hl.symm.trans hl'
        cases hd.symm.trans hd'
        cases hsend.symm.trans hw'
      | @choke id m reply' l' store' wires fault' hl' hd' hw' =>
        cases hl.symm.trans hl'
        cases hd.symm.trans hd'
        cases hsend.symm.trans hw'
        refine ⟨?_, (Node.Told.takenOn_detach _ id id).trans ?_⟩
        · rw [kind?_detach, if_pos rfl]
        · exact (Recorded.takenOn_send hsend id).trans (by simp)
      | forward hl' hd' | refuse hl' hd' | sever hl' hd' | orphan hl' hd' | settle hl' hd' =>
        cases hd.symm.trans hd'
    have step : ∀ {p q : Phase (Recorded σ)}, p.Move q →
        p.Coherent ∧ p.node.kind? id = none ∧ p.node.wires.takenOn id = n.wires.takenOn id →
        q.Coherent ∧ q.node.kind? id = none ∧ q.node.wires.takenOn id = n.wires.takenOn id := by
      intro p q hm ⟨hc, hk, ht⟩
      obtain ⟨hk', ht'⟩ := hm.silent hc hk
      exact ⟨hc.move hm, hk', ht'.trans ht⟩
    obtain ⟨-, hk, ht⟩ := hm.keeps step ⟨hc.opens ho, hgone⟩
    refine ⟨?_, by rw [ht]; simp⟩
    rw [kind?, Option.map_eq_none_iff] at hk
    rw [Table.contains, hk]
    rfl

namespace Node

/-- After every run the store of a node holds what a bounded map holds that was fed the
    messages of the run.  The next message that asks something of it is answered as the map
    answers it, and changes the store as it changes the map, whether the link takes the answer
    or goes; an action that brings no message, or one that only reads, leaves the store as it
    is. -/
theorem run_mapped (c : Config) (wires : σ) (actions : List (Action σ)) :
    let start := (ofConfig c wires).recorded
    let n := start.run (actions.map Action.recorded)
    let heard := start.collect dispatched? (actions.map Action.recorded)
    let s := (BoundedMap.empty c.storeBudget).feed heard
    n.through Recorded.wires = (ofConfig c wires).run actions ∧
      n.store = s.store ∧
      (∀ id m reply, n.links.contains id = true → s.answer? m = some reply →
        let after := n.act (.event (.message id m))
        let took := decide ((Outbound.offer n.wires id (Frame.ofMessage reply)).2 = .taken)
        after.store = (s.after m).store ∧ after.links.contains id = took ∧
          after.wires.takenOn id =
            n.wires.takenOn id ++ if took then [Frame.ofMessage reply] else []) ∧
      ∀ a, (∀ m, n.dispatched? a = some m → m.writes = false) → (n.act a).store = n.store := by
  intro start n heard s
  have hstore : n.store = s.store :=
    run_store (show start.store = (BoundedMap.empty c.storeBudget).store from rfl) _
  refine ⟨run_recorded _ actions, hstore, fun id m reply hid hm => ?_, fun a ha => ?_⟩
  · obtain ⟨l, hl⟩ := Table.contains_eq_true.1 hid
    have hd : duty n.store m = .answer (s.after m).store reply := by
      rw [hstore]
      exact BoundedMap.duty_answer hm
    refine ⟨?_, act_answers (Phase.Coherent.run c _ _) hl hd⟩
    rw [store_act, storeAfter_message hl, hd]
    rfl
  · rw [store_act, storeAfter_eq hstore]
    cases h : n.dispatched? a with
    | none => exact hstore.symm
    | some m =>
      show (s.after m).store = n.store
      rw [s.after_of_reads (ha m h), hstore]

end Node

end Depot
