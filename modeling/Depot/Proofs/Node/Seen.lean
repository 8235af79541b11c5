/-
  Depot — moves as one link sees them.

  A move leaves a link and its writer alone, or hands the link a reply that it is owed: then
  the link sends what is in order, or goes because there is no room for it.  `Phase.Move.seen`
  lists these three, so that what is kept of one link needs three cases and not the moves
  themselves.
-/
import Depot.Proofs.Link.Queue
import Depot.Proofs.Node.Due

namespace Depot

/-! ## What is due -/

namespace Phase

section

variable {σ : Type u} {n m : Node σ} {lost lost' : List (Tag × String)}
  {held : List ((LinkId × Nat) × Message)} {r s : LinkId × Nat} {reply : Message}

theorem due_skip {tag : Tag} {text : String} (h : n.waiting.get? tag = none) :
    Due ⟨n, (tag, text) :: lost, held⟩ r ↔ Due ⟨n, lost, held⟩ r := by
  refine or_congr_right ⟨?_, ?_⟩
  · rintro ⟨t, text', hin, o, ho, hr⟩
    rcases List.mem_cons.1 hin with he | hin
    · cases he
      cases h.symm.trans ho
    · exact ⟨t, text', hin, o, ho, hr⟩
  · rintro ⟨t, text', hin, hw⟩
    exact ⟨t, text', List.mem_cons_of_mem _ hin, hw⟩

/-- The reply to a request that is over is on its way. -/
theorem due_release {tag : Tag} {text : String} {o : PendingRequest}
    (h : n.waiting.get? tag = some o) :
    Due ⟨n.release tag, lost, o.replies reply ++ held⟩ r ↔ Due ⟨n, (tag, text) :: lost, held⟩ r := by
  unfold Due
  dsimp only
  rw [List.map_append, List.mem_append, Node.mem_replies_fst]
  constructor
  · rintro ((hr | hin) | ⟨t, text', hin, hw⟩)
    · exact .inr ⟨tag, text, List.mem_cons_self, o, h, hr⟩
    · exact .inl hin
    · exact .inr ⟨t, text', List.mem_cons_of_mem _ hin, (Node.awaits_release.1 hw).2⟩
  · rintro (hin | ⟨t, text', hin, hw⟩)
    · exact .inl (.inr hin)
    · by_cases ht : t = tag
      · subst ht
        obtain ⟨o', ho', hr⟩ := hw
        cases h.symm.trans ho'
        exact .inl (.inl hr)
      · refine .inr ⟨t, text', ?_, Node.awaits_release.2 ⟨ht, hw⟩⟩
        exact (List.mem_cons.1 hin).resolve_left fun he => ht (congrArg Prod.fst he)

/-- Another requester is told; who waits is as before. -/
theorem due_tell (hw : ∀ tag, m.Awaits tag r ↔ n.Awaits tag r) (hl : ∀ e, e ∈ lost' ↔ e ∈ lost)
    (hr : r ≠ s) : Due ⟨m, lost', held⟩ r ↔ Due ⟨n, lost, (s, reply) :: held⟩ r := by
  unfold Due
  simp [hw, hl, hr]

end

/-! ## One link -/

/-- What a move is for one link. -/
inductive Seen (id : LinkId) (p q : Phase Sockets) : Prop
  /-- Nothing changes for it. -/
  | aside (hl : q.node.links.get? id = p.node.links.get? id)
      (hw : q.node.wires.table.get? id = p.node.wires.table.get? id)
      (hd : p.node.links.get? id ≠ none → ∀ slot, q.Due (id, slot) ↔ p.Due (id, slot))
  /-- It takes a reply, and sends what is in order then. -/
  | told {l : Link} {slot : Nat} {m : Message} {order : ReplyOrder Frame}
      (hl : p.node.links.get? id = some l) (hm : ((id, slot), m) ∈ p.held)
      (hf : l.order.fill? slot (Frame.ofMessage m) = some order)
      (hw : l.sendAll p.node.wires order.release.2 = (q.node.wires, none))
      (hl' : q.node.links.get? id = some { l with order := order.release.1 })
      (hd : ∀ s, s ≠ slot → (q.Due (id, s) ↔ p.Due (id, s)))
  /-- It cannot send all that is in order, and goes. -/
  | refused {l : Link} {slot : Nat} {m : Message} {order : ReplyOrder Frame} {wires : Sockets}
      {fault : Fault} (hl : p.node.links.get? id = some l) (hm : ((id, slot), m) ∈ p.held)
      (hf : l.order.fill? slot (Frame.ofMessage m) = some order)
      (hw : l.sendAll p.node.wires order.release.2 = (wires, some fault))
      (hl' : q.node.links.get? id = none) (hq : q.node.wires = Outbound.hangUp wires id)

end Phase

namespace Node

variable {n told : Node Sockets} {id : LinkId} {m : Message} {refused : Option LinkId}

theorem wires_detach (h : n.links.get? id ≠ none) :
    (n.detach id).1.wires = Outbound.hangUp n.wires id := by
  have key : ∀ {q : Node Sockets × List (Tag × String)}, n.Detached id q →
      q.1.wires = Outbound.hangUp n.wires id := by
    intro q hq
    cases hq with
    | absent hnone => exact absurd hnone h
    | idle | client | dialed | accepted => rfl
  exact key (n.detach_cases id)

theorem get?_wires_detach {k : LinkId} (h : id ≠ k) :
    (n.detach k).1.wires.table.get? id = n.wires.table.get? id := by
  by_cases hk : n.links.get? k = none
  · simp only [detach, hk]
  · rw [wires_detach hk, Sockets.get?_hangUp_other h]

/-- A reply that does not go to the link leaves it and its writer as they are. -/
theorem fulfil_aside {r : LinkId × Nat} (hf : n.fulfil (some r) m = (told, refused))
    (hr : ∀ l, n.links.get? r.1 = some l → l.id = r.1 ∧ r.1 ≠ id) :
    told.links.get? id = n.links.get? id ∧
      told.wires.table.get? id = n.wires.table.get? id := by
  have key : ∀ {q : Node Sockets × Option LinkId}, n.Fulfilled r.1 r.2 m q →
      q.1.links.get? id = n.links.get? id ∧
        q.1.wires.table.get? id = n.wires.table.get? id := by
    intro q hq
    cases hq with
    | gone => exact ⟨rfl, rfl⟩
    | stray hl =>
      refine ⟨?_, rfl⟩
      rw [Table.get?_replace hl, if_neg (Ne.symm (hr _ hl).2)]
    | @kept l order wires fault hl ho hfill hw =>
      obtain ⟨hid, hne⟩ := hr l hl
      refine ⟨?_, ?_⟩
      · show (n.links.modify r.1 _).get? id = _
        rw [Table.get?_replace hl, if_neg (Ne.symm hne)]
      · have hother := Sockets.get?_sendAll_other (hid ▸ hne) n.wires order.release.2
        rwa [hw] at hother
  have h := key (n.fulfil_cases r.1 r.2 m)
  rwa [hf] at h

/-- A link takes a reply that it is owed, and offers what is in order then. -/
theorem fulfil_owed {slot : Nat} {l : Link} (hf : n.fulfil (some (id, slot)) m = (told, refused))
    (hl : n.links.get? id = some l) (ho : n.Owes (id, slot)) :
    ∃ order fault, l.order.fill? slot (Frame.ofMessage m) = some order ∧
      l.sendAll n.wires order.release.2 = (told.wires, fault) ∧
      told.links.get? id = some { l with order := order.release.1 } ∧
      refused = fault.map fun _ => id := by
  obtain ⟨l', hl', -, howed⟩ := ho
  cases hl.symm.trans hl'
  have key : ∀ {q : Node Sockets × Option LinkId}, n.Fulfilled id slot m q →
      ∃ order fault, l.order.fill? slot (Frame.ofMessage m) = some order ∧
        l.sendAll n.wires order.release.2 = (q.1.wires, fault) ∧
        q.1.links.get? id = some { l with order := order.release.1 } ∧
        q.2 = fault.map fun _ => id := by
    intro q hq
    cases hq with
    | gone hnone => cases hl.symm.trans hnone
    | stray hl₁ hnot =>
      cases hl.symm.trans hl₁
      cases howed.symm.trans hnot
    | @kept l₁ order wires fault hl₁ _ hfill hw =>
      cases hl.symm.trans hl₁
      refine ⟨order, fault, hfill, hw, ?_, rfl⟩
      show (n.links.modify id _).get? id = _
      rw [Table.get?_replace hl, if_pos rfl]
  have h := key (n.fulfil_cases id slot m)
  rwa [hf] at h

end Node

/-- What a move is for one link. -/
theorem Phase.Move.seen {p q : Phase Sockets} (hm : p.Move q) (hc : p.Coherent) (hmt : p.Matched)
    (id : LinkId) : p.Seen id q := by
  cases hm with
  | skip hw => exact .aside rfl rfl fun _ _ => (due_skip hw).symm
  | @release n tag text lost held o ho =>
    refine .aside (congrArg (Table.get? · id) (Node.links_release n tag)) ?_ fun _ _ =>
      due_release ho
    show (n.release tag).wires.table.get? id = _
    rw [Node.wires_release]
  | @tell n told r m lost held hf =>
    obtain ⟨k, slot⟩ := r
    have ha : n.Alike told := Node.fulfil_alike hf
    by_cases hr : k = id ∧ n.links.get? id ≠ none
    · obtain ⟨rfl, hthere⟩ := hr
      obtain ⟨l, hl⟩ := Option.ne_none_iff_exists'.1 hthere
      have ho : n.Owes (k, slot) :=
        (hmt.held (List.mem_cons_self ..)).1.resolve_left hthere
      obtain ⟨order, fault, hfill, hw, hl', hnone⟩ := Node.fulfil_owed hf hl ho
      cases fault with
      | some fault => cases hnone
      | none =>
        refine .told hl (List.mem_cons_self ..) hfill hw hl' fun s hs => ?_
        exact due_tell (fun _ => ha.awaits) (fun _ => Iff.rfl) fun he => hs (congrArg Prod.snd he)
    · have hother : ∀ l, n.links.get? k = some l → l.id = k ∧ k ≠ id := by
        refine fun l hl => ⟨(hc.links k l hl).1, fun hid => hr ⟨hid, ?_⟩⟩
        rw [← hid, hl]
        exact Option.some_ne_none _
      obtain ⟨hl, hw⟩ := Node.fulfil_aside hf hother
      refine .aside hl hw fun hthere slot' =>
        due_tell (fun _ => ha.awaits) (fun _ => Iff.rfl) ?_
      rintro heq
      exact hr ⟨(congrArg Prod.fst heq).symm, hthere⟩
  | @refuse n told r m lost held k hf =>
    obtain ⟨c, slot⟩ := r
    have ha : n.Alike told := Node.fulfil_alike hf
    obtain ⟨rfl, hthere⟩ := Node.fulfil_refused hf
    have ho : n.Owes (k, slot) := (hmt.held (List.mem_cons_self ..)).1.resolve_left hthere
    by_cases hr : k = id
    · subst hr
      obtain ⟨l, hl⟩ := Option.ne_none_iff_exists'.1 hthere
      obtain ⟨order, fault, hfill, hw, hl', hsome⟩ := Node.fulfil_owed hf hl ho
      cases fault with
      | none => cases hsome
      | some fault =>
        refine .refused hl (List.mem_cons_self ..) hfill hw ?_ (Node.wires_detach ?_)
        · exact (Node.links_detach told k k).trans (if_pos rfl)
        · rw [hl']
          exact Option.some_ne_none _
    · obtain ⟨hl, hw⟩ := Node.fulfil_aside hf fun l hl => ⟨(hc.links k l hl).1, hr⟩
      have htold : Phase.Matched ⟨(n.fulfil (some (k, slot)) m).1, lost, held⟩ := hmt.fulfil
      rw [hf] at htold
      have hstate : ∀ l, told.links.get? k = some l → l.state = .active := fun l hl =>
        ((hc.alike ha fun _ hx => hx : Phase.Coherent ⟨told, lost, held⟩).links k l hl).2.1
      refine .aside ?_ ((Node.get?_wires_detach (Ne.symm hr)).trans hw) fun _ slot' =>
        due_tell (fun tag => ?_) (fun e => ?_) fun heq => hr (congrArg Prod.fst heq).symm
      · exact (Node.links_detach told k id).trans ((if_neg (Ne.symm hr)).trans hl)
      · rw [Node.awaits_detach hstate htold.owes, ha.awaits]
        exact and_iff_right (Ne.symm hr)
      · -- The link that goes is another client's, so nothing further fails with it.
        rw [Node.lost_detach_client (hmt.refused hf), List.nil_append]

end Depot
