/-
  Depot — which replies an action brings on their way.

  A reply is `Due` in the middle of an action if it is on its way or its request is about to
  fail.  `Opens.due_iff` says that the replies that are due once an action has opened are
  exactly those of the requests that the action resolves.
-/
import Depot.Proofs.Node.Replies

namespace Depot

variable {σ : Type u}

/-- The requester is about to be told. -/
def Phase.Due (p : Phase σ) (r : LinkId × Nat) : Prop :=
  r ∈ p.held.map Prod.fst ∨ ∃ tag text, (tag, text) ∈ p.lost ∧ p.node.Awaits tag r

theorem Phase.not_due {n : Node σ} {r : LinkId × Nat} : ¬ Phase.Due ⟨n, [], []⟩ r := by
  rintro (hin | ⟨tag, text, hin, -⟩)
  · cases hin
  · cases hin

theorem Node.Alike.awaits {n m : Node σ} (h : n.Alike m) {tag : Tag} {r : LinkId × Nat} :
    m.Awaits tag r ↔ n.Awaits tag r := by
  rw [Awaits, h.waiting, Awaits]

variable [Outbound σ]

/-- No link to a shard goes in the middle of an action. -/
theorem Phase.Move.stays {p q : Phase σ} (hm : p.Move q) (hmt : p.Matched) {k : LinkId}
    {shard : ShardId} (h : p.node.kind? k = some (.dialed shard)) :
    q.node.kind? k = some (.dialed shard) := by
  cases hm with
  | skip => exact h
  | @release n tag =>
    show (n.release tag).kind? k = _
    rw [Node.kind?, Node.links_release]
    exact h
  | @tell n told r m lost held hf =>
    have ha : n.Alike told := Node.fulfil_alike hf
    exact (ha.kind? k).trans h
  | @refuse n told r m lost held id hf =>
    have ha : n.Alike told := Node.fulfil_alike hf
    -- The link that refuses is a client's.
    have hclient : told.kind? id = some .client := hmt.refused hf
    replace h : n.kind? k = some (.dialed shard) := h
    show (told.detach id).1.kind? k = _
    rw [Node.kind?_detach, ha.kind?, if_neg, h]
    rintro rfl
    rw [ha.kind?, h] at hclient
    cases hclient

theorem Phase.Moves.stays {p q : Phase σ} (h : p.Moves q) (hc : p.Coherent) (hmt : p.Matched)
    {k : LinkId} {shard : ShardId} (hk : p.node.kind? k = some (.dialed shard)) :
    q.node.kind? k = some (.dialed shard) := by
  exact (hmt.moves (P := fun p => p.node.kind? k = some (.dialed shard))
    (fun hm _ hmt hk => hm.stays hmt hk) h hc hk).2

namespace Node

variable {n : Node σ} {a : Action σ} {p : Phase σ} {r : LinkId × Nat}

/-- With a link to a shard go the requests that left on it. -/
theorem due_detach {m : Node σ} {held : List ((LinkId × Nat) × Message)} {l : Link}
    {shard : ShardId} {tag : Tag} {o : PendingRequest} (hl : m.links.get? o.target = some l)
    (hs : l.state = .active) (hk : l.kind = .dialed shard) (ho : m.waiting.get? tag = some o)
    (hr : o.requester = some r) :
    Phase.Due ⟨(m.detach o.target).1, (m.detach o.target).2, held⟩ r := by
  rw [detach_dialed hl hs hk]
  refine .inr ⟨tag, lostText shard, List.mem_map.2 ⟨(tag, o), ?_, rfl⟩, o, ho, hr⟩
  exact List.mem_filter.2 ⟨Table.mem_entries.2 ho, by simp⟩

/-- A request is about to fail whose link goes as the action opens. -/
theorem Opens.due_lost (hp : n.Opens a p) (hc : Phase.Coherent ⟨n, [], []⟩) {tag : Tag}
    {o : PendingRequest} {shard : ShardId} (ho : n.waiting.get? tag = some o)
    (hr : o.requester = some r) (hk : n.kind? o.target = some (.dialed shard))
    (hg : p.node.kind? o.target = none) : p.Due r := by
  obtain ⟨l, hl, hkind⟩ := kind?_eq_some.1 hk
  have hs := (hc.links o.target l hl).2.1
  have hkept : p.node.kind? o.target = n.kind? o.target → p.Due r := by
    intro h
    rw [hg, hk] at h
    cases h
  have hdetach : ∀ {m : Node σ} {k : LinkId} {held : List ((LinkId × Nat) × Message)} {l' : Link},
      m.waiting = n.waiting → m.links.get? o.target = some l' → l'.bare = l.bare →
      (m.detach k).1.kind? o.target = none →
      Phase.Due ⟨(m.detach k).1, (m.detach k).2, held⟩ r := by
    intro m k held l' hmw hl' hbare hgone
    have hs' : l'.bare.state = .active := by rw [hbare]; exact hs
    have hk' : l'.bare.kind = .dialed shard := by rw [hbare]; exact hkind
    rw [kind?_detach] at hgone
    split at hgone
    · rename_i htarget
      subst htarget
      exact due_detach hl' hs' hk' (hmw ▸ ho) hr
    · rw [kind?_eq_some.2 ⟨l', hl', rfl⟩] at hgone
      cases hgone
  cases hp with
  | elapse | rewire | expire | trail | answer | orphan => exact hkept rfl
  | forward hl' | refuse hl' => exact hkept ((reserve_alike hl').kind? _)
  | settle =>
    refine hkept ?_
    show (release _ _).kind? _ = _
    rw [kind?, links_release]
    rfl
  | close => exact hdetach rfl hl rfl hg
  | choke => exact hdetach rfl hl rfl hg
  | @sever id m l₁ shard₁ request target tag₁ wires fault hl₁ =>
    have hb := (reserve_alike hl₁).links o.target
    rw [hl, Option.map_some, Option.map_eq_some_iff] at hb
    obtain ⟨l', hl', hbare⟩ := hb
    exact hdetach rfl hl' hbare hg
  | enter kind =>
    have hnew : o.target ≠ n.nextLink := by
      intro h
      rw [h, hc.fresh] at hl
      cases hl
    have hjoin : ∀ peers, (n.join kind peers).links.get? o.target = some l := by
      intro peers
      rw [links_join, if_neg hnew, hl]
    have key : ∀ {q : Node σ × List (Tag × String)}, n.Entered kind q →
        q.1.kind? o.target = none → Phase.Due ⟨q.1, q.2, []⟩ r := by
      intro q hq hgone
      cases hq with
      | plain | alone =>
        rw [kind?_eq_some.2 ⟨l, hjoin _, rfl⟩] at hgone
        cases hgone
      | instead => exact hdetach rfl (hjoin _) rfl hgone
    exact key (n.enter_cases kind) hg

/-- A request that is about to fail once an action has opened is late or lost. -/
theorem Opens.resolves_lost (hp : n.Opens a p) (hm : p.Moves ⟨n.act a, [], []⟩)
    (hc : Phase.Coherent ⟨n, [], []⟩) {tag : Tag} {text : String} (hin : (tag, text) ∈ p.lost)
    (hw : p.node.Awaits tag r) : ∃ m, n.Resolves a r m := by
  have hgone : ∀ {m : Node σ} {k : LinkId} {lost held}, p = ⟨(m.detach k).1, lost, held⟩ →
      (n.act a).kind? k = none := by
    rintro m k lost held rfl
    exact hm.gone (by rw [kind?_detach, if_pos rfl])
  cases hp with
  | elapse | rewire | trail | answer | forward | orphan | refuse | settle =>
    exact absurd hin List.not_mem_nil
  | expire now =>
    obtain ⟨⟨t, o⟩, he, heq⟩ := List.mem_map.1 hin
    obtain ⟨he, hlate⟩ := List.mem_filter.1 he
    cases heq
    obtain ⟨o', ho', hor⟩ := hw
    cases (Table.mem_entries.1 he).symm.trans ho'
    exact ⟨_, .expired rfl ho' hor (of_decide_eq_true hlate)⟩
  | close | choke =>
    refine ⟨_, .of_detach ?_ ?_ (hgone rfl) hin hw⟩
    · rfl
    · rfl
  | sever hl =>
    refine ⟨_, .of_detach ?_ ?_ (hgone rfl) hin hw⟩
    · rfl
    · exact (reserve_alike hl).kind? _
  | enter kind =>
    have key : ∀ {q : Node σ × List (Tag × String)}, n.Entered kind q →
        Phase.Moves ⟨q.1, q.2, []⟩ ⟨n.act (.attach kind), [], []⟩ → (tag, text) ∈ q.2 →
        q.1.Awaits tag r → ∃ m, n.Resolves (.attach kind) r m := by
      intro q hq hm hin hw
      cases hq with
      | plain | alone => exact absurd hin List.not_mem_nil
      | @instead shard old hold =>
        obtain ⟨l, hl, -⟩ := kind?_eq_some.1 ((hc.peers shard old).1 hold)
        have hne : old ≠ n.nextLink := Nat.ne_of_lt (hc.links old l hl).2.2
        refine ⟨_, .of_detach ?_ ?_ (hm.gone (by rw [kind?_detach, if_pos rfl])) hin hw⟩
        · rfl
        · rw [kind?_join, if_neg hne]
    exact key (n.enter_cases kind) hm hin hw

omit [Outbound σ] in
theorem mem_replies_fst {o : PendingRequest} {m : Message} :
    r ∈ (o.replies m).map Prod.fst ↔ o.requester = some r := by
  cases h : o.requester <;> simp [PendingRequest.replies, h, eq_comm]

/-- The replies that are due once an action has opened are those of the requests that it
    resolves. -/
theorem Opens.due_iff (hp : n.Opens a p) (hm : p.Moves ⟨n.act a, [], []⟩)
    (ha : n.admits a = true) (hc : Phase.Coherent ⟨n, [], []⟩)
    (hmt : Phase.Matched ⟨n, [], []⟩) : p.Due r ↔ ∃ m, n.Resolves a r m := by
  constructor
  · rintro (hheld | ⟨tag, text, hin, hw⟩)
    · cases hp with
      | elapse | rewire | expire | enter | close | trail | answer | choke | forward | orphan =>
        exact absurd hheld List.not_mem_nil
      | refuse hl hd hf =>
        cases List.mem_singleton.1 hheld
        exact ⟨_, .refused rfl hl rfl (duty_eq_forward_iff.1 hd) hf⟩
      | sever hl hd ht hw hf =>
        cases List.mem_singleton.1 hheld
        exact ⟨_, .refused rfl hl rfl (duty_eq_forward_iff.1 hd) hf⟩
      | settle hl hd ho =>
        exact ⟨_, .answered rfl (duty_settles_iff.1 ⟨_, hd⟩) ho (mem_replies_fst.1 hheld)⟩
    · exact hp.resolves_lost hm hc hin hw
  · rintro ⟨m, h⟩
    cases h with
    | @answered id m reply tag o ha hd ho hr =>
      subst ha
      obtain ⟨store, hd⟩ := duty_settles_iff.2 hd
      cases hp with
      | trail hl =>
        -- A reply that is waited for comes on the link on which the request left.
        obtain ⟨hw, htarget⟩ := Option.filter_eq_some_iff.1 ho
        obtain ⟨shard, hk⟩ := hc.node.targets tag o hw
        rw [of_decide_eq_true htarget, kind?, hl] at hk
        cases hk
      | answer hl hd' | choke hl hd' | forward hl hd' | refuse hl hd' | sever hl hd' =>
        cases hd.symm.trans hd'
      | orphan hl hd' ho' =>
        cases hd.symm.trans hd'
        cases ho.symm.trans ho'
      | settle hl hd' ho' =>
        cases hd.symm.trans hd'
        cases ho.symm.trans ho'
        exact .inl (mem_replies_fst.2 hr)
    | @expired now tag o ha ho hr hd =>
      subst ha
      cases hp
      refine .inr ⟨tag, timeoutText, List.mem_map.2 ⟨(tag, o), ?_, rfl⟩, o, ho, hr⟩
      exact List.mem_filter.2 ⟨Table.mem_entries.2 ho, decide_eq_true hd⟩
    | @lost tag o shard ho hr hk hg =>
      refine hp.due_lost hc ho hr hk ?_
      cases h : p.node.kind? o.target with
      | none => rfl
      | some kind =>
        -- A link to a shard that is there after the opening is there to the end.
        have hkind : n.kind? o.target = some kind := by
          rcases hp.kept h with h | ⟨-, hnew⟩
          · exact h
          · rw [← hnew, kind?, hc.fresh] at hk
            cases hk
        rw [hk] at hkind
        cases hkind
        rw [hm.stays (hc.opens hp) (hmt.opens hp ha hc) h] at hg
        cases hg
    | @refused m l shard request fault ha hl hs hd hf =>
      subst ha
      rw [← @duty_eq_forward_iff n.store] at hd
      obtain ⟨id, slot⟩ := r
      replace hs : slot = l.order.next := hs
      subst hs
      cases hp with
      | trail hl' => cases hl.symm.trans hl'
      | answer hl' hd' | choke hl' hd' | orphan hl' hd' | settle hl' hd' =>
        cases hd.symm.trans hd'
      | forward hl' hd' ht hg hw hf' =>
        cases hl.symm.trans hl'
        cases hd.symm.trans hd'
        cases hf.symm.trans hf'
      | refuse hl' | sever hl' =>
        cases hl.symm.trans hl'
        exact .inl (List.mem_singleton_self _)

end Node

end Depot
