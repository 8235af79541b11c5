/-
  Depot — the tables of a node agree.

  A node keeps four tables: the tags that are out, the requests that wait, the
  links, and the links to shards.  `Node.Coherent` says how they agree, and
  `run_coherent` that they do after every action of every run, whatever comes in
  on whichever link and whatever becomes of the frames.

  In the middle of an action a request may wait whose link is gone already;
  `Phase.Coherent` says so of the requests that are about to fail and of no others.
-/
import Depot.Proofs.Node.Change
import Depot.Proofs.Node.Phase

namespace Depot

variable {σ : Type u}

/-- The tables of a node agree. -/
structure Node.Coherent (n : Node σ) : Prop where
  /-- The tags that are out are those under which requests wait. -/
  tags : ∀ tag, n.tags.isOut tag = n.waiting.contains tag
  /-- Every request that waits left on a link to a shard that is there. -/
  targets : ∀ tag o, n.waiting.get? tag = some o → ∃ shard, n.kind? o.target = some (.dialed shard)
  /-- Requests to a shard leave on the one link to it. -/
  peers : ∀ shard id, n.peers.get? shard = some id ↔ n.kind? id = some (.dialed shard)
  links : ∀ id l, n.links.get? id = some l → l.id = id ∧ l.state = .active ∧ id < n.nextLink

/-- The tables of a node agree but for requests that are about to fail, and no tag
    came back in vain. -/
structure Phase.Coherent (p : Phase σ) : Prop where
  tags : ∀ tag, p.node.tags.isOut tag = p.node.waiting.contains tag
  targets : ∀ tag o, p.node.waiting.get? tag = some o →
    (∃ text, (tag, text) ∈ p.lost) ∨ ∃ shard, p.node.kind? o.target = some (.dialed shard)
  peers : ∀ shard id, p.node.peers.get? shard = some id ↔ p.node.kind? id = some (.dialed shard)
  links : ∀ id l, p.node.links.get? id = some l →
    l.id = id ∧ l.state = .active ∧ id < p.node.nextLink
  alarms : ∀ e, Alarm.tag e ∉ p.node.alarms

theorem Phase.Coherent.node {n : Node σ} (h : Phase.Coherent ⟨n, [], []⟩) : n.Coherent where
  tags := h.tags
  targets tag o ho := (h.targets tag o ho).resolve_left fun ⟨_, hm⟩ => by cases hm
  peers := h.peers
  links := h.links

/-! ## Changes that leave the tables alone -/

/-- The tables are the same but for the replies that links are owed. -/
structure Node.Alike (n m : Node σ) : Prop where
  tags : m.tags = n.tags := by rfl
  waiting : m.waiting = n.waiting := by rfl
  peers : ∀ shard, m.peers.get? shard = n.peers.get? shard := by intro; rfl
  nextLink : m.nextLink = n.nextLink := by rfl
  links : ∀ id, (m.links.get? id).map Link.bare = (n.links.get? id).map Link.bare := by intro; rfl
  alarms : ∀ e, Alarm.tag e ∈ m.alarms → Alarm.tag e ∈ n.alarms := by intro _ he; exact he

namespace Node

/-- A link in which only the replies that it is owed changed. -/
theorem bare_modify {n : Node σ} {id : LinkId} {l l' : Link} (hl : n.links.get? id = some l)
    (hb : l'.bare = l.bare) (k : LinkId) :
    ((n.links.modify id fun _ => l').get? k).map Link.bare = (n.links.get? k).map Link.bare := by
  rw [Table.get?_replace hl]
  split
  · rename_i hk
    rw [hk, hl, Option.map_some, Option.map_some, hb]
  · rfl

theorem reserve_alike {n : Node σ} {id : LinkId} {l : Link} (hl : n.links.get? id = some l) :
    n.Alike (n.reserve id l) where
  links := bare_modify hl rfl

theorem fulfil_alike [Outbound σ] {n told : Node σ} {r : LinkId × Nat} {m : Message}
    {refused : Option LinkId} (h : n.fulfil (some r) m = (told, refused)) : n.Alike told := by
  have key : ∀ {q : Node σ × Option LinkId}, n.Fulfilled r.1 r.2 m q → n.Alike q.1 := by
    intro q hq
    cases hq with
    | gone => exact {}
    | kept hl => exact { links := bare_modify hl rfl }
    | stray hl =>
      refine { links := bare_modify hl rfl, alarms := fun e he => ?_ }
      exact (List.mem_append.1 he).resolve_right (by simp)
  have hq := key (fulfil_cases n r.1 r.2 m)
  rw [h] at hq
  exact hq

theorem Alike.kind? {n m : Node σ} (h : n.Alike m) (id : LinkId) : m.kind? id = n.kind? id := by
  have hb := congrArg (Option.map Link.kind) (h.links id)
  rw [Option.map_map, Option.map_map] at hb
  exact hb

end Node

namespace Phase.Coherent

theorem alike {n m : Node σ} {lost lost' held held'} (h : Phase.Coherent ⟨n, lost, held⟩)
    (ha : n.Alike m) (hl : ∀ x ∈ lost, x ∈ lost') : Phase.Coherent ⟨m, lost', held'⟩ := by
  refine ⟨fun tag => ?_, fun tag o ho => ?_, fun shard id => ?_, fun id l hid => ?_,
    fun e he => h.alarms e (ha.alarms e he)⟩
  · show m.tags.isOut tag = m.waiting.contains tag
    rw [ha.tags, ha.waiting]
    exact h.tags tag
  · show (∃ text, (tag, text) ∈ lost') ∨ ∃ shard, m.kind? o.target = some (.dialed shard)
    rw [ha.kind?]
    exact (h.targets tag o (ha.waiting ▸ ho)).imp_left fun ⟨text, hm⟩ => ⟨text, hl _ hm⟩
  · show m.peers.get? shard = some id ↔ m.kind? id = some (.dialed shard)
    rw [ha.peers, ha.kind?]
    exact h.peers shard id
  · replace hid : m.links.get? id = some l := hid
    obtain ⟨l', hl', hbare⟩ : ∃ l', n.links.get? id = some l' ∧ l'.bare = l.bare := by
      have hb := ha.links id
      rw [hid, Option.map_some, eq_comm, Option.map_eq_some_iff] at hb
      exact hb
    have hlid : l.bare.id = l'.bare.id := congrArg Link.id hbare.symm
    have hstate : l.bare.state = l'.bare.state := congrArg Link.state hbare.symm
    show l.id = id ∧ l.state = .active ∧ id < m.nextLink
    rw [ha.nextLink, show l.id = l'.id from hlid, show l.state = l'.state from hstate]
    exact h.links id l' hl'

/-- A slot is reserved, which none of the tables shows. -/
theorem reserve {n : Node σ} {lost held id l} (h : Phase.Coherent ⟨n, lost, held⟩)
    (hl : n.links.get? id = some l) : Phase.Coherent ⟨n.reserve id l, lost, held⟩ :=
  h.alike (Node.reserve_alike hl) fun _ hx => hx

/-! ## Requests that are over -/

theorem release {n : Node σ} {lost lost' held held' tag o} (h : Phase.Coherent ⟨n, lost, held⟩)
    (ho : n.waiting.get? tag = some o) (hl : ∀ x ∈ lost, x.1 ≠ tag → x ∈ lost') :
    Phase.Coherent ⟨n.release tag, lost', held'⟩ := by
  have hout : n.tags.isOut tag = true := by
    rw [h.tags, Table.contains_eq_true]
    exact ⟨o, ho⟩
  obtain ⟨tags, hr, ht⟩ := Node.release_eq hout
  rw [hr]
  refine ⟨fun t => ?_, fun t o' ho' => ?_, h.peers, h.links, h.alarms⟩
  · show tags.isOut t = (n.waiting.erase tag).contains t
    rw [ht, h.tags, Table.contains, Table.contains, Table.get?_erase]
    by_cases htag : t = tag <;> simp [htag]
  · show (∃ text, (t, text) ∈ lost') ∨ ∃ shard, n.kind? o'.target = _
    replace ho' : (n.waiting.erase tag).get? t = some o' := ho'
    rw [Table.get?_erase] at ho'
    split at ho'
    · cases ho'
    · rename_i htag
      refine (h.targets t o' ho').imp_left ?_
      rintro ⟨text, hm⟩
      exact ⟨text, hl _ hm htag⟩

/-- A request leaves under a tag. -/
theorem insert_request {n : Node σ} {lost held id l shard target tags tag}
    (h : Phase.Coherent ⟨n, lost, held⟩) (hl : n.links.get? id = some l)
    (ht : n.peers.get? shard = some target) (hg : n.tags.draw = .ok (tags, tag)) (wires : σ)
    (requester : Option (LinkId × Nat)) (deadline : Nat) :
    Phase.Coherent ⟨{ n.reserve id l with
      tags, wires, waiting := n.waiting.insert tag ⟨requester, target, deadline⟩ },
      lost, held⟩ := by
  have hr := h.reserve hl
  refine ⟨fun t => ?_, fun t o ho => ?_, hr.peers, hr.links, hr.alarms⟩
  · show tags.isOut t = (n.waiting.insert tag _).contains t
    rw [(TagPool.draw_spec hg).2, h.tags, Table.contains, Table.contains, Table.get?_insert]
    by_cases htag : t = tag <;> simp [htag]
  · replace ho : (n.waiting.insert tag ⟨requester, target, deadline⟩).get? t = some o := ho
    rw [Table.get?_insert] at ho
    split at ho
    · cases ho
      exact Or.inr ⟨shard, (hr.peers shard target).1 ht⟩
    · exact hr.targets t o ho

/-! ## Links that go and come -/

theorem links_erase {n : Node σ} {lost held id} (h : Phase.Coherent ⟨n, lost, held⟩) (k : LinkId)
    (l : Link) (hl : (n.links.erase id).get? k = some l) :
    l.id = k ∧ l.state = .active ∧ k < n.nextLink := by
  rw [Table.get?_erase] at hl
  split at hl
  · cases hl
  · exact h.links k l hl

/-- A link goes that is none to a shard. -/
theorem erase_plain {n : Node σ} {lost held held' id l} (h : Phase.Coherent ⟨n, lost, held⟩)
    (hl : n.links.get? id = some l) (hk : ∀ shard, l.kind ≠ .dialed shard) (wires : σ)
    {waiting : Table Tag PendingRequest}
    (hw : ∀ t, (waiting.get? t).map PendingRequest.target =
      (n.waiting.get? t).map PendingRequest.target) :
    Phase.Coherent ⟨{ n with links := n.links.erase id, wires, waiting }, lost, held'⟩ := by
  have hne : ∀ {k shard}, n.kind? k = some (.dialed shard) → k ≠ id := by
    rintro k shard hks rfl
    rw [Node.kind?, hl, Option.map_some, Option.some.injEq] at hks
    exact hk shard hks
  refine ⟨fun t => ?_, fun t o ho => ?_, fun shard k => ?_, h.links_erase, h.alarms⟩
  · show n.tags.isOut t = waiting.contains t
    have := congrArg Option.isSome (hw t)
    rw [Option.isSome_map, Option.isSome_map] at this
    rw [Table.contains, this]
    exact h.tags t
  · obtain ⟨o', ho', htarget⟩ : ∃ o', n.waiting.get? t = some o' ∧ o'.target = o.target := by
      have := hw t
      rw [show waiting.get? t = some o from ho, Option.map_some, eq_comm,
        Option.map_eq_some_iff] at this
      exact this
    refine (h.targets t o' ho').imp_right ?_
    rintro ⟨shard, hs⟩
    rw [htarget] at hs
    exact ⟨shard, by rw [Node.kind?_erase, if_neg (hne hs), hs]⟩
  · rw [Node.kind?_erase]
    split
    · rename_i hkid
      subst hkid
      exact ⟨fun hp => absurd rfl (hne ((h.peers shard k).1 hp)), fun hk => by cases hk⟩
    · exact h.peers shard k

/-- A link to a shard goes; what left on it is about to fail. -/
theorem erase_dialed {n : Node σ} {lost held held' id l shard}
    (h : Phase.Coherent ⟨n, lost, held⟩) (hl : n.links.get? id = some l)
    (hk : l.kind = .dialed shard) (wires : σ) :
    Phase.Coherent ⟨{ n with
      links := n.links.erase id, wires
      peers := if n.peers.get? shard = some id then n.peers.erase shard else n.peers },
      (n.waiting.entries.filter fun e => e.2.target = id).map (fun e => (e.1, Node.lostText shard))
        ++ lost, held'⟩ := by
  have hid : n.kind? id = some (.dialed shard) := Node.kind?_eq_some.2 ⟨l, hl, hk⟩
  refine ⟨h.tags, fun t o ho => ?_, fun s k => ?_, h.links_erase, h.alarms⟩
  · by_cases ht : o.target = id
    · refine Or.inl ⟨Node.lostText shard, List.mem_append_left _ (List.mem_map.2 ⟨(t, o), ?_, rfl⟩)⟩
      exact List.mem_filter.2 ⟨Table.mem_entries.2 ho, by simpa using ht⟩
    · refine (h.targets t o ho).imp (fun ⟨text, hm⟩ => ⟨text, List.mem_append_right _ hm⟩) ?_
      rintro ⟨s, hs⟩
      exact ⟨s, by rw [Node.kind?_erase, if_neg ht]; exact hs⟩
  · show (if n.peers.get? shard = some id then n.peers.erase shard else n.peers).get? s = some k ↔ _
    rw [if_pos ((h.peers shard id).2 hid), Table.get?_erase, Node.kind?_erase]
    by_cases hs : s = shard
    · subst hs
      rw [if_pos rfl]
      refine ⟨nofun, fun hc => ?_⟩
      split at hc
      · cases hc
      · rename_i hne
        have := ((h.peers s id).2 hid).symm.trans ((h.peers s k).2 hc)
        exact absurd (Option.some.inj this).symm hne
    · rw [if_neg hs, h.peers]
      by_cases hkid : k = id
      · subst hkid
        rw [if_pos rfl]
        show n.kind? k = _ ↔ _
        rw [hid]
        exact ⟨fun hc => absurd (LinkKind.dialed.inj (Option.some.inj hc)).symm hs,
          nofun⟩
      · rw [if_neg hkid]

theorem fresh {n : Node σ} {lost held} (h : Phase.Coherent ⟨n, lost, held⟩) :
    n.links.get? n.nextLink = none := by
  cases hl : n.links.get? n.nextLink with
  | none => rfl
  | some l => exact absurd (h.links _ l hl).2.2 (Nat.lt_irrefl _)

/-- A link comes up; `peers` leads to it if it is one to a shard that had none. -/
theorem join {n : Node σ} {lost held} (h : Phase.Coherent ⟨n, lost, held⟩) (kind : LinkKind)
    (peers : Table ShardId LinkId)
    (hp : ∀ s k, peers.get? s = some k ↔
      k = n.nextLink ∧ kind = .dialed s ∨ n.peers.get? s = some k) :
    Phase.Coherent ⟨n.join kind peers, lost, held⟩ := by
  have hne : ∀ {k kind}, n.kind? k = some kind → k ≠ n.nextLink := by
    rintro k kind hk rfl
    rw [Node.kind?, h.fresh] at hk
    cases hk
  refine ⟨h.tags, fun t o ho => ?_, fun s k => ?_, fun k l hl => ?_, h.alarms⟩
  · refine (h.targets t o ho).imp_right ?_
    rintro ⟨s, hs⟩
    exact ⟨s, by rw [Node.kind?_join, if_neg (hne hs)]; exact hs⟩
  · show peers.get? s = some k ↔ _
    rw [hp, Node.kind?_join]
    by_cases hk : k = n.nextLink
    · subst hk
      have : n.peers.get? s ≠ some n.nextLink := fun hs => hne ((h.peers s _).1 hs) rfl
      simp [this]
    · simp only [hk, false_and, false_or, if_false]
      exact h.peers s k
  · replace hl : (n.join kind peers).links.get? k = some l := hl
    rw [Node.links_join] at hl
    split at hl
    · rename_i hk
      cases hl
      exact ⟨hk.symm, rfl, hk ▸ Nat.lt_succ_self _⟩
    · obtain ⟨h₁, h₂, h₃⟩ := h.links k l hl
      exact ⟨h₁, h₂, Nat.lt_succ_of_lt h₃⟩

variable [Outbound σ]

theorem detach {n : Node σ} {lost held held'} (id : LinkId) (h : Phase.Coherent ⟨n, lost, held⟩) :
    Phase.Coherent ⟨(n.detach id).1, (n.detach id).2 ++ lost, held'⟩ := by
  have key : ∀ {q : Node σ × List (Tag × String)}, n.Detached id q →
      Phase.Coherent ⟨q.1, q.2 ++ lost, held'⟩ := by
    intro q hq
    cases hq with
    | absent => exact h.alike {} fun _ hx => hx
    | idle hl hs => exact absurd (h.links id _ hl).2.1 hs
    | client hl hk =>
      refine h.erase_plain hl (by simp [hk]) _ fun t => ?_
      rw [Table.get?_map, Option.map_map]
      congr 1
      funext o
      simp only [Function.comp_apply, PendingRequest.forget]
      split <;> rfl
    | accepted hl hk => exact h.erase_plain hl (by simp [hk]) _ fun _ => rfl
    | dialed hl hk => exact h.erase_dialed hl hk _
  exact key (Node.detach_cases n id)

/-- A link takes the place of the one to the same shard. -/
theorem join_over {n : Node σ} {shard : ShardId} {old : LinkId} {held}
    (h : Phase.Coherent ⟨n, [], held⟩) (hold : n.peers.get? shard = some old) {m : Node σ}
    (hm : m = n.join (.dialed shard) (n.peers.insert shard n.nextLink)) :
    Phase.Coherent ⟨(m.detach old).1, (m.detach old).2, held⟩ := by
  obtain ⟨l, hl, hk⟩ := Node.kind?_eq_some.1 ((h.peers shard old).1 hold)
  have hne : old ≠ n.nextLink := by
    rintro rfl
    rw [h.fresh] at hl
    cases hl
  have hml : m.links.get? old = some l := by
    rw [hm, Node.links_join, if_neg hne, hl]
  have hms : m.peers.get? shard = some n.nextLink := by
    rw [hm]
    show (n.peers.insert shard n.nextLink).get? shard = _
    rw [Table.get?_insert, if_pos rfl]
  -- The tables are those of the old link going first and the new one coming then.
  have hgone : Phase.Coherent ⟨_, _, held⟩ :=
    h.erase_dialed hl hk (Outbound.hangUp n.wires old)
  have hgo := hgone.join (.dialed shard) (n.peers.insert shard n.nextLink) fun s k => by
    rw [if_pos hold, Table.get?_insert, Table.get?_erase]
    by_cases hs : s = shard
    · simp [hs, eq_comm]
    · simp [hs, Ne.symm hs]
  rw [Node.detach_dialed hml (h.links old l hl).2.1 hk]
  subst hm
  refine hgo.alike { peers := fun s => ?_, links := fun k => ?_ } fun x hx => ?_
  · show (ite _ _ _ : Table ShardId LinkId).get? s = _
    rw [if_neg (by rw [hms]; exact fun e => hne (Option.some.inj e).symm)]
    rfl
  · show (((n.links.insert _ _).erase old).get? k).map _ =
      (((n.links.erase old).insert _ _).get? k).map _
    rw [Table.get?_erase, Table.get?_insert, Table.get?_insert, Table.get?_erase]
    by_cases hk₁ : k = old
    · simp [hk₁, hne]
    · simp [hk₁]
  · exact (List.mem_append.1 hx).resolve_right (by simp)

theorem enter {n : Node σ} {held} (h : Phase.Coherent ⟨n, [], held⟩) (kind : LinkKind) :
    Phase.Coherent ⟨(n.enter kind).1, (n.enter kind).2, held⟩ := by
  have key : ∀ {q : Node σ × List (Tag × String)}, n.Entered kind q →
      Phase.Coherent ⟨q.1, q.2, held⟩ := by
    intro q hq
    cases hq with
    | plain hk => exact h.join kind _ fun s k => by simp [hk]
    | instead hold => exact h.join_over hold rfl
    | @alone shard hnone =>
      refine h.join (.dialed shard) _ fun s k => ?_
      rw [Table.get?_insert]
      by_cases hs : s = shard
      · simp [hs, hnone, eq_comm]
      · simp [hs, Ne.symm hs]
  exact key (n.enter_cases kind)

/-! ## Actions -/

theorem move {p q : Phase σ} (hm : p.Move q) (h : p.Coherent) : q.Coherent := by
  cases hm with
  | skip hw =>
    refine ⟨h.tags, fun t o ho => (h.targets t o ho).imp_left ?_, h.peers, h.links, h.alarms⟩
    rintro ⟨text, hm⟩
    rcases List.mem_cons.1 hm with he | hm
    · cases he
      rw [hw] at ho
      cases ho
    · exact ⟨text, hm⟩
  | release ho =>
    refine h.release ho fun x hx hne => (List.mem_cons.1 hx).resolve_left ?_
    rintro rfl
    exact hne rfl
  | @tell n told r m lost held ht =>
    have ha : n.Alike told := Node.fulfil_alike ht
    exact h.alike ha fun _ hx => hx
  | @refuse n told r m lost held id ht =>
    have ha : n.Alike told := Node.fulfil_alike ht
    have hf : Phase.Coherent ⟨told, lost, held⟩ := h.alike ha fun _ hx => hx
    exact hf.detach id

theorem opens {n : Node σ} {a : Action σ} {p : Phase σ} (ho : n.Opens a p)
    (h : Phase.Coherent ⟨n, [], []⟩) : p.Coherent := by
  cases ho with
  | elapse | rewire | answer | orphan => exact h.alike {} nofun
  | trail => exact h
  | enter kind => exact h.enter kind
  | expire now => exact h.alike {} nofun
  | close id =>
    have hd : Phase.Coherent ⟨_, _, []⟩ := h.detach id
    rwa [List.append_nil] at hd
  | @choke id m reply l store wires fault =>
    have hs : Phase.Coherent ⟨{ n with store, wires }, [], []⟩ := h.alike {} nofun
    have hd : Phase.Coherent ⟨_, _, []⟩ := hs.detach id
    rwa [List.append_nil] at hd
  | forward hl hd ht hg hw => exact h.insert_request hl ht hg _ _ _
  | refuse hl => exact h.alike (Node.reserve_alike hl) nofun
  | @sever id m l shard request target tag wires fault hl =>
    have hs : Phase.Coherent ⟨{ n.reserve id l with wires }, [], []⟩ :=
      h.alike { links := Node.bare_modify hl rfl } nofun
    have hd : Phase.Coherent ⟨_, _, [((id, l.order.next), Message.failure
      (Node.severedText shard fault))]⟩ := hs.detach target
    rwa [List.append_nil] at hd
  | @settle id m reply l tag store o hl hd ho =>
    have hs : Phase.Coherent ⟨{ n with store }, [], []⟩ := h.alike {} nofun
    exact hs.release (Option.filter_eq_some_iff.1 ho).1 nofun

theorem act {n : Node σ} (h : Phase.Coherent ⟨n, [], []⟩) (a : Action σ) :
    Phase.Coherent ⟨n.act a, [], []⟩ := by
  obtain ⟨p, ho, hm⟩ := n.act_opens a
  exact hm.keeps move (h.opens ho)

theorem run (c : Config) (wires : σ) (actions : List (Action σ)) :
    Phase.Coherent ⟨(Node.ofConfig c wires).run actions, [], []⟩ := by
  induction actions using List.reverseRecOn with
  | nil =>
    refine ⟨fun _ => rfl, fun _ _ ho => ?_, fun _ _ => ⟨fun h => ?_, fun h => ?_⟩,
      fun _ _ h => ?_, fun _ => nofun⟩ <;> cases ‹_›
  | append_singleton actions a ih =>
    rw [Node.run_concat]
    exact ih.act a

end Phase.Coherent

variable [Outbound σ]

/-- The tables of a node agree after every action of every run.  So no tag comes
    back in vain, there is at most one link to a shard, and requests always leave on
    a link that is there. -/
theorem Node.run_coherent (c : Config) (wires : σ) (actions : List (Action σ)) :
    let n := (Node.ofConfig c wires).run actions
    n.Coherent ∧ (∀ e, Alarm.tag e ∉ n.alarms) ∧
      (∀ shard id id', n.kind? id = some (.dialed shard) → n.kind? id' = some (.dialed shard) →
        id = id') ∧
      ∀ shard target, n.peers.get? shard = some target →
        ∃ l, n.links.get? target = some l ∧
          ∀ f, n.offerTo target shard f = l.send n.wires f := by
  intro n
  have h : Phase.Coherent ⟨n, [], []⟩ := Phase.Coherent.run c wires actions
  refine ⟨h.node, h.alarms, fun shard id id' hid hid' => ?_, fun shard target ht => ?_⟩
  · have hp := (h.peers shard id).2 hid
    rw [show n.peers.get? shard = some id' from (h.peers shard id').2 hid'] at hp
    exact (Option.some.inj hp).symm
  · obtain ⟨l, hl, -⟩ := Node.kind?_eq_some.1 ((h.peers shard target).1 ht)
    exact ⟨l, hl, fun f => by simp only [Node.offerTo, hl]⟩

end Depot
