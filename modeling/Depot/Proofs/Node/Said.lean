/-
  Depot — what is said on the links of a node.

  Links get their ids in the order in which they come up, so `kindsOf` has what is at the
  other end of each, be it there or gone.  `Node.Says P` holds once every frame that a link
  took or keeps back is a message that may be said on a link of its kind.  If the answers,
  requests and replies that an action gives rise to may be said (`Voices`), the action keeps
  this (`Node.Says.act`).
-/
import Depot.Proofs.Node.Replies

namespace Depot

variable {σ : Type u}

/-- The frame is a message that may be said on a link of the kind. -/
def Frame.Allowed (P : LinkKind → Message → Prop) (kind : LinkKind) (f : Frame) : Prop :=
  ∃ m, f = Frame.ofMessage m ∧ P kind m

/-- What is at the other end of the link that comes up. -/
def Action.kind? : Action σ → Option LinkKind
  | .attach kind => some kind
  | _ => none

/-- What is at the other end of the links that come up in a run, by their ids. -/
def kindsOf (actions : List (Action σ)) : List LinkKind := actions.filterMap Action.kind?

theorem kindsOf_concat (actions : List (Action σ)) (a : Action σ) :
    kindsOf (actions ++ [a]) = kindsOf actions ++ a.kind?.toList := by
  rw [kindsOf, List.filterMap_append, kindsOf]
  cases h : a.kind? <;> simp [h]

/-- What the links of a node took and keep back may be said on links of these kinds. -/
structure Node.Says (P : LinkKind → Message → Prop) (kinds : List LinkKind)
    (n : Node (Recorded σ)) : Prop where
  count : n.nextLink = kinds.length
  links : ∀ id l, n.links.get? id = some l → kinds[id]? = some l.kind
  said : ∀ id f, f ∈ n.wires.takenOn id → ∃ kind, kinds[id]? = some kind ∧ f.Allowed P kind
  kept : ∀ id l f, n.links.get? id = some l → some f ∈ l.order.window → f.Allowed P l.kind

/-- So may the replies on their way be said to clients. -/
structure Phase.Says (P : LinkKind → Message → Prop) (kinds : List LinkKind)
    (p : Phase (Recorded σ)) : Prop where
  node : p.node.Says P kinds
  held : ∀ r m, (r, m) ∈ p.held → P .client m

/-- What an action gives rise to may be said. -/
structure Node.Voices (P : LinkKind → Message → Prop) (n : Node σ) (a : Action σ) : Prop where
  answer : ∀ {id l m store reply}, a = .event (.message id m) → n.links.get? id = some l →
    duty n.store m = .answer store reply → P l.kind reply
  forward : ∀ {id l m shard request}, a = .event (.message id m) → n.links.get? id = some l →
    duty n.store m = .forward shard request → ∀ tag, P (.dialed shard) (.peer tag request)
  settle : ∀ {id l m tag store reply}, a = .event (.message id m) → n.links.get? id = some l →
    duty n.store m = .settle tag store reply → P .client reply
  failure : ∀ text, P .client (Message.failure text)

theorem ReplyOrder.mem_of_ready {α : Type u} {w : List (Option α)} {a : α} (h : a ∈ ready w) :
    some a ∈ w := by
  rw [← ready_append_drop w]
  exact List.mem_append_left _ (List.mem_map_of_mem h)

/-- What is kept or released after a reply was filled in was kept before, or is that reply. -/
theorem ReplyOrder.mem_fill? {α : Type u} {o o' : ReplyOrder α} {slot : Nat} {a b : α}
    (h : o.fill? slot a = some o') (hb : some b ∈ o'.window) : some b ∈ o.window ∨ b = a := by
  obtain ⟨-, rfl⟩ := fill?_eq h
  exact (List.mem_or_eq_of_mem_set hb).imp_right Option.some.inj

namespace Node.Says

variable {P : LinkKind → Message → Prop} {kinds : List LinkKind} {n m : Node (Recorded σ)}

theorem taken (h : n.Says P kinds) (id : LinkId) (l : Link) (f : Frame)
    (hl : n.links.get? id = some l) (hf : f ∈ n.wires.takenOn id) : f.Allowed P l.kind := by
  obtain ⟨kind, hkind, hallowed⟩ := h.said id f hf
  cases (h.links id l hl).symm.trans hkind
  exact hallowed

/-- Links are what they were, or gone, and took nothing. -/
theorem same (h : n.Says P kinds) (hw : ∀ id, m.wires.takenOn id = n.wires.takenOn id)
    (hl : ∀ id l, m.links.get? id = some l → n.links.get? id = some l)
    (hn : m.nextLink = n.nextLink := by rfl) : m.Says P kinds where
  count := hn.trans h.count
  links id l hlink := h.links id l (hl id l hlink)
  said id f hf := h.said id f (hw id ▸ hf)
  kept id l f hlink hf := h.kept id l f (hl id l hlink) hf

/-- Links took frames that may be said on them. -/
theorem grow (h : n.Says P kinds)
    (hw : ∀ id, ∃ fs, m.wires.takenOn id = n.wires.takenOn id ++ fs ∧
      ∀ f ∈ fs, ∃ l, n.links.get? id = some l ∧ f.Allowed P l.kind)
    (hl : ∀ id l, m.links.get? id = some l → ∃ l', n.links.get? id = some l' ∧ l'.kind = l.kind ∧
      ∀ f, some f ∈ l.order.window → some f ∈ l'.order.window ∨ f.Allowed P l.kind)
    (hn : m.nextLink = n.nextLink := by rfl) : m.Says P kinds where
  count := hn.trans h.count
  links id l hlink := by
    obtain ⟨l', hl', hkind, -⟩ := hl id l hlink
    rw [h.links id l' hl', hkind]
  said id f hf := by
    obtain ⟨fs, htaken, hfs⟩ := hw id
    rw [htaken] at hf
    rcases List.mem_append.1 hf with hf | hf
    · exact h.said id f hf
    · obtain ⟨l, hlink, hallowed⟩ := hfs f hf
      exact ⟨l.kind, h.links id l hlink, hallowed⟩
  kept id l f hlink hf := by
    obtain ⟨l', hl', hkind, hkept⟩ := hl id l hlink
    rcases hkept f hf with hf | hf
    · exact hkind ▸ h.kept id l' f hl' hf
    · exact hf

variable [Outbound σ]

theorem detach (h : n.Says P kinds) (id : LinkId) : (n.detach id).1.Says P kinds := by
  refine h.same (Node.Told.takenOn_detach n id) (fun k l hl => ?_) (nextLink_detach n id)
  rw [links_detach] at hl
  split at hl
  · cases hl
  · exact hl

/-- A frame is offered to a link, on which it may be said. -/
theorem send (h : n.Says P kinds) (hc : Phase.Coherent ⟨n, [], []⟩) {id : LinkId} {l : Link}
    {f : Frame} {wires : Recorded σ} {fault : Option Fault} (hl : n.links.get? id = some l)
    (hw : l.send n.wires f = (wires, fault)) (hf : f.Allowed P l.kind)
    (hml : m.links = n.links := by rfl) (hmw : m.wires = wires := by rfl)
    (hn : m.nextLink = n.nextLink := by rfl) : m.Says P kinds := by
  obtain ⟨rfl, -⟩ := hc.links id l hl
  refine h.grow (fun k => ⟨_, hmw ▸ Recorded.takenOn_send hw k, ?_⟩) (fun k l' hl' => ?_) hn
  · intro f' hf'
    split at hf'
    · rename_i hid
      rw [List.mem_singleton.1 hf']
      exact ⟨l, hid.1 ▸ hl, hf⟩
    · cases hf'
  · exact ⟨l', hml ▸ hl', rfl, fun _ => .inl⟩

omit [Outbound σ] in
theorem reserve (h : n.Says P kinds) {id : LinkId} {l : Link} (hl : n.links.get? id = some l) :
    (n.reserve id l).Says P kinds := by
  refine h.grow (fun k => ⟨[], (List.append_nil _).symm, nofun⟩)
    fun k l' hl' => ?_
  replace hl' : (n.links.modify id fun _ => l.reserve.1).get? k = some l' := hl'
  rw [Table.get?_replace hl] at hl'
  split at hl'
  · rename_i hk
    cases hl'
    refine ⟨l, hk ▸ hl, rfl, fun f hf => .inl ?_⟩
    exact (List.mem_append.1 hf).resolve_right (by simp)
  · exact ⟨l', hl', rfl, fun _ => .inl⟩

/-- A reply is handed over. -/
theorem fulfil (h : n.Says P kinds) {r : LinkId × Nat} {m : Message} {told : Node (Recorded σ)}
    {refused : Option LinkId} (hf : n.fulfil (some r) m = (told, refused)) (hm : P .client m)
    (hr : ∀ l, n.links.get? r.1 = some l → l.id = r.1 ∧ l.kind = .client) :
    told.Says P kinds := by
  have key : ∀ {q : Node (Recorded σ) × Option LinkId}, n.Fulfilled r.1 r.2 m q →
      q.1.Says P kinds := by
    intro q hq
    cases hq with
    | gone => exact h
    | stray hl =>
      refine h.same (fun _ => rfl) fun k l' hl' => ?_
      rw [Table.get?_replace hl] at hl'
      split at hl'
      · rename_i hk
        rw [hk, ← hl']
        exact hl
      · exact hl'
    | @kept l order wires fault hl ho hfill hw =>
      obtain ⟨hid, hkind⟩ := hr l hl
      have hallowed : ∀ f, some f ∈ order.window → some f ∈ l.order.window ∨ f.Allowed P .client :=
        fun f hf => (ReplyOrder.mem_fill? hfill hf).imp_right fun hnew => ⟨m, hnew, hm⟩
      obtain ⟨count, -, htaken⟩ := Recorded.takenOn_sendAll hw
      refine h.grow (fun k => ⟨_, htaken k, ?_⟩) (fun k l' hl' => ?_)
      · intro f hf
        split at hf
        · rename_i hk
          refine ⟨l, (hk.symm.trans hid) ▸ hl, ?_⟩
          rcases hallowed f (ReplyOrder.mem_of_ready (List.mem_of_mem_take hf)) with hf | hf
          · exact h.kept r.1 l f hl hf
          · exact hkind ▸ hf
        · cases hf
      · replace hl' : (n.links.modify r.1 fun _ =>
          { l with order := order.release.1 }).get? k = some l' := hl'
        rw [Table.get?_replace hl] at hl'
        split at hl'
        · rename_i hk
          cases hl'
          exact ⟨l, hk ▸ hl, rfl, fun f hf => hkind ▸ hallowed f (List.mem_of_mem_drop hf)⟩
        · exact ⟨l', hl', rfl, fun _ => .inl⟩
  have hq := key (n.fulfil_cases r.1 r.2 m)
  rw [hf] at hq
  exact hq

omit [Outbound σ] in
/-- A link comes up; its reply order is empty, and nothing was said on it. -/
theorem join (h : n.Says P kinds) (kind : LinkKind) (peers : Table ShardId LinkId) :
    (n.join kind peers).Says P (kinds ++ [kind]) where
  count := by
    rw [List.length_append, ← h.count]
    rfl
  links id l hl := by
    rw [links_join] at hl
    split at hl
    · rename_i hid
      cases hl
      simp [hid, h.count]
    · have hl := h.links id l hl
      rwa [List.getElem?_append_left (List.getElem?_eq_some_iff.1 hl).1]
  said id f hf := by
    obtain ⟨k, hk, hallowed⟩ := h.said id f hf
    refine ⟨k, ?_, hallowed⟩
    rwa [List.getElem?_append_left (List.getElem?_eq_some_iff.1 hk).1]
  kept id l f hl hf := by
    rw [links_join] at hl
    split at hl
    · cases hl
      cases hf
    · exact h.kept id l f hl hf

end Node.Says

variable [Outbound σ] {P : LinkKind → Message → Prop} {kinds : List LinkKind}

namespace Phase.Says

variable {n : Node (Recorded σ)}

omit [Outbound σ] in
/-- Nothing is on its way. -/
theorem still {lost : List (Tag × String)} (h : n.Says P kinds) :
    Phase.Says P kinds ⟨n, lost, []⟩ :=
  ⟨h, nofun⟩

theorem move {p q : Phase (Recorded σ)} (hm : p.Move q) (hc : p.Coherent) (hmt : p.Matched)
    (hfail : ∀ text, P .client (Message.failure text)) (h : p.Says P kinds) :
    q.Says P kinds := by
  have htold : ∀ {n told : Node (Recorded σ)} {r m lost held refused},
      p = ⟨n, lost, (r, m) :: held⟩ → n.fulfil (some r) m = (told, refused) →
      told.Says P kinds := by
    rintro n told r m lost held refused rfl hf
    refine h.node.fulfil hf (h.held r m List.mem_cons_self) fun l hl => ?_
    obtain ⟨hid, -⟩ := hc.links r.1 l hl
    -- A reply on its way is owed by a client's link.
    obtain ⟨l', hl', hkind, -⟩ := (hmt.held (r := r) List.mem_cons_self).1.resolve_left
      fun hnone => Option.some_ne_none _ (hl.symm.trans hnone)
    cases hl.symm.trans hl'
    exact ⟨hid, hkind⟩
  cases hm with
  | skip => exact ⟨h.node, h.held⟩
  | @release n tag text lost held o ho =>
    refine ⟨h.node.same (fun _ => ?_) (fun id l hl => ?_) (Node.nextLink_release n tag),
      fun r m hin => ?_⟩
    · rw [Node.wires_release]
    · rwa [Node.links_release] at hl
    · rcases List.mem_append.1 hin with hin | hin
      · rw [(PendingRequest.mem_replies.1 hin).2]
        exact hfail text
      · exact h.held r m hin
  | @tell n told r m lost held hf =>
    exact ⟨htold rfl hf, fun r' m' hin => h.held r' m' (List.mem_cons_of_mem _ hin)⟩
  | @refuse n told r m lost held id hf =>
    exact ⟨(htold rfl hf).detach id, fun r' m' hin => h.held r' m' (List.mem_cons_of_mem _ hin)⟩

/-- A link comes up, and the one whose place it takes goes. -/
theorem enter (h : n.Says P kinds) (kind : LinkKind) :
    (n.enter kind).1.Says P (kinds ++ [kind]) := by
  have key : ∀ {q : Node (Recorded σ) × List (Tag × String)}, n.Entered kind q →
      q.1.Says P (kinds ++ [kind]) := by
    intro q hq
    cases hq with
    | plain | alone => exact h.join _ _
    | instead => exact (h.join _ _).detach _
  exact key (n.enter_cases kind)

/-- A slot is reserved, and a request that may be said is offered to the link to a shard. -/
theorem offer (h : n.Says P kinds) (hc : Phase.Coherent ⟨n, [], []⟩) {link target : LinkId}
    {l : Link} {shard : ShardId} {m : Message} {wires : Recorded σ} {fault : Option Fault}
    (hl : n.links.get? link = some l) (ht : n.peers.get? shard = some target)
    (hw : (n.reserve link l).offerTo target shard (Frame.ofMessage m) = (wires, fault))
    (hP : P (.dialed shard) m) : Node.Says P kinds { n.reserve link l with wires } := by
  have hcr := hc.reserve hl
  obtain ⟨l', hl', hkind⟩ := Node.kind?_eq_some.1 ((hcr.peers shard target).1 ht)
  unfold Node.offerTo at hw
  rw [hl'] at hw
  exact (h.reserve hl).send hcr hl' hw ⟨m, rfl, hkind ▸ hP⟩

/-- An action that brings no link up opens with what may be said. -/
theorem opens {a : Action (Recorded σ)} {p : Phase (Recorded σ)} (ho : n.Opens a p)
    (hc : Phase.Coherent ⟨n, [], []⟩) (hv : n.Voices P a)
    (hf : ∀ f, a = .rewire f → ∀ w id, (f w).takenOn id = w.takenOn id)
    (hk : a.kind? = none) (h : n.Says P kinds) : p.Says P kinds := by
  cases ho with
  | elapse => exact still (h.same (fun _ => rfl) fun _ _ hl => hl)
  | rewire f => exact still (h.same (fun id => hf f rfl n.wires id) fun _ _ hl => hl)
  | enter kind => cases hk
  | expire => exact still h
  | close id => exact still (h.detach id)
  | trail => exact still h
  | @answer id m reply l store wires hl hd hw =>
    exact still (h.send hc hl hw ⟨reply, rfl, hv.answer rfl hl hd⟩)
  | @choke id m reply l store wires fault hl hd hw =>
    have hs : Node.Says P kinds { n with store, wires } :=
      h.send hc hl hw ⟨reply, rfl, hv.answer rfl hl hd⟩
    exact still (hs.detach id)
  | @forward id m l shard request target tags tag wires hl hd ht hg hw =>
    exact still ((offer h hc hl ht hw (hv.forward rfl hl hd tag)).same (fun _ => rfl)
      fun _ _ hl => hl)
  | @refuse id m l shard request fault hl hd =>
    refine ⟨h.reserve hl, fun r m hin => ?_⟩
    cases List.mem_singleton.1 hin
    exact hv.failure _
  | @sever id m l shard request target tag wires fault hl hd ht hw =>
    refine ⟨(offer h hc hl ht hw (hv.forward rfl hl hd tag)).detach target, fun r m hin => ?_⟩
    cases List.mem_singleton.1 hin
    exact hv.failure _
  | orphan => exact still (h.same (fun _ => rfl) fun _ _ hl => hl)
  | @settle id m reply l tag store o hl hd hso =>
    refine ⟨h.same (fun _ => ?_) (fun k l' hl' => ?_) (Node.nextLink_release _ _),
      fun r m' hin => ?_⟩
    · rw [Node.wires_release]
    · rwa [Node.links_release] at hl'
    · rw [(PendingRequest.mem_replies.1 hin).2]
      exact hv.settle rfl hl hd

end Phase.Says

/-- An action whose answers, requests and replies may be said leaves nothing else on the
    links. -/
theorem Node.Says.act {n : Node (Recorded σ)} {a : Action (Recorded σ)} (h : n.Says P kinds)
    (ha : n.admits a = true) (hc : Phase.Coherent ⟨n, [], []⟩) (hm : Phase.Matched ⟨n, [], []⟩)
    (hv : n.Voices P a) (hf : ∀ f, a = .rewire f → ∀ w id, (f w).takenOn id = w.takenOn id) :
    (n.act a).Says P (kinds ++ a.kind?.toList) := by
  obtain ⟨p, ho, hmoves⟩ := n.act_opens a
  have hp : p.Says P (kinds ++ a.kind?.toList) := by
    cases hk : a.kind? with
    | none => simpa using Phase.Says.opens ho hc hv hf hk h
    | some kind =>
      cases ho with
      | enter =>
        cases hk
        exact .still (Phase.Says.enter h kind)
      | elapse | rewire | expire | close | trail | answer | choke | forward | refuse | sever
      | orphan | settle => cases hk
  have step : ∀ {p q : Phase (Recorded σ)}, p.Move q → p.Coherent → p.Matched →
      p.Says P (kinds ++ a.kind?.toList) → q.Says P (kinds ++ a.kind?.toList) :=
    fun hmove hc hm hs => hs.move hmove hc hm hv.failure
  exact ((hm.opens ho ha hc).moves step hmoves (hc.opens ho) hp).2.node

omit [Outbound σ] in
theorem Action.kind?_recorded (a : Action σ) : a.recorded.kind? = a.kind? := by
  cases a <;> rfl

omit [Outbound σ] in
/-- Whoever works on the wires leaves the record as it is. -/
theorem Action.takenOn_recorded {a : Action σ} {f : Recorded σ → Recorded σ}
    (h : a.recorded = .rewire f) (w : Recorded σ) (id : LinkId) :
    (f w).takenOn id = w.takenOn id := by
  cases a with
  | rewire g =>
    cases h
    rfl
  | attach | event | expire | elapse => cases h

end Depot
