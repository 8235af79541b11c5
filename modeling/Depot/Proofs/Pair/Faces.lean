/-
  Depot — a node with one link to another node.

  All other links of such a node are clients'.  While no link goes, what its clients bring
  it puts at most one request on the link (`Faces.sends`), what comes in on the link puts
  at most one answer there (`Faces.answers`) or ends one request (`Faces.settles`).
-/
import Depot.Proofs.Node.Said
import Depot.Proofs.Pair.Relay

namespace Depot

variable {σ : Type u}

/-- A request that left, as a frame. -/
def Asked.frame (e : Tag × Asked) : Frame := Frame.ofMessage (.peer e.1 e.2.request)

/-- The action is one of clients, or of nobody. -/
structure Action.Own (a : Action (Recorded σ)) : Prop where
  quiet : a.isQuiet = true
  attach : ∀ kind, a = .attach kind → kind = .client
  message : ∀ id m, a = .event (.message id m) → m.hop = .client ∧ m.Encodable
  rewire : ∀ f, a = .rewire f → ∀ w id, (f w).takenOn id = w.takenOn id

theorem Pair.own_recorded {a : Action σ} (h : isOwn a = true) : a.recorded.Own where
  quiet := by
    cases a with
    | attach kind => cases kind <;> trivial
    | event e => cases e <;> trivial
    | expire => cases h
    | elapse | rewire => rfl
  attach kind hk := by
    cases a with
    | attach kind' =>
      cases hk
      cases kind with
      | client => rfl
      | dialed | accepted => cases h
    | event | expire | elapse | rewire => cases hk
  message id m hm := by
    cases a with
    | event e =>
      cases hm
      exact of_decide_eq_true h
    | attach | expire | elapse | rewire => cases hm
  rewire f hf := Action.takenOn_recorded hf

namespace Node

/-! ## Links that are there -/

theorem lt_nextLink {n : Node σ} (hc : Phase.Coherent ⟨n, [], []⟩) {id : LinkId}
    (h : n.kind? id ≠ none) : id < n.nextLink := by
  obtain ⟨l, hl⟩ := Option.ne_none_iff_exists'.1 (kind?_ne_none.1 h)
  exact (hc.links id l hl).2.2

/-- The tables of the node agree, and all its links but this one are clients'. -/
structure Faces (n : Node σ) (k : LinkId) (kind : LinkKind) : Prop where
  coherent : Phase.Coherent ⟨n, [], []⟩
  matched : Phase.Matched ⟨n, [], []⟩
  link : n.kind? k = some kind
  rest : ∀ id kind', n.kind? id = some kind' → id ≠ k → kind' = .client

theorem Faces.admits {n : Node σ} {k : LinkId} {kind : LinkKind} (h : n.Faces k kind) {m : Message}
    (hop : m.hop = kind.hop) : n.admits (.event (.message k m)) = true := by
  obtain ⟨l, hl, rfl⟩ := kind?_eq_some.1 h.link
  simp [Node.admits, hl, hop]

section

variable [Outbound σ] {n : Node σ} {a : Action σ}

theorem Whole.before (h : (n.act a).Whole) : n.Whole := by
  intro id hid
  obtain ⟨kind, hk⟩ := Option.ne_none_iff_exists'.1
    (h id (Nat.lt_of_lt_of_le hid (n.nextLink_act a).1))
  rcases kind?_act hk with hk | ⟨-, rfl⟩
  · rw [hk]
    exact Option.some_ne_none kind
  · exact (Nat.lt_irrefl _ hid).elim

/-- A link that was there is there. -/
theorem Whole.stays (h : (n.act a).Whole) (hc : Phase.Coherent ⟨n, [], []⟩) {id : LinkId}
    (hid : n.kind? id ≠ none) : (n.act a).kind? id ≠ none :=
  h id (Nat.lt_of_lt_of_le (lt_nextLink hc hid) (n.nextLink_act a).1)

theorem Whole.calm (h : (n.act a).Whole) (hc : Phase.Coherent ⟨n, [], []⟩)
    (ha : a.isQuiet = true) : n.Calm a (n.act a) :=
  act_calm hc ha fun _ => h.stays hc

theorem Faces.act {k : LinkId} {kind : LinkKind} (h : n.Faces k kind) (ha : n.admits a = true)
    (hattach : ∀ kind', a = .attach kind' → kind' = .client) (hw : (n.act a).Whole) :
    (n.act a).Faces k kind where
  coherent := h.coherent.act a
  matched := h.matched.act ha h.coherent
  link := by
    have hthere : n.kind? k ≠ none := h.link ▸ Option.some_ne_none kind
    obtain ⟨kind', hk⟩ := Option.ne_none_iff_exists'.1 (hw.stays h.coherent hthere)
    rcases kind?_act hk with hk' | ⟨-, rfl⟩
    · rw [hk, ← hk', h.link]
    · exact (Nat.lt_irrefl _ (lt_nextLink h.coherent hthere)).elim
  rest id kind' hk hid := by
    rcases kind?_act hk with hk | ⟨rfl, -⟩
    · exact h.rest id kind' hk hid
    · exact hattach kind' rfl

end

/-! ## Requests of clients -/

section

variable [Outbound σ] {n : Node σ} {id : LinkId} {m : Message} {l : Link}

theorem asks?_of_forward {shard : ShardId} {request : PeerBody} (hl : n.links.get? id = some l)
    (hd : duty n.store m = .forward shard request) :
    n.asks? (.event (.message id m)) = some ⟨(id, l.order.next), shard, request, n.tags.outCount,
      ((n.reserve id l).issue (id, l.order.next) shard request).2⟩ := by
  simp only [asks?, hl, duty_eq_forward_iff.1 hd]

theorem asks?_of_answer {store : Store} {reply : Message} (hl : n.links.get? id = some l)
    (hd : duty n.store m = .answer store reply) : n.asks? (.event (.message id m)) = none := by
  have hf : m.forwarded? = none := forwarded?_eq_none (s := n.store) (by simp [hd])
  simp only [asks?, hl, hf]

theorem asks?_of_none (hl : n.links.get? id = none) :
    n.asks? (.event (.message id m)) = none := by
  simp only [asks?, hl]

end

/-- An action puts a request on the link, under a tag under which nothing waited, and waits for
    the reply; or nothing of that. -/
structure Sends (n n' : Node (Recorded σ)) (k : LinkId) (sent : Option (Tag × Asked)) : Prop where
  taken : n'.wires.takenOn k = n.wires.takenOn k ++ (sent.map Asked.frame).toList
  capacity : n'.tags.capacity = n.tags.capacity
  keeps : sent = none → n'.waiting = n.waiting ∧ n'.tags = n.tags
  adds : ∀ tag q, sent = some (tag, q) → n.waiting.get? tag = none ∧
    ∃ deadline, n'.waiting = n.waiting.insert tag ⟨some q.requester, k, deadline⟩

namespace Sends

variable {n n' : Node (Recorded σ)} {k : LinkId}

theorem nothing (htaken : n'.wires.takenOn k = n.wires.takenOn k)
    (hw : n'.waiting = n.waiting := by rfl) (ht : n'.tags = n.tags := by rfl) :
    n.Sends n' k none where
  taken := htaken.trans (List.append_nil _).symm
  capacity := congrArg TagPool.capacity ht
  keeps _ := ⟨hw, ht⟩
  adds := nofun

end Sends

variable [Outbound σ] {n n' : Node (Recorded σ)} {k : LinkId} {kind : LinkKind}
  {a : Action (Recorded σ)}

/-- A reply to a client leaves other links alone. -/
theorem takenOn_fulfil {r : LinkId × Nat} {m : Message} {told : Node (Recorded σ)}
    {refused : Option LinkId} (h : n.fulfil (some r) m = (told, refused))
    (hlid : ∀ l, n.links.get? r.1 = some l → l.id = r.1) (hk : k ≠ r.1) :
    told.wires.takenOn k = n.wires.takenOn k := by
  have key : ∀ {q : Node (Recorded σ) × Option LinkId}, n.Fulfilled r.1 r.2 m q →
      q.1.wires.takenOn k = n.wires.takenOn k := by
    intro q hq
    cases hq with
    | gone | stray => rfl
    | @kept l order wires fault hl ho hf hw =>
      obtain ⟨count, -, htaken⟩ := Recorded.takenOn_sendAll hw
      replace htaken := htaken k
      rwa [hlid l hl, if_neg (Ne.symm hk), List.append_nil] at htaken
  have hq := key (n.fulfil_cases r.1 r.2 m)
  rwa [h] at hq

namespace Faces

omit [Outbound σ] in
/-- A client's link is not the one to the other node. -/
theorem client_ne (h : n.Faces k kind) (hkind : kind ≠ .client) (ho : a.Own)
    (ha : n.admits a = true) {id : LinkId} {m : Message} {l : Link}
    (heq : a = .event (.message id m)) (hl : n.links.get? id = some l) : id ≠ k := by
  rintro rfl
  have hop : m.hop = l.kind.hop := by
    subst heq
    simpa [Node.admits, hl] using ha
  rw [(ho.message id m heq).1] at hop
  obtain ⟨l', hl', rfl⟩ := kind?_eq_some.1 h.link
  cases hl.symm.trans hl'
  cases hk : l.kind with
  | client => exact hkind hk
  | dialed | accepted => rw [hk] at hop; cases hop

theorem sends (h : n.Faces k kind) (hkind : kind ≠ .client) (ho : a.Own) (ha : n.admits a = true)
    (hc : n.Calm a n') : n.Sends n' k ((n.asks? a).bind Asked.left?) := by
  cases hc with
  | elapse => exact .nothing rfl
  | rewire f => exact .nothing (ho.rewire f rfl n.wires k)
  | enter => exact .nothing rfl
  | trail hl =>
    rw [asks?_of_none hl]
    exact .nothing rfl
  | @answer id m reply l store wires hl hd hw =>
    have hne := h.client_ne hkind ho ha rfl hl
    have htaken := Recorded.takenOn_send hw k
    rw [(h.coherent.links id l hl).1, if_neg fun hc => hne hc.1, List.append_nil] at htaken
    rw [asks?_of_answer hl hd]
    exact .nothing htaken
  | @forward id m l shard request target tags tag wires hl hd ht hg hw hf =>
    rw [asks?_of_forward hl hd, hf]
    -- The request leaves on the one link that is not a client's.
    have htarget := (h.coherent.peers shard target).1 ht
    obtain rfl : target = k := by
      by_contra hne
      cases h.rest target _ htarget hne
    have hcr := h.coherent.reserve hl
    obtain ⟨l', hl', -⟩ := kind?_eq_some.1 ((hcr.peers shard target).1 ht)
    unfold offerTo at hw
    rw [hl'] at hw
    have htaken := Recorded.takenOn_send hw target
    rw [if_pos ⟨(hcr.links target l' hl').1, rfl⟩] at htaken
    have hfree : n.waiting.get? tag = none := by
      have hout := h.coherent.tags tag
      rw [show n.tags.isOut tag = false from (TagPool.draw_spec hg).1] at hout
      simpa [Table.contains] using hout.symm
    refine ⟨htaken, TagPool.capacity_draw hg, fun hnone => absurd hnone (Option.some_ne_none _),
      fun tag' q hq => ?_⟩
    cases hq
    exact ⟨hfree, _, rfl⟩
  | @refuse id m l shard request fault told hl hd hf hn ht =>
    rw [asks?_of_forward hl hd, hf]
    have hne := h.client_ne hkind ho ha rfl hl
    have hcr := h.coherent.reserve hl
    have halike := fulfil_alike ht
    refine .nothing ?_ halike.waiting halike.tags
    exact takenOn_fulfil (n := n.reserve id l) ht (fun l' hl' => (hcr.links id l' hl').1)
      (Ne.symm hne)
  | @orphan id m reply l tag store hl hd | @settle id m reply l tag store o told hl hd =>
    exact (duty_client (ho.message id m rfl).1 hd).elim

/-- A client's request to the shard at the end of the link leaves, unless all tags are out. -/
theorem asks {shard : ShardId} (h : n.Faces k (.dialed shard)) (ho : a.Own)
    (ha : n.admits a = true) (hc : n.Calm a n') {q : Asked} (hq : n.asks? a = some q) :
    q.request.Asks ∧ q.requester.1 ≠ k ∧
      (∃ l, n.links.get? q.requester.1 = some l ∧ q.requester.2 = l.order.next) ∧
      (q.shard = shard → (∃ tag, q.sent = .ok tag) ∨
        n.tags.capacity ≤ q.out ∧ q.sent = .error (.tag (.exhausted n.tags.capacity))) := by
  cases hc with
  | elapse | rewire | enter => cases hq
  | trail hl => cases (asks?_of_none hl).symm.trans hq
  | answer hl hd => cases (asks?_of_answer hl hd).symm.trans hq
  | @forward id m l shard' request target tags tag wires hl hd ht hg hw hf =>
    cases (asks?_of_forward hl hd).symm.trans hq
    refine ⟨asks_of_forward (ho.message id m rfl).2 hd, h.client_ne nofun ho ha rfl hl,
      ⟨l, hl, rfl⟩, fun _ => .inl ⟨tag, hf⟩⟩
  | @refuse id m l shard' request fault told hl hd hf hn ht =>
    cases (asks?_of_forward hl hd).symm.trans hq
    refine ⟨asks_of_forward (ho.message id m rfl).2 hd, h.client_ne nofun ho ha rfl hl,
      ⟨l, hl, rfl⟩, fun hs => .inr ?_⟩
    obtain rfl : shard' = shard := hs
    have hpeer := (h.coherent.peers shard' k).2 h.link
    obtain ⟨e, he⟩ := hn.resolve_left fun hnone => Option.some_ne_none _ (hpeer.symm.trans hnone)
    obtain ⟨rfl, hout⟩ := TagPool.draw_error he
    refine ⟨hout, ?_⟩
    show ((n.reserve id l).issue (id, l.order.next) shard' request).2 = _
    simp only [issue, show (n.reserve id l).peers.get? shard' = some k from hpeer,
      show (n.reserve id l).tags.draw = .error _ from he]
  | @orphan id m reply l tag store hl hd | @settle id m reply l tag store o told hl hd =>
    exact (duty_client (ho.message id m rfl).1 hd).elim

/-- While no link goes, what clients bring resolves no request but one that cannot leave. -/
theorem resolves (h : n.Faces k kind) (ho : a.Own) (hw : (n.act a).Whole) {r : LinkId × Nat}
    {m : Message} (hr : n.Resolves a r m) : ∃ q fault, n.asks? a = some q ∧ q.requester = r ∧
      q.sent = .error fault ∧ m = Message.failure fault.message := by
  cases hr with
  | answered ha hd =>
    obtain ⟨store, hd⟩ := duty_settles_iff.2 hd
    exact (duty_client (ho.message _ _ ha).1 hd).elim
  | expired ha =>
    cases ha
    cases ho.quiet
  | @lost tag o shard hwait hreq hkind hgone =>
    exact (hw.stays h.coherent (hkind ▸ Option.some_ne_none _) hgone).elim
  | @refused m' l shard request fault ha hl hs hd hf =>
    subst ha
    obtain ⟨id, slot⟩ := r
    obtain rfl : slot = l.order.next := hs
    exact ⟨_, fault, asks?_of_forward hl (duty_eq_forward_iff.2 hd), rfl, hf, rfl⟩

/-! ## What comes in on the link -/

/-- A request that comes in on the link is answered there. -/
theorem answers (h : n.Faces k kind) {m reply : Message} {store : Store}
    (hd : duty n.store m = .answer store reply)
    (hc : n.Calm (.event (.message k m)) n') :
    n'.store = store ∧ n'.tags = n.tags ∧
      n'.wires.takenOn k = n.wires.takenOn k ++ [Frame.ofMessage reply] := by
  obtain ⟨l, hl, -⟩ := kind?_eq_some.1 h.link
  cases hc with
  | trail hl' => cases hl.symm.trans hl'
  | @answer id m' reply' l' store' wires hl' hd' hw =>
    cases hd.symm.trans hd'
    have htaken := Recorded.takenOn_send hw k
    rw [if_pos ⟨(h.coherent.links k l' hl').1, rfl⟩] at htaken
    exact ⟨rfl, rfl, htaken⟩
  | forward hl' hd' | refuse hl' hd' | orphan hl' hd' | settle hl' hd' =>
    cases hd.symm.trans hd'

/-- A reply that comes in on the link ends the request that waits for it. -/
theorem settles (h : n.Faces k kind) (hkind : kind ≠ .client) {m reply : Message} {tag : Tag}
    {store : Store} {r : LinkId × Nat} {deadline : Nat}
    (hd : duty n.store m = .settle tag store reply)
    (hwait : n.waiting.get? tag = some ⟨some r, k, deadline⟩)
    (hc : n.Calm (.event (.message k m)) n') :
    n'.store = store ∧ n'.waiting = n.waiting.erase tag ∧ n'.tags.capacity = n.tags.capacity ∧
      n'.wires.takenOn k = n.wires.takenOn k := by
  obtain ⟨l, hl, -⟩ := kind?_eq_some.1 h.link
  have hanswered : n.answered? k tag = some ⟨some r, k, deadline⟩ := by
    rw [answered?, hwait]
    simp
  cases hc with
  | trail hl' => cases hl.symm.trans hl'
  | answer hl' hd' | forward hl' hd' | refuse hl' hd' => cases hd.symm.trans hd'
  | orphan hl' hd' ho =>
    cases hd.symm.trans hd'
    cases hanswered.symm.trans ho
  | @settle id m' reply' l' tag' store' o told hl' hd' ho ht =>
    cases hd.symm.trans hd'
    cases hanswered.symm.trans ho
    have halike := fulfil_alike ht
    obtain ⟨lr, hlr, hclient, -⟩ := h.matched.owes ⟨_, hwait, rfl⟩
    have hne : k ≠ r.1 := by
      rintro rfl
      exact hkind (Option.some.inj (h.link.symm.trans (kind?_eq_some.2 ⟨lr, hlr, hclient⟩)))
    refine ⟨(store_fulfil ht).trans (store_release _ _), ?_, ?_, ?_⟩
    · rw [halike.waiting, waiting_release]
    · rw [halike.tags, capacity_release]
    · rw [takenOn_fulfil ht (fun l'' hl'' => ?_) hne, wires_release]
      rw [links_release] at hl''
      exact (h.coherent.links r.1 l'' hl'').1

omit [Outbound σ] in
/-- A node that dialed no other waits for nothing. -/
theorem waiting_accepted (h : n.Faces k .accepted) (tag : Tag) : n.waiting.get? tag = none := by
  cases ho : n.waiting.get? tag with
  | none => rfl
  | some o =>
    obtain ⟨shard, hkind⟩ := h.coherent.node.targets tag o ho
    by_cases htarget : o.target = k
    · rw [htarget, h.link] at hkind
      cases hkind
    · cases h.rest _ _ hkind htarget

/-- So what its clients bring leaves its pool alone, and the link. -/
theorem silent (h : n.Faces k .accepted) (h' : n'.Faces k .accepted) (ho : a.Own)
    (ha : n.admits a = true) (hc : n.Calm a n') :
    n'.tags = n.tags ∧ n'.wires.takenOn k = n.wires.takenOn k := by
  have hs := h.sends nofun ho ha hc
  have hnone : (n.asks? a).bind Asked.left? = none := by
    cases hsent : (n.asks? a).bind Asked.left? with
    | none => rfl
    | some e =>
      obtain ⟨-, deadline, hw⟩ := hs.adds e.1 e.2 hsent
      have hget := h'.waiting_accepted e.1
      rw [hw, Table.get?_insert, if_pos rfl] at hget
      cases hget
  have htaken := hs.taken
  rw [hnone] at htaken
  exact ⟨(hs.keeps hnone).2, htaken.trans (List.append_nil _)⟩

end Faces

end Node

end Depot
