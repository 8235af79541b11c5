/-
  Depot — every request of a client gets one reply, in order.

  The frames that a client's link takes are made of two lists, each in order: the
  replies to its first direct requests, and the replies to its first forwarded
  requests, none left out.  While the link is there, what it took and what it is
  owed together are as many as its requests (`run_replies`).

  Frames are seen on wires that remember what they took; by `run_recorded` a node
  goes through the same on these as on any others.
-/
import Depot.Proofs.Node.History
import Depot.Proofs.Node.Recorded

namespace Depot

variable {σ : Type u}

/-! ## What wires took -/

namespace Recorded

theorem takenOn_append (w : Recorded σ) (wires : σ) (link id : LinkId) (f : Frame) :
    takenOn { wires, taken := w.taken ++ [(link, f)] } id =
      w.takenOn id ++ if link = id then [f] else [] := by
  unfold takenOn
  rw [List.filter_append, List.map_append]
  by_cases h : link = id <;> simp [h]

variable [Outbound σ]

/-- A frame is taken if the link has no fault to find. -/
theorem takenOn_send {l : Link} {w w' : Recorded σ} {f : Frame} {fault : Option Fault}
    (h : l.send w f = (w', fault)) (id : LinkId) :
    w'.takenOn id = w.takenOn id ++ if l.id = id ∧ fault = none then [f] else [] := by
  unfold Link.send at h
  split at h
  · obtain ⟨⟨wires, offer⟩, ho⟩ : ∃ o, Outbound.offer w.wires l.id f = o := ⟨_, rfl⟩
    replace h : ((w.note l.id f (Outbound.offer w.wires l.id f)).1,
      (w.note l.id f (Outbound.offer w.wires l.id f)).2.fault?) = (w', fault) := h
    rw [ho] at h
    cases offer with
    | taken =>
      cases h
      show takenOn { wires, taken := w.taken ++ [(l.id, f)] } id = _
      rw [takenOn_append]
      simp [note, Offer.fault?]
    | full pending | gone =>
      cases h
      rw [if_neg (by simp [note, Offer.fault?]), List.append_nil]
      rfl
  · cases h
    rw [if_neg (by simp), List.append_nil]

/-- Of several frames a front part is taken, all of them if there is no fault. -/
theorem takenOn_sendAll {l : Link} {w w' : Recorded σ} {fs : List Frame} {fault : Option Fault}
    (h : l.sendAll w fs = (w', fault)) :
    ∃ count, (fault = none → fs.length ≤ count) ∧
      ∀ id, w'.takenOn id = w.takenOn id ++ if l.id = id then fs.take count else [] := by
  induction fs generalizing w with
  | nil =>
    cases h
    exact ⟨0, fun _ => Nat.le_refl _, fun id => by simp⟩
  | cons f fs ih =>
    unfold Link.sendAll at h
    obtain ⟨⟨w₁, fault₁⟩, hs⟩ : ∃ s, l.send w f = s := ⟨_, rfl⟩
    rw [hs] at h
    cases fault₁ with
    | some fault₁ =>
      cases h
      refine ⟨0, fun hf => absurd hf (Option.some_ne_none _), fun id => ?_⟩
      rw [takenOn_send hs, if_neg (by simp)]
      simp
    | none =>
      obtain ⟨count, hcount, htaken⟩ := ih h
      refine ⟨count + 1, fun hf => Nat.succ_le_succ (hcount hf), fun id => ?_⟩
      rw [htaken, takenOn_send hs, List.append_assoc]
      by_cases hid : l.id = id <;> simp [hid]

end Recorded

/-! ## The account of a link -/

/-- The frames that a link took are `direct` replies, of which there are to be as
    many as in `all`, and replies to forwarded requests, of which there are
    `asked`; those that wait in the reply order come next. -/
structure Node.Told (id : LinkId) (all : List Message) (asked : Nat)
    (R : LinkId × Nat → Message → Prop) (direct forwarded : List Message)
    (n : Node (Recorded σ)) : Prop where
  taken : Interleaves (direct.map Frame.ofMessage) (forwarded.map Frame.ofMessage)
    (n.wires.takenOn id)
  first : direct <+: all
  bound : forwarded.length ≤ asked
  resolved : ∀ i m, forwarded[i]? = some m → R (id, i) m
  link : ∀ l, n.links.get? id = some l → direct = all ∧ l.order.first = forwarded.length ∧
    l.order.next = asked ∧ ∀ i f, l.order.window[i]? = some (some f) →
      ∃ m, f = Frame.ofMessage m ∧ R (id, l.order.first + i) m

theorem ReplyOrder.ready_eq {P : Nat → Message → Prop} {w : List (Option Frame)}
    (h : ∀ i f, w[i]? = some (some f) → ∃ m, f = Frame.ofMessage m ∧ P i m) :
    ∃ ms : List Message, ready w = ms.map Frame.ofMessage ∧ ∀ i m, ms[i]? = some m → P i m := by
  induction w generalizing P with
  | nil => exact ⟨[], rfl, nofun⟩
  | cons x w ih =>
    cases x with
    | none => exact ⟨[], rfl, nofun⟩
    | some f =>
      obtain ⟨m, rfl, hm⟩ := h 0 f rfl
      obtain ⟨ms, hms, hP⟩ := ih (P := fun i => P (i + 1)) fun i f' hf => h (i + 1) f' hf
      refine ⟨m :: ms, by rw [ready, hms, List.map_cons], fun i m' hi => ?_⟩
      cases i with
      | zero =>
        cases hi
        exact hm
      | succ i => exact hP i m' hi

namespace Node.Told

variable {id : LinkId} {all : List Message} {asked : Nat} {R : LinkId × Nat → Message → Prop}
  {direct forwarded : List Message} {n m : Node (Recorded σ)}

theorem mono {R' : LinkId × Nat → Message → Prop} (h : n.Told id all asked R direct forwarded)
    (hR : ∀ {r m}, R r m → R' r m) : n.Told id all asked R' direct forwarded where
  taken := h.taken
  first := h.first
  bound := h.bound
  resolved i m hi := hR (h.resolved i m hi)
  link l hl := by
    obtain ⟨h₁, h₂, h₃, h₄⟩ := h.link l hl
    refine ⟨h₁, h₂, h₃, fun i f hf => ?_⟩
    obtain ⟨m, hm, hr⟩ := h₄ i f hf
    exact ⟨m, hm, hR hr⟩

/-- The link is what it was, or gone. -/
theorem same (h : n.Told id all asked R direct forwarded)
    (hw : m.wires.takenOn id = n.wires.takenOn id)
    (hl : ∀ l, m.links.get? id = some l → n.links.get? id = some l) :
    m.Told id all asked R direct forwarded where
  taken := hw ▸ h.taken
  first := h.first
  bound := h.bound
  resolved := h.resolved
  link l hl' := h.link l (hl l hl')

/-- The link is gone; more may be asked of it. -/
theorem gone {all' : List Message} {asked' : Nat} (h : n.Told id all asked R direct forwarded)
    (hw : m.wires.takenOn id = n.wires.takenOn id) (hl : m.links.get? id = none)
    (ha : all <+: all') (hf : asked ≤ asked') : m.Told id all' asked' R direct forwarded where
  taken := hw ▸ h.taken
  first := h.first.trans ha
  bound := Nat.le_trans h.bound hf
  resolved := h.resolved
  link l hl' := by
    rw [hl] at hl'
    cases hl'

/-- A link takes the reply to a direct request. -/
theorem answer (h : n.Told id all asked R direct forwarded) {link : LinkId} {l : Link}
    {reply : Message} (hl : n.links.get? link = some l) (hm : m.links = n.links)
    (hw : m.wires.takenOn id =
      n.wires.takenOn id ++ if link = id then [Frame.ofMessage reply] else []) :
    ∃ direct', m.Told id (all ++ if link = id then [reply] else []) asked R direct' forwarded := by
  by_cases hid : link = id
  · subst hid
    rw [if_pos rfl] at hw
    rw [if_pos rfl]
    obtain ⟨rfl, -⟩ := h.link l hl
    refine ⟨direct ++ [reply], ?_, List.prefix_rfl, h.bound, h.resolved, fun l' hl' => ?_⟩
    · rw [hw, List.map_append]
      exact h.taken.append_left _
    · exact ⟨rfl, (h.link l' (hm ▸ hl')).2⟩
  · rw [if_neg hid, List.append_nil] at hw
    rw [if_neg hid, List.append_nil]
    exact ⟨direct, h.same hw fun l' hl' => hm ▸ hl'⟩

/-- A link reserves a slot. -/
theorem reserve (h : n.Told id all asked R direct forwarded) {link : LinkId} {l : Link}
    (hl : n.links.get? link = some l) :
    (n.reserve link l).Told id all (asked + if link = id then 1 else 0) R direct forwarded := by
  have hget : ∀ k, (n.reserve link l).links.get? k =
      if k = link then some l.reserve.1 else n.links.get? k := Table.get?_replace hl _
  by_cases hid : link = id
  · subst hid
    rw [if_pos rfl]
    refine ⟨h.taken, h.first, Nat.le_succ_of_le h.bound, h.resolved, fun l' hl' => ?_⟩
    rw [hget, if_pos rfl] at hl'
    cases hl'
    obtain ⟨h₁, h₂, h₃, h₄⟩ := h.link l hl
    have hnext : l.reserve.1.order.next = asked + 1 :=
      (ReplyOrder.next_reserve l.order).trans (congrArg Nat.succ h₃)
    refine ⟨h₁, h₂, hnext, fun i f hi => h₄ i f ?_⟩
    replace hi : (l.order.window ++ [none])[i]? = some (some f) := hi
    rw [List.getElem?_append] at hi
    split at hi
    · exact hi
    · rw [List.getElem?_singleton] at hi
      split at hi <;> cases hi
  · rw [if_neg hid]
    refine h.same rfl fun l' hl' => ?_
    rwa [hget, if_neg (Ne.symm hid)] at hl'

variable [Outbound σ]

theorem takenOn_detach (n : Node (Recorded σ)) (k id : LinkId) :
    (n.detach k).1.wires.takenOn id = n.wires.takenOn id := by
  have key : ∀ {q : Node (Recorded σ) × List (Tag × String)}, n.Detached k q →
      q.1.wires.takenOn id = n.wires.takenOn id := by
    intro q hq
    cases hq <;> rfl
  exact key (n.detach_cases k)

theorem detach (h : n.Told id all asked R direct forwarded) (k : LinkId) :
    (n.detach k).1.Told id all asked R direct forwarded := by
  refine h.same (takenOn_detach n k id) fun l hl => ?_
  rw [links_detach] at hl
  split at hl
  · cases hl
  · exact hl

/-- A link refuses the reply to a direct request, and goes. -/
theorem choke (h : n.Told id all asked R direct forwarded) {link : LinkId} {l : Link}
    {wires : Recorded σ} {reply : Message} {fault : Fault} (store : Store)
    (hw : l.send n.wires (Frame.ofMessage reply) = (wires, some fault)) :
    (Node.detach { n with store, wires } link).1.Told id
      (all ++ if link = id then [reply] else []) asked R direct forwarded := by
  have htaken := Recorded.takenOn_send hw id
  rw [if_neg (by simp), List.append_nil] at htaken
  have hs : Node.Told id all asked R direct forwarded { n with store, wires } :=
    h.same htaken fun _ hl => hl
  by_cases hid : link = id
  · refine (hs.detach link).gone rfl ?_ (List.prefix_append ..) (Nat.le_refl _)
    rw [links_detach, if_pos hid.symm]
  · rw [if_neg hid, List.append_nil]
    exact hs.detach link

omit [Outbound σ] in
/-- Once a reply is kept, what waits are replies to the requests that come next. -/
theorem waits (h : n.Told id all asked R direct forwarded) {l : Link} {slot : Nat} {m : Message}
    {order : ReplyOrder Frame} (hl : n.links.get? id = some l)
    (hf : l.order.fill? slot (Frame.ofMessage m) = some order) (hr : R (id, slot) m) :
    order.first = forwarded.length ∧ order.next = asked ∧
      ∀ i f, order.window[i]? = some (some f) →
        ∃ m, f = Frame.ofMessage m ∧ R (id, forwarded.length + i) m := by
  obtain ⟨-, hfirst, hnext, hwait⟩ := h.link l hl
  have hn := (ReplyOrder.next_fill? hf).trans hnext
  obtain ⟨hle, rfl⟩ := ReplyOrder.fill?_eq hf
  refine ⟨hfirst, hn, fun i f hi => ?_⟩
  rw [List.getElem?_set] at hi
  split at hi
  · split at hi
    · cases hi
      exact ⟨m, rfl, by rwa [show forwarded.length + i = slot by omega]⟩
    · cases hi
  · rw [← hfirst]
    exact hwait i f hi

omit [Outbound σ] in
/-- The link takes replies that come next; all that are in order, if it is still there then. -/
theorem extend (h : n.Told id all asked R direct forwarded) {l : Link} {count : Nat}
    {order : ReplyOrder Frame} {ms : List Message} (hl : n.links.get? id = some l)
    (hfirst : order.first = forwarded.length) (hnext : order.next = asked)
    (hwait : ∀ i f, order.window[i]? = some (some f) →
      ∃ m, f = Frame.ofMessage m ∧ R (id, forwarded.length + i) m)
    (hready : order.release.2 = ms.map Frame.ofMessage)
    (hms : ∀ i m, ms[i]? = some m → R (id, forwarded.length + i) m)
    (hw : m.wires.takenOn id = n.wires.takenOn id ++ (ms.take count).map Frame.ofMessage)
    (hl' : ∀ l', m.links.get? id = some l' → l'.order = order.release.1 ∧ ms.length ≤ count) :
    m.Told id all asked R direct (forwarded ++ ms.take count) where
  taken := by
    rw [hw, List.map_append]
    exact h.taken.append_right _
  first := h.first
  bound := by
    have hlen := order.length_release_le
    rw [hready, List.length_map] at hlen
    unfold ReplyOrder.next at hnext
    rw [List.length_append, List.length_take]
    omega
  resolved i m hi := by
    rw [List.getElem?_append] at hi
    split at hi
    · exact h.resolved i m hi
    · rw [List.getElem?_take] at hi
      split at hi
      · have hin := hms (i - forwarded.length) m hi
        rwa [show forwarded.length + (i - forwarded.length) = i by omega] at hin
      · cases hi
  link l' hl'' := by
    obtain ⟨horder, hcount⟩ := hl' l' hl''
    have hlen : order.release.1.first = (forwarded ++ ms.take count).length := by
      have := congrArg List.length hready
      rw [List.length_map] at this
      rw [List.take_of_length_le hcount, List.length_append, ← this, ← hfirst]
      rfl
    rw [horder]
    refine ⟨(h.link l hl).1, hlen, order.next_release.trans hnext, fun i f hi => ?_⟩
    replace hi : (order.window.drop order.release.2.length)[i]? = some (some f) := hi
    rw [List.getElem?_drop] at hi
    obtain ⟨m, hm, hr⟩ := hwait _ f hi
    refine ⟨m, hm, ?_⟩
    rwa [show order.release.1.first = order.first + order.release.2.length from rfl, hfirst,
      Nat.add_assoc]

/-- The link keeps a reply, and takes what is in order then, or goes. -/
theorem keep (h : n.Told id all asked R direct forwarded) {l : Link} {slot : Nat} {m : Message}
    {order : ReplyOrder Frame} {wires : Recorded σ} {fault : Option Fault}
    (hl : n.links.get? id = some l) (hlid : l.id = id)
    (hf : l.order.fill? slot (Frame.ofMessage m) = some order) (hr : R (id, slot) m)
    (hw : l.sendAll n.wires order.release.2 = (wires, fault)) :
    ∃ forwarded', ∀ told : Node (Recorded σ), told.wires.takenOn id = wires.takenOn id →
      (∀ l', told.links.get? id = some l' → fault = none ∧ l'.order = order.release.1) →
      told.Told id all asked R direct forwarded' := by
  obtain ⟨count, hall, htaken⟩ := Recorded.takenOn_sendAll hw
  replace htaken := htaken id
  rw [hlid, if_pos rfl] at htaken
  obtain ⟨hfirst, hnext, hwait⟩ := h.waits hl hf hr
  obtain ⟨ms, hready, hms⟩ := ReplyOrder.ready_eq hwait
  replace hready : order.release.2 = ms.map Frame.ofMessage := hready
  refine ⟨forwarded ++ ms.take count, fun told htold hlink => ?_⟩
  refine h.extend hl hfirst hnext hwait hready hms ?_ fun l' hl' => ?_
  · rw [htold, htaken, hready, List.map_take]
  · obtain ⟨hnone, horder⟩ := hlink l' hl'
    have hlen := hall hnone
    rw [hready, List.length_map] at hlen
    exact ⟨horder, hlen⟩

/-- A reply is handed over, and the link that refuses is closed. -/
theorem fulfil (h : n.Told id all asked R direct forwarded) {r : LinkId × Nat} {m : Message}
    {told : Node (Recorded σ)} {refused : Option LinkId}
    (hf : n.fulfil (some r) m = (told, refused)) (hr : R r m)
    (hlid : ∀ l, n.links.get? r.1 = some l → l.id = r.1) :
    ∃ forwarded', (refused = none → told.Told id all asked R direct forwarded') ∧
      ∀ k, refused = some k → (told.detach k).1.Told id all asked R direct forwarded' := by
  have key : ∀ {q : Node (Recorded σ) × Option LinkId}, n.Fulfilled r.1 r.2 m q →
      ∃ forwarded', (q.2 = none → q.1.Told id all asked R direct forwarded') ∧
        ∀ k, q.2 = some k → (q.1.detach k).1.Told id all asked R direct forwarded' := by
    intro q hq
    cases hq with
    | gone hl => exact ⟨forwarded, fun _ => h, nofun⟩
    | @stray l hl =>
      refine ⟨forwarded, fun _ => h.same rfl fun l' hl' => ?_, nofun⟩
      rw [Table.get?_replace hl] at hl'
      split at hl'
      · rename_i hid
        rw [hid, ← hl']
        exact hl
      · exact hl'
    | @kept l order wires fault hl ho hfill hw =>
      by_cases hid : r.1 = id
      · subst hid
        obtain ⟨forwarded', hkeep⟩ := h.keep hl (hlid l hl) hfill hr hw
        refine ⟨forwarded', fun hnone => hkeep _ rfl fun l' hl' => ?_, fun k hk => ?_⟩
        · replace hl' : (n.links.modify r.1 fun _ =>
            { l with order := order.release.1 }).get? r.1 = some l' := hl'
          rw [Table.get?_replace hl, if_pos rfl] at hl'
          cases hl'
          exact ⟨Option.map_eq_none_iff.1 hnone, rfl⟩
        · obtain ⟨-, -, rfl⟩ := Option.map_eq_some_iff.1 hk
          refine hkeep _ (takenOn_detach _ _ _) fun l' hl' => ?_
          rw [links_detach, if_pos rfl] at hl'
          cases hl'
      · obtain ⟨count, -, htaken⟩ := Recorded.takenOn_sendAll hw
        replace htaken := htaken id
        rw [hlid l hl, if_neg hid, List.append_nil] at htaken
        have hsame : Node.Told id all asked R direct forwarded { n with
            links := n.links.modify r.1 fun _ => { l with order := order.release.1 }, wires } := by
          refine h.same htaken fun l' hl' => ?_
          rwa [Table.get?_replace hl, if_neg (Ne.symm hid)] at hl'
        exact ⟨forwarded, fun _ => hsame, fun k _ => hsame.detach k⟩
  have hq := key (n.fulfil_cases r.1 r.2 m)
  rw [hf] at hq
  exact hq

end Node.Told

/-! ## Actions -/

/-- The replies on their way and those to requests that are about to fail are due, and the
    account of the link is right. -/
structure Phase.Told (id : LinkId) (all : List Message) (asked : Nat)
    (R : LinkId × Nat → Message → Prop) (p : Phase (Recorded σ)) : Prop where
  lost : ∀ {tag text r}, (tag, text) ∈ p.lost → p.node.Awaits tag r → R r (Message.failure text)
  held : ∀ {r m}, (r, m) ∈ p.held → R r m
  node : ∃ direct forwarded, p.node.Told id all asked R direct forwarded

variable [Outbound σ]

/-- A request that fails as its link goes is lost. -/
theorem Node.Resolves.of_detach {n m : Node σ} {a : Action σ} {k : LinkId} {tag : Tag}
    {text : String} {r : LinkId × Nat} (hw : m.waiting = n.waiting) (hk : m.kind? k = n.kind? k)
    (hg : (n.act a).kind? k = none) (hin : (tag, text) ∈ (m.detach k).2)
    (hr : (m.detach k).1.Awaits tag r) : n.Resolves a r (Message.failure text) := by
  obtain ⟨o, ho, hor⟩ := awaits_of_detach hr
  rw [hw] at ho
  have key : ∀ {q : Node σ × List (Tag × String)}, m.Detached k q → (tag, text) ∈ q.2 →
      ∃ shard, o.target = k ∧ m.kind? k = some (.dialed shard) ∧ text = lostText shard := by
    intro q hq hin
    cases hq with
    | absent | idle | client | accepted => cases hin
    | @dialed l shard hl hkind =>
      obtain ⟨⟨t, o'⟩, he, heq⟩ := List.mem_map.1 hin
      obtain ⟨he, ht⟩ := List.mem_filter.1 he
      cases heq
      rw [Table.mem_entries, hw, ho] at he
      cases he
      exact ⟨shard, of_decide_eq_true ht, kind?_eq_some.2 ⟨l, hl, hkind⟩, rfl⟩
  obtain ⟨shard, rfl, hkind, rfl⟩ := key (m.detach_cases k) hin
  exact .lost ho hor (hk.symm.trans hkind) hg

theorem Node.lost_detach_client {n : Node σ} {id : LinkId} (h : n.kind? id = some .client) :
    (n.detach id).2 = [] := by
  have key : ∀ {q : Node σ × List (Tag × String)}, n.Detached id q → q.2 = [] := by
    intro q hq
    cases hq with
    | absent | idle | client | accepted => rfl
    | dialed hl hk =>
      rw [kind?, hl, Option.map_some, hk] at h
      cases h
  exact key (n.detach_cases id)

theorem Phase.Told.move {id : LinkId} {all : List Message} {asked : Nat}
    {R : LinkId × Nat → Message → Prop} {p q : Phase (Recorded σ)} (hm : p.Move q)
    (hc : p.Coherent) (hmt : p.Matched) (h : p.Told id all asked R) : q.Told id all asked R := by
  obtain ⟨direct, forwarded, hn⟩ := h.node
  cases hm with
  | skip => exact ⟨fun hin => h.lost (List.mem_cons_of_mem _ hin), h.held, h.node⟩
  | @release n tag text lost held o ho =>
    refine ⟨fun hin hr => ?_, fun {r m} hin => ?_, direct, forwarded, ?_⟩
    · exact h.lost (List.mem_cons_of_mem _ hin) (Node.awaits_release.1 hr).2
    · rcases List.mem_append.1 hin with hin | hin
      · obtain ⟨hor, rfl⟩ := PendingRequest.mem_replies.1 hin
        exact h.lost (List.mem_cons_self ..) ⟨o, ho, hor⟩
      · exact h.held hin
    · refine hn.same (by rw [Node.wires_release]) fun l hl => ?_
      rwa [Node.links_release] at hl
  | @tell n told r m lost held hf =>
    have ha : n.Alike told := Node.fulfil_alike hf
    obtain ⟨forwarded', htold, -⟩ := hn.fulfil hf (h.held (List.mem_cons_self ..))
      fun l hl => (hc.links r.1 l hl).1
    refine ⟨fun hin hr => h.lost hin ?_, fun hin => h.held (List.mem_cons_of_mem _ hin), direct,
      forwarded', htold rfl⟩
    obtain ⟨o, ho, hor⟩ := hr
    exact ⟨o, ha.waiting ▸ ho, hor⟩
  | @refuse n told r m lost held k hf =>
    have ha : n.Alike told := Node.fulfil_alike hf
    obtain ⟨forwarded', -, hgone⟩ := hn.fulfil hf (h.held (List.mem_cons_self ..))
      fun l hl => (hc.links r.1 l hl).1
    -- A link that refuses is a client's, so nothing further is lost with it.
    have hkind : told.kind? k = some .client := hmt.refused hf
    obtain ⟨rfl, -⟩ := Node.fulfil_refused hf
    refine ⟨fun hin hr => ?_, fun hin => h.held (List.mem_cons_of_mem _ hin), direct,
      forwarded', hgone r.1 rfl⟩
    dsimp only at hin
    rw [Node.lost_detach_client hkind, List.nil_append] at hin
    obtain ⟨o, ho, hor⟩ := Node.awaits_of_detach hr
    exact h.lost hin ⟨o, ha.waiting ▸ ho, hor⟩

theorem Recorded.takenOn_offerTo {n : Node (Recorded σ)} {target id : LinkId} {shard : ShardId}
    {f : Frame} {w : Recorded σ} {fault : Option Fault} (h : n.offerTo target shard f = (w, fault))
    (hid : ∀ l, n.links.get? target = some l → l.id ≠ id) :
    w.takenOn id = n.wires.takenOn id := by
  unfold Node.offerTo at h
  split at h
  · rename_i l hl
    rw [takenOn_send h, if_neg fun hc => hid l hl hc.1, List.append_nil]
  · cases h
    rfl

namespace Phase.Told

variable {id : LinkId} {all : List Message} {asked : Nat} {R : LinkId × Nat → Message → Prop}
  {direct forwarded : List Message} {n : Node (Recorded σ)}

omit [Outbound σ] in
/-- Nothing is lost and nothing is on its way. -/
theorem still (h : n.Told id all asked R direct forwarded) :
    Phase.Told id all asked R ⟨n, [], []⟩ :=
  ⟨nofun, nofun, direct, forwarded, h⟩

/-- A link goes within an action; the requests that fail by that are lost. -/
theorem detach {m : Node (Recorded σ)} {a : Action (Recorded σ)} {k : LinkId}
    {held : List ((LinkId × Nat) × Message)}
    (h : ∃ direct forwarded, (m.detach k).1.Told id all asked R direct forwarded)
    (hw : m.waiting = n.waiting) (hk : m.kind? k = n.kind? k)
    (hm : Phase.Moves ⟨(m.detach k).1, (m.detach k).2, held⟩ ⟨n.act a, [], []⟩)
    (hR : ∀ {r m}, n.Resolves a r m → R r m) (hheld : ∀ {r m}, (r, m) ∈ held → R r m) :
    Phase.Told id all asked R ⟨(m.detach k).1, (m.detach k).2, held⟩ := by
  have hgone : (n.act a).kind? k = none := hm.gone (by rw [Node.kind?_detach, if_pos rfl])
  exact ⟨fun hin hr => hR (Node.Resolves.of_detach hw hk hgone hin hr), hheld, h⟩

/-- A link comes up; nothing was asked of one that comes up under `id`. -/
theorem enter {kind : LinkKind} (hc : Phase.Coherent ⟨n, [], []⟩)
    (hfresh : n.nextLink = id → all = [] ∧ asked = 0)
    (hm : Phase.Moves ⟨(n.enter kind).1, (n.enter kind).2, []⟩ ⟨n.act (.attach kind), [], []⟩)
    (hR : ∀ {r m}, n.Resolves (.attach kind) r m → R r m)
    (h : n.Told id all asked R direct forwarded) :
    Phase.Told id all asked R ⟨(n.enter kind).1, (n.enter kind).2, []⟩ := by
  have hjoin : ∀ peers, (n.join kind peers).Told id all asked R direct forwarded := by
    intro peers
    by_cases hid : n.nextLink = id
    · obtain ⟨rfl, rfl⟩ := hfresh hid
      refine ⟨h.taken, h.first, h.bound, h.resolved, fun l hl => ?_⟩
      rw [Node.links_join, if_pos hid.symm] at hl
      cases hl
      exact ⟨List.prefix_nil.1 h.first, (Nat.le_zero.1 h.bound).symm, rfl, nofun⟩
    · refine h.same rfl fun l hl => ?_
      rwa [Node.links_join, if_neg (Ne.symm hid)] at hl
  have key : ∀ {q : Node (Recorded σ) × List (Tag × String)}, n.Entered kind q →
      Phase.Moves ⟨q.1, q.2, []⟩ ⟨n.act (.attach kind), [], []⟩ →
      Phase.Told id all asked R ⟨q.1, q.2, []⟩ := by
    intro q hq hm
    cases hq with
    | plain | alone => exact Phase.Told.still (hjoin _)
    | @instead shard old hold =>
      obtain ⟨l, hlold, -⟩ := Node.kind?_eq_some.1 ((hc.peers shard old).1 hold)
      have hne : old ≠ n.nextLink := Nat.ne_of_lt (hc.links old l hlold).2.2
      refine Phase.Told.detach (n := n) ⟨direct, forwarded, (hjoin _).detach old⟩ rfl ?_ hm hR nofun
      rw [Node.kind?_join, if_neg hne]
  exact key (n.enter_cases kind) hm

/-- A slot is reserved, and the request is offered to the link to a shard, which is not `id`. -/
theorem offer {link target : LinkId} {l : Link} {shard : ShardId} {f : Frame}
    {wires : Recorded σ} {fault : Option Fault} (hc : Phase.Coherent ⟨n, [], []⟩)
    (hk : ∀ k, n.kind? id = some k → k = .client) (hl : n.links.get? link = some l)
    (ht : n.peers.get? shard = some target)
    (hw : (n.reserve link l).offerTo target shard f = (wires, fault))
    (h : n.Told id all asked R direct forwarded) :
    Node.Told id all (asked + if link = id then 1 else 0) R direct forwarded
      { n.reserve link l with wires } := by
  refine (h.reserve hl).same (Recorded.takenOn_offerTo hw fun l' hl' hid => ?_) fun _ hl => hl
  have htarget : id = target := hid.symm.trans ((hc.reserve hl).links target l' hl').1
  have hclient := hk _ (htarget ▸ (hc.peers shard target).1 ht)
  cases hclient

/-- The first change of an action; what it brings on the link is asked, and what it resolves is
    due. -/
theorem opens {a : Action (Recorded σ)} {p : Phase (Recorded σ)} (ho : n.Opens a p)
    (hm : p.Moves ⟨n.act a, [], []⟩) (hc : Phase.Coherent ⟨n, [], []⟩)
    (hk : ∀ k, n.kind? id = some k → k = .client)
    (hfresh : n.nextLink = id → all = [] ∧ asked = 0)
    (hf : ∀ f, a = .rewire f → ∀ w, (f w).takenOn id = w.takenOn id)
    (hR : ∀ {r m}, n.Resolves a r m → R r m) (h : n.Told id all asked R direct forwarded) :
    p.Told id (all ++ (n.direct? id a).toList) (asked + (n.forwarded? id a).toList.length) R := by
  have hnone : ∀ {a : Action (Recorded σ)} {p : Phase (Recorded σ)}, n.heard? id a = none →
      p.Told id all asked R →
      p.Told id (all ++ (n.direct? id a).toList) (asked + (n.forwarded? id a).toList.length) R := by
    intro a p hh hp
    rw [Node.direct?, Node.forwarded?, hh]
    simpa using hp
  have hnot : ∀ {r : LinkId × Nat} {m : Message}, (r, m) ∈ [] → R r m := fun hin =>
    absurd hin List.not_mem_nil
  cases ho with
  | elapse => exact hnone rfl (Phase.Told.still (h.same rfl fun _ hl => hl))
  | rewire f =>
    exact hnone rfl (Phase.Told.still (h.same (hf f rfl n.wires) fun _ hl => hl))
  | enter kind => exact hnone rfl (Phase.Told.enter hc hfresh hm hR h)
  | expire now =>
    refine hnone rfl ⟨fun hin hr => ?_, hnot, direct, forwarded, h⟩
    obtain ⟨⟨tag, o⟩, he, heq⟩ := List.mem_map.1 hin
    obtain ⟨he, hlate⟩ := List.mem_filter.1 he
    cases heq
    obtain ⟨o', ho', hor⟩ := hr
    cases (Table.mem_entries.1 he).symm.trans ho'
    exact hR (.expired rfl ho' hor (of_decide_eq_true hlate))
  | close link error =>
    have hn : (n.detach link).1.Told id all asked R direct forwarded := h.detach link
    exact hnone rfl (Phase.Told.detach (n := n) ⟨direct, forwarded, hn⟩ rfl rfl hm hR hnot)
  | @trail link m hl =>
    refine hnone ?_ (Phase.Told.still h)
    refine if_neg fun hin => ?_
    obtain ⟨l, hl'⟩ := Table.contains_eq_true.1 (hin.1 ▸ hin.2)
    cases hl.symm.trans hl'
  | @answer link m reply l store wires hl hd hw =>
    obtain ⟨hdirect, hforwarded⟩ := Node.asks_answer id hl hd
    have htaken := Recorded.takenOn_send hw id
    simp only [(hc.links link l hl).1, and_true] at htaken
    obtain ⟨direct', hn⟩ := h.answer (m := { n with store, wires }) hl rfl htaken
    rw [hdirect, hforwarded]
    exact Phase.Told.still hn
  | @choke link m reply l store wires fault hl hd hw =>
    obtain ⟨hdirect, hforwarded⟩ := Node.asks_answer id hl hd
    rw [hdirect, hforwarded]
    exact Phase.Told.detach (n := n) ⟨direct, forwarded, h.choke store hw⟩ rfl rfl hm hR hnot
  | @forward link m l shard request target tags tag wires hl hd ht hg hw =>
    obtain ⟨hdirect, hforwarded⟩ := Node.asks_forward id hl hd
    rw [hdirect, hforwarded, Option.toList_none, List.append_nil]
    exact Phase.Told.still ((Phase.Told.offer hc hk hl ht hw h).same rfl fun _ hl => hl)
  | @refuse link m l shard request fault hl hd hfault =>
    obtain ⟨hdirect, hforwarded⟩ := Node.asks_forward id hl hd
    rw [hdirect, hforwarded, Option.toList_none, List.append_nil]
    refine ⟨fun hin _ => absurd hin List.not_mem_nil, fun hin => hR ?_, direct, forwarded,
      h.reserve hl⟩
    cases List.mem_singleton.1 hin
    exact .refused rfl hl rfl (Node.duty_eq_forward_iff.1 hd) hfault
  | @sever link m l shard request target tag wires fault hl hd ht hw hfault =>
    obtain ⟨hdirect, hforwarded⟩ := Node.asks_forward id hl hd
    rw [hdirect, hforwarded, Option.toList_none, List.append_nil]
    have hs := (Phase.Told.offer hc hk hl ht hw h).detach target
    refine Phase.Told.detach (n := n) ⟨direct, forwarded, hs⟩ rfl
      ((Node.reserve_alike hl).kind? target) hm hR fun hin => hR ?_
    cases List.mem_singleton.1 hin
    have hr : n.Resolves _ (link, l.order.next) _ :=
      .refused rfl hl rfl (Node.duty_eq_forward_iff.1 hd) hfault
    exact hr
  | @orphan link m reply l tag store hl hd hno =>
    obtain ⟨hdirect, hforwarded⟩ := Node.asks_settle id hl hd
    rw [hdirect, hforwarded, Option.toList_none, List.append_nil]
    exact Phase.Told.still (h.same rfl fun _ hl => hl)
  | @settle link m reply l tag store o hl hd hso =>
    obtain ⟨hdirect, hforwarded⟩ := Node.asks_settle id hl hd
    rw [hdirect, hforwarded, Option.toList_none, List.append_nil]
    refine ⟨fun hin _ => absurd hin List.not_mem_nil, fun hin => ?_, direct, forwarded,
      h.same ?_ fun l' hl' => ?_⟩
    · obtain ⟨hor, rfl⟩ := PendingRequest.mem_replies.1 hin
      exact hR (.answered rfl (Node.duty_settles_iff.1 ⟨_, hd⟩) hso hor)
    · dsimp only
      rw [Node.wires_release]
    · dsimp only at hl'
      rwa [Node.links_release] at hl'

end Phase.Told

/-! ## Runs -/

theorem Node.Told.act {id : LinkId} {all : List Message} {asked : Nat}
    {R R' : LinkId × Nat → Message → Prop} {direct forwarded : List Message}
    {n : Node (Recorded σ)} {a : Action (Recorded σ)} (ha : n.admits a = true)
    (hc : Phase.Coherent ⟨n, [], []⟩) (hmt : Phase.Matched ⟨n, [], []⟩)
    (hk : ∀ k, n.kind? id = some k → k = .client)
    (hfresh : n.nextLink = id → all = [] ∧ asked = 0)
    (hf : ∀ f, a = .rewire f → ∀ w, (f w).takenOn id = w.takenOn id)
    (hR : ∀ {r m}, R r m ∨ n.Resolves a r m → R' r m) (h : n.Told id all asked R direct forwarded) :
    ∃ direct' forwarded', (n.act a).Told id (all ++ (n.direct? id a).toList)
      (asked + (n.forwarded? id a).toList.length) R' direct' forwarded' := by
  obtain ⟨p, ho, hm⟩ := n.act_opens a
  have hp : p.Told id (all ++ (n.direct? id a).toList)
      (asked + (n.forwarded? id a).toList.length) R' :=
    Phase.Told.opens ho hm hc hk hfresh hf (fun h => hR (.inr h)) (h.mono fun h => hR (.inl h))
  exact ((hmt.opens ho ha hc).moves Phase.Told.move hm (hc.opens ho) hp).2.node

/-- The account of a link over a run, on which nothing is heard before it comes up. -/
structure Node.Accounted (n : Node (Recorded σ)) (actions : List (Action (Recorded σ)))
    (id : LinkId) : Prop where
  fresh : (n.run actions).nextLink ≤ id → n.collect (heard? id) actions = []
  given : id ∈ n.collect client? actions → id < (n.run actions).nextLink
  client : (n.run actions).nextLink ≤ id ∨ id ∈ n.collect client? actions →
    ∀ k, (n.run actions).kind? id = some k → k = .client
  heard : (n.run actions).nextLink ≤ id ∨ id ∈ n.collect client? actions →
    (n.collect (heard? id) actions).length =
      (n.collect (direct? id) actions).length + (n.collect (forwarded? id) actions).length
  told : (n.run actions).nextLink ≤ id ∨ id ∈ n.collect client? actions →
    ∃ direct forwarded, (n.run actions).Told id (n.collect (direct? id) actions)
      (n.collect (forwarded? id) actions).length (n.Resolved actions) direct forwarded

theorem Node.Accounted.concat {n : Node (Recorded σ)} {actions : List (Action (Recorded σ))}
    {a : Action (Recorded σ)} {id : LinkId} (h : n.Accounted actions id)
    (hc : Phase.Coherent ⟨n.run actions, [], []⟩) (hm : Phase.Matched ⟨n.run actions, [], []⟩)
    (ha : (n.run actions).admits a = true)
    (hf : ∀ f, a = .rewire f → ∀ w, (f w).takenOn id = w.takenOn id) :
    n.Accounted (actions ++ [a]) id := by
  obtain ⟨hle, hlt⟩ := (n.run actions).nextLink_act a
  have hback : ((n.run actions).act a).nextLink ≤ id ∨
      id ∈ n.collect client? actions ++ ((n.run actions).client? a).toList →
      (n.run actions).nextLink ≤ id ∨ id ∈ n.collect client? actions := by
    rintro (hle' | hin)
    · exact .inl (Nat.le_trans hle hle')
    · rcases List.mem_append.1 hin with hin | hin
      · exact .inr hin
      · exact .inl (Nat.le_of_eq (mem_client? hin).2)
  refine ⟨fun hid => ?_, fun hid => ?_, fun hid k hk => ?_, fun hid => ?_, fun hid => ?_⟩
  · rw [run_concat] at hid
    have hid' : (n.run actions).nextLink ≤ id := Nat.le_trans hle hid
    rw [collect_concat, h.fresh hid', heard?_of_le hc hid']
    rfl
  · rw [collect_concat] at hid
    rw [run_concat]
    rcases List.mem_append.1 hid with hid | hid
    · exact Nat.lt_of_lt_of_le (h.given hid) hle
    · obtain ⟨rfl, rfl⟩ := mem_client? hid
      exact hlt _ rfl
  · rw [run_concat, collect_concat] at hid
    rw [run_concat] at hk
    rcases kind?_act hk with hk | ⟨rfl, hnext⟩
    · exact h.client (hback hid) k hk
    · rcases hid with hid | hid
      · exact absurd (hlt k rfl) (Nat.not_lt.2 (hnext ▸ hid))
      · rcases List.mem_append.1 hid with hid | hid
        · exact absurd (h.given hid) (Nat.not_lt.2 (Nat.le_of_eq hnext))
        · exact Action.attach.inj (mem_client? hid).1
  · rw [run_concat, collect_concat] at hid
    rw [collect_concat, collect_concat, collect_concat, List.length_append, List.length_append,
      List.length_append, h.heard (hback hid), length_heard? ha (h.client (hback hid))]
    omega
  · rw [run_concat, collect_concat] at hid
    obtain ⟨direct, forwarded, ht⟩ := h.told (hback hid)
    have hfresh : (n.run actions).nextLink = id →
        n.collect (direct? id) actions = [] ∧ (n.collect (forwarded? id) actions).length = 0 := by
      intro hnext
      have hlen := h.heard (hback hid)
      rw [h.fresh (Nat.le_of_eq hnext), List.length_nil] at hlen
      exact ⟨List.eq_nil_of_length_eq_zero (by omega), by omega⟩
    rw [run_concat, collect_concat, collect_concat, List.length_append]
    exact ht.act ha hc hm (h.client (hback hid)) hfresh hf resolved_concat

theorem Node.Accounted.run {c : Config} {wires : σ} {actions : List (Action σ)}
    (h : (ofConfig c wires).admitsAll actions = true) (id : LinkId) :
    (ofConfig c wires).recorded.Accounted (actions.map Action.recorded) id := by
  induction actions using List.reverseRecOn with
  | nil =>
    refine ⟨fun _ => rfl, nofun, fun _ k hk => ?_, fun _ => rfl, fun _ => ⟨[], [], ?_⟩⟩
    · cases hk
    · exact ⟨.nil, List.prefix_rfl, Nat.le_refl _, nofun, nofun⟩
  | append_singleton actions a ih =>
    have hrec : (ofConfig c wires).recorded.admitsAll
        (actions.map Action.recorded ++ [a.recorded]) = true := by
      rw [← h, ← admitsAll_recorded _ (actions ++ [a]), List.map_append]
      rfl
    rw [admitsAll_concat, Bool.and_eq_true] at hrec h
    rw [List.map_append]
    have hmt : Phase.Matched
        ⟨(ofConfig c wires).recorded.run (actions.map Action.recorded), [], []⟩ :=
      Phase.Matched.run hrec.1
    refine (ih h.1).concat (Phase.Coherent.run c _ _) hmt hrec.2 ?_
    intro f hf w
    cases a with
    | rewire g =>
      cases hf
      rfl
    | attach | event | expire | elapse => cases hf

/-- The frames that a client's link takes are made of the replies to a first part of its
    direct requests and of the replies to a first part of its forwarded requests, each in the
    order of the requests.  While the link is there, every direct request has its reply, the
    next forwarded request reserves the slot of its number, and the frames taken with the
    replies owed are as many as the requests. -/
theorem Node.run_replies {c : Config} {wires : σ} {actions : List (Action σ)} {id : LinkId}
    (h : (ofConfig c wires).admitsAll actions = true)
    (hid : id ∈ (ofConfig c wires).recorded.collect client? (actions.map Action.recorded)) :
    let start := (ofConfig c wires).recorded
    let actions' := actions.map Action.recorded
    let n := start.run actions'
    n.through Recorded.wires = (ofConfig c wires).run actions ∧
    ∃ direct forwarded : List Message,
      Interleaves (direct.map Frame.ofMessage) (forwarded.map Frame.ofMessage)
        (n.wires.takenOn id) ∧
      direct <+: start.collect (direct? id) actions' ∧
      forwarded.length ≤ (start.collect (forwarded? id) actions').length ∧
      (∀ i m, forwarded[i]? = some m → start.Resolved actions' (id, i) m) ∧
      ∀ l, n.links.get? id = some l →
        direct = start.collect (direct? id) actions' ∧
        l.order.next = (start.collect (forwarded? id) actions').length ∧
        (n.wires.takenOn id).length + l.owed = (start.collect (heard? id) actions').length := by
  intro start actions' n
  have ha : start.Accounted actions' id := Accounted.run h id
  obtain ⟨direct, forwarded, ht⟩ := ha.told (.inr hid)
  refine ⟨run_recorded _ actions, direct, forwarded, ht.taken, ht.first, ht.bound, ht.resolved,
    fun l hl => ?_⟩
  obtain ⟨hall, hfirst, hnext, -⟩ := ht.link l hl
  refine ⟨hall, hnext, ?_⟩
  have howed : l.order.next = l.order.first + l.owed := rfl
  have hlen := ht.taken.length_eq
  rw [List.length_map, List.length_map] at hlen
  rw [hlen, ha.heard (.inr hid), ← hall, ← hnext, howed, hfirst]
  omega

/-- A client asks for an object of one shard, to delete one of another, and to store one; the
    second request is answered before the first. -/
def overtakenRun : List (Action Unit) :=
  [.attach .client, .attach (.dialed 1), .attach (.dialed 2),
    .event (.message 0 (.client (.peerLookup [97] 1))),
    .event (.message 0 (.client (.peerDelete [98] 2))),
    .event (.message 0 (.client (.store [99] [3]))),
    .event (.message 2 (.peer 1 (.success [111]))),
    .event (.message 1 (.peer 0 (.store [97] [1])))]

/-- The direct reply overtakes the others, which are in the order of their requests. -/
theorem Node.run_replies_overtaken :
    let start := (ofConfig {} ()).recorded
    let actions := overtakenRun.map Action.recorded
    let n := start.run actions
    (ofConfig {} ()).admitsAll overtakenRun = true ∧ 0 ∈ start.collect client? actions ∧
      start.collect (forwarded? 0) actions = [(1, .lookup [97]), (2, .delete [98])] ∧
      n.wires.takenOn 0 = [Message.success createdText, .client (.store [97] [1]),
        .client (.success [111])].map Frame.ofMessage ∧
      (∃ forwarded : List Message,
        Interleaves [Frame.ofMessage (Message.success createdText)]
          (forwarded.map Frame.ofMessage) (n.wires.takenOn 0) ∧
        ∀ i m, forwarded[i]? = some m → start.Resolved actions (0, i) m) ∧
      (n.links.get? 0).map (fun l => (l.order.next, l.owed)) = some (2, 0) := by
  intro start actions n
  have ha : (ofConfig {} ()).admitsAll overtakenRun = true := by cbv
  have hclient : start.collect client? actions = [0] := by cbv
  have hid : 0 ∈ start.collect client? actions := by simp [hclient]
  have hdirect : start.collect (direct? 0) actions = [Message.success createdText] := by cbv
  have hforwarded : start.collect (forwarded? 0) actions = [(1, .lookup [97]), (2, .delete [98])] :=
    by cbv
  have htaken : (start.run actions).wires.takenOn 0 = [Message.success createdText,
      .client (.store [97] [1]), .client (.success [111])].map Frame.ofMessage := by cbv
  have hheard : (start.collect (heard? 0) actions).length = 3 := by cbv
  have hthere : (start.run actions).links.contains 0 = true := by cbv
  obtain ⟨-, direct, forwarded, hinter, -, -, hresolved, hlink⟩ := run_replies ha hid
  obtain ⟨l, hl⟩ := Table.contains_eq_true.1 hthere
  obtain ⟨hall, hnext, hlength⟩ := hlink l hl
  rw [hdirect] at hall
  rw [hforwarded] at hnext
  rw [htaken, hheard] at hlength
  have howed : l.owed = 0 := Nat.add_left_cancel hlength
  refine ⟨ha, hid, hforwarded, htaken, ⟨forwarded, ?_, hresolved⟩, ?_⟩
  · rw [hall] at hinter
    exact hinter
  · rw [hl, Option.map_some, hnext, howed]
    rfl

end Depot
