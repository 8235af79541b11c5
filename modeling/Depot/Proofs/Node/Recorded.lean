/-
  Depot — a node does the same whoever looks at its wires.

  A node does with its wires nothing but offer frames and hang up, and goes by
  what it is told of an offer.  `run_through` says so: where wires answer as what
  stands behind them does, a run of the node on the one is a run on the other.
  `run_recorded` is the case of wires that remember what they took.
-/
import Depot.Link.Recorded
import Depot.Node.Run
import Mathlib

namespace Depot

variable {σ : Type u} {τ : Type v}

/-- The wires answer as those behind them do, which are found by `f`. -/
structure Outbound.Faithful [Outbound σ] [Outbound τ] (f : σ → τ) : Prop where
  offer : ∀ w link fr, Outbound.offer (f w) link fr = (Outbound.offer w link fr).map f id
  hangUp : ∀ w link, Outbound.hangUp (f w) link = f (Outbound.hangUp w link)

/-- The node on the wires behind its own. -/
def Node.through (f : σ → τ) (n : Node σ) : Node τ where
  shard := n.shard
  store := n.store
  tags := n.tags
  links := n.links
  peers := n.peers
  waiting := n.waiting
  nextLink := n.nextLink
  clock := n.clock
  timeout := n.timeout
  alarms := n.alarms
  wires := f n.wires

/-- The action, with what is done to the wires done to those in front. -/
def Action.lift (front : (τ → τ) → σ → σ) : Action τ → Action σ
  | attach kind => .attach kind
  | event e => .event e
  | expire now => .expire now
  | elapse milliseconds => .elapse milliseconds
  | rewire g => .rewire (front g)

namespace Node

section

variable (f : σ → τ) (n : Node σ)

@[simp] theorem store_through : (n.through f).store = n.store := rfl

@[simp] theorem tags_through : (n.through f).tags = n.tags := rfl

@[simp] theorem links_through : (n.through f).links = n.links := rfl

@[simp] theorem peers_through : (n.through f).peers = n.peers := rfl

@[simp] theorem waiting_through : (n.through f).waiting = n.waiting := rfl

@[simp] theorem wires_through : (n.through f).wires = f n.wires := rfl

@[simp] theorem answered?_through (link : LinkId) (tag : Tag) :
    (n.through f).answered? link tag = n.answered? link tag := rfl

end

theorem through_reclaim (f : σ → τ) (n : Node σ) (tag : Tag) :
    (n.through f).reclaim tag = (n.reclaim tag).through f := by
  unfold reclaim
  rw [tags_through]
  cases n.tags.putBack tag <;> rfl

theorem through_release (f : σ → τ) (n : Node σ) (tag : Tag) :
    (n.through f).release tag = (n.release tag).through f :=
  through_reclaim f { n with waiting := n.waiting.erase tag } tag

end Node

variable [Outbound σ] [Outbound τ] {f : σ → τ}

namespace Outbound.Faithful

theorem send (hf : Faithful f) (l : Link) (w : σ) (fr : Frame) :
    l.send (f w) fr = (l.send w fr).map f id := by
  unfold Link.send
  split
  · rw [hf.offer]
    rfl
  · rfl

theorem sendAll (hf : Faithful f) (l : Link) (w : σ) (frs : List Frame) :
    l.sendAll (f w) frs = (l.sendAll w frs).map f id := by
  induction frs generalizing w with
  | nil => rfl
  | cons fr frs ih =>
    unfold Link.sendAll
    rw [hf.send]
    obtain ⟨w', fault⟩ := l.send w fr
    cases fault with
    | none => exact ih w'
    | some fault => rfl

theorem keep (hf : Faithful f) (l : Link) (w : σ) (slot : Nat) (fr : Frame) :
    l.fulfil (f w) slot fr = (l.fulfil w slot fr).map id (Prod.map f id) := by
  unfold Link.fulfil
  cases l.order.fill? slot fr with
  | none => rfl
  | some order =>
    simp only [hf.sendAll]
    rfl

theorem detach (hf : Faithful f) (n : Node σ) (link : LinkId) :
    (n.through f).detach link = (n.detach link).map (Node.through f) id := by
  unfold Node.detach
  rw [Node.links_through]
  cases n.links.get? link with
  | none => rfl
  | some l =>
    simp only [Node.wires_through, hf.hangUp]
    split
    · cases l.kind <;> rfl
    · rfl

theorem fulfil (hf : Faithful f) (n : Node σ) (r : Option (LinkId × Nat)) (m : Message) :
    (n.through f).fulfil r m = (n.fulfil r m).map (Node.through f) id := by
  unfold Node.fulfil
  cases r with
  | none => rfl
  | some r =>
    obtain ⟨link, slot⟩ := r
    dsimp only
    rw [Node.links_through]
    cases n.links.get? link with
    | none => rfl
    | some l =>
      simp only [Node.wires_through, hf.keep]
      rfl

theorem fail (hf : Faithful f) (n : Node σ) (tag : Tag) (text : String) :
    (n.through f).fail tag text = (n.fail tag text).map (Node.through f) id := by
  unfold Node.fail
  rw [Node.waiting_through]
  cases n.waiting.get? tag with
  | none => rfl
  | some o =>
    simp only [Node.through_release, hf.fulfil]
    obtain ⟨told, refused⟩ := (n.release tag).fulfil o.requester (Message.failure text)
    cases refused with
    | none => rfl
    | some link => exact hf.detach told link

theorem failAll (hf : Faithful f) (n : Node σ) (work : List (Tag × String)) :
    (n.through f).failAll work = (n.failAll work).through f := by
  induction n, work using Node.failAll.induct with
  | case1 n => rw [Node.failAll, Node.failAll]
  | case2 n tag text work failed ih =>
    rw [Node.failAll, Node.failAll, hf.fail]
    exact ih

theorem close (hf : Faithful f) (n : Node σ) (link : LinkId) :
    (n.through f).close link = (n.close link).through f := by
  unfold Node.close
  rw [hf.detach]
  exact hf.failAll _ _

theorem tell (hf : Faithful f) (n : Node σ) (r : Option (LinkId × Nat)) (m : Message) :
    (n.through f).tell r m = (n.tell r m).through f := by
  unfold Node.tell
  rw [hf.fulfil]
  obtain ⟨told, refused⟩ := n.fulfil r m
  cases refused with
  | none => rfl
  | some link => exact hf.close told link

theorem attach (hf : Faithful f) (n : Node σ) (kind : LinkKind) :
    ((n.through f).attach kind).1 = (n.attach kind).1.through f := by
  have henter : (n.through f).enter kind = (n.enter kind).map (Node.through f) id := by
    unfold Node.enter
    cases kind with
    | client | accepted => rfl
    | dialed shard =>
      dsimp only
      rw [Node.peers_through]
      cases n.peers.get? shard with
      | none => rfl
      | some old =>
        exact hf.detach { n with
          nextLink := n.nextLink + 1
          links := n.links.insert n.nextLink { id := n.nextLink, kind := .dialed shard }
          peers := n.peers.insert shard n.nextLink } old
  unfold Node.attach
  rw [henter]
  exact hf.failAll _ _

theorem answer (hf : Faithful f) (n : Node σ) (link : LinkId) (m : Message) :
    (n.through f).answer link m = (n.answer link m).through f := by
  unfold Node.answer
  rw [Node.links_through]
  cases n.links.get? link with
  | none => rfl
  | some l =>
    simp only [Node.wires_through, hf.send]
    obtain ⟨wires, fault⟩ := l.send n.wires (Frame.ofMessage m)
    cases fault with
    | none => rfl
    | some fault => exact hf.close { n with wires } link

theorem offerTo (hf : Faithful f) (n : Node σ) (target : LinkId) (shard : ShardId) (fr : Frame) :
    (n.through f).offerTo target shard fr = (n.offerTo target shard fr).map f id := by
  unfold Node.offerTo
  rw [Node.links_through]
  cases n.links.get? target with
  | none => rfl
  | some l => exact hf.send l n.wires fr

theorem issue (hf : Faithful f) (n : Node σ) (r : LinkId × Nat) (shard : ShardId)
    (request : PeerBody) :
    (n.through f).issue r shard request = (n.issue r shard request).map (Node.through f) id := by
  unfold Node.issue
  rw [Node.peers_through]
  cases n.peers.get? shard with
  | none => rfl
  | some target =>
    dsimp only
    rw [Node.tags_through]
    cases n.tags.draw with
    | error e => rfl
    | ok drawn =>
      obtain ⟨tags, tag⟩ := drawn
      simp only [hf.offerTo]
      obtain ⟨wires, fault⟩ := n.offerTo target shard (Frame.ofMessage (.peer tag request))
      cases fault with
      | none => rfl
      | some fault =>
        refine Prod.ext ?_ rfl
        have hr := Node.through_reclaim f { n with tags, wires } tag
        exact (congrArg (Node.close · target) hr).trans (hf.close _ target)

theorem forward (hf : Faithful f) (n : Node σ) (link : LinkId) (shard : ShardId)
    (request : PeerBody) :
    (n.through f).forward link shard request = (n.forward link shard request).through f := by
  unfold Node.forward
  rw [Node.links_through]
  cases n.links.get? link with
  | none => rfl
  | some l =>
    let reserved := { n with links := n.links.modify link fun _ => l.reserve.1 }
    have hi := hf.issue reserved (link, l.reserve.2) shard request
    dsimp only [reserved, Node.through] at hi ⊢
    rw [hi]
    obtain ⟨m, sent⟩ := reserved.issue (link, l.reserve.2) shard request
    cases sent with
    | ok tag => rfl
    | error fault => exact hf.tell m _ _

theorem settle (hf : Faithful f) (n : Node σ) (link : LinkId) (tag : Tag) (m : Message) :
    (n.through f).settle link tag m = (n.settle link tag m).through f := by
  unfold Node.settle
  rw [Node.answered?_through]
  cases n.answered? link tag with
  | none => rfl
  | some o =>
    simp only [Node.through_release]
    exact hf.tell _ _ _

theorem receive (hf : Faithful f) (n : Node σ) (link : LinkId) (m : Message) :
    (n.through f).receive link m = (n.receive link m).through f := by
  unfold Node.receive
  rw [Node.links_through, Node.store_through]
  split
  · cases Node.duty n.store m with
    | answer store reply => exact hf.answer { n with store } link reply
    | forward shard request => exact hf.forward n link shard request
    | settle tag store reply => exact hf.settle { n with store } link tag reply
  · rfl

theorem act (hf : Faithful f) {front : (τ → τ) → σ → σ} (hb : ∀ g w, f (front g w) = g (f w))
    (n : Node σ) (a : Action τ) : (n.through f).act a = (n.act (a.lift front)).through f := by
  cases a with
  | attach kind => exact hf.attach n kind
  | expire now => exact hf.failAll n _
  | elapse milliseconds => rfl
  | rewire g =>
    show { n.through f with wires := g (f n.wires) } =
      { n.through f with wires := f (front g n.wires) }
    rw [hb]
  | event e =>
    cases e with
    | message link m => exact hf.receive n link m
    | closed link error => exact hf.close n link

end Outbound.Faithful

namespace Node

/-- A run on wires that answer as those behind them do is a run on the latter. -/
theorem run_through {front : (τ → τ) → σ → σ} (hf : Outbound.Faithful f)
    (hb : ∀ g w, f (front g w) = g (f w)) (n : Node σ) (actions : List (Action τ)) :
    (n.through f).run actions = (n.run (actions.map (Action.lift front))).through f := by
  induction actions generalizing n with
  | nil => rfl
  | cons a actions ih =>
    show ((n.through f).act a).run actions = ((n.act (a.lift front)).run _).through f
    rw [hf.act hb]
    exact ih _

theorem admitsAll_through {front : (τ → τ) → σ → σ} (hf : Outbound.Faithful f)
    (hb : ∀ g w, f (front g w) = g (f w)) (n : Node σ) (actions : List (Action τ)) :
    (n.through f).admitsAll actions = n.admitsAll (actions.map (Action.lift front)) := by
  have ha : ∀ (n : Node σ) (a : Action τ), (n.through f).admits a = n.admits (a.lift front) := by
    intro n a
    cases a with
    | event e => cases e <;> rfl
    | attach | expire | elapse | rewire => rfl
  induction actions generalizing n with
  | nil => rfl
  | cons a actions ih =>
    show ((n.through f).admits a && ((n.through f).act a).admitsAll actions) =
      (n.admits (a.lift front) && (n.act (a.lift front)).admitsAll _)
    rw [hf.act hb, ih, ha]

end Node

/-! ## Wires that remember -/

/-- The action on wires that remember; they remember what they took before. -/
def Action.recorded : Action σ → Action (Recorded σ) :=
  lift fun g w => { w with wires := g w.wires }

theorem Recorded.faithful : Outbound.Faithful (Recorded.wires : Recorded σ → σ) where
  offer w link fr := by
    show Outbound.offer w.wires link fr = (w.note link fr (Outbound.offer w.wires link fr)).map _ _
    obtain ⟨wires, offer⟩ := Outbound.offer w.wires link fr
    cases offer <;> rfl
  hangUp _ _ := rfl

namespace Node

/-- The node with wires that took nothing yet, and remember from now on. -/
def recorded (n : Node σ) : Node (Recorded σ) := n.through fun wires => { wires }

/-- Whether its wires remember or not, a node goes through the same. -/
theorem run_recorded (n : Node σ) (actions : List (Action σ)) :
    (n.recorded.run (actions.map Action.recorded)).through Recorded.wires = n.run actions :=
  (run_through Recorded.faithful (fun _ _ => rfl) n.recorded actions).symm

theorem admitsAll_recorded (n : Node σ) (actions : List (Action σ)) :
    n.recorded.admitsAll (actions.map Action.recorded) = n.admitsAll actions :=
  (admitsAll_through Recorded.faithful (fun _ _ => rfl) n.recorded actions).symm

end Node

end Depot
