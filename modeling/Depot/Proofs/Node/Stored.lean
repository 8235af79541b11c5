/-
  Depot — what an action does to the store of a node.

  Only a message on a link that is there touches the store, and it does what its duty
  says (`store_act`); closing links and failing requests leave it alone.
-/
import Depot.Proofs.Node.Phase
import Depot.Proofs.Node.Change

namespace Depot

variable {σ : Type u}

namespace Node

/-- The store that a duty takes. -/
def Duty.store? : Duty → Option Store
  | .answer store _ | .settle _ store _ => some store
  | .forward _ _ => none

/-- The store once an action is over. -/
def storeAfter (n : Node σ) : Action σ → Store
  | .event (.message id m) =>
    if n.links.contains id then ((duty n.store m).store?).getD n.store else n.store
  | _ => n.store

theorem store_release (n : Node σ) (tag : Tag) : (n.release tag).store = n.store := by
  unfold release reclaim
  split <;> rfl

theorem storeAfter_message {n : Node σ} {id : LinkId} {l : Link} (hl : n.links.get? id = some l)
    (m : Message) :
    n.storeAfter (.event (.message id m)) = ((duty n.store m).store?).getD n.store :=
  if_pos (Table.contains_eq_true.2 ⟨l, hl⟩)

variable [Outbound σ]

theorem store_detach (n : Node σ) (id : LinkId) : (n.detach id).1.store = n.store := by
  have key : ∀ {q : Node σ × List (Tag × String)}, n.Detached id q → q.1.store = n.store := by
    intro q hq
    cases hq <;> rfl
  exact key (n.detach_cases id)

theorem store_enter (n : Node σ) (kind : LinkKind) : (n.enter kind).1.store = n.store := by
  have key : ∀ {q : Node σ × List (Tag × String)}, n.Entered kind q → q.1.store = n.store := by
    intro q hq
    cases hq with
    | plain | alone => rfl
    | instead => exact store_detach _ _
  exact key (n.enter_cases kind)

theorem store_fulfil {n told : Node σ} {r : LinkId × Nat} {m : Message} {refused : Option LinkId}
    (h : n.fulfil (some r) m = (told, refused)) : told.store = n.store := by
  have key : ∀ {q : Node σ × Option LinkId}, n.Fulfilled r.1 r.2 m q → q.1.store = n.store := by
    intro q hq
    cases hq <;> rfl
  have hq := key (n.fulfil_cases r.1 r.2 m)
  rwa [h] at hq

end Node

variable [Outbound σ]

theorem Phase.Move.store {p q : Phase σ} (hm : p.Move q) : q.node.store = p.node.store := by
  cases hm with
  | skip => rfl
  | release => exact Node.store_release _ _
  | tell hf => exact Node.store_fulfil hf
  | refuse hf => exact (Node.store_detach _ _).trans (Node.store_fulfil hf)

theorem Node.Opens.store {n : Node σ} {a : Action σ} {p : Phase σ} (ho : n.Opens a p) :
    p.node.store = n.storeAfter a := by
  cases ho with
  | elapse | rewire | expire => rfl
  | enter kind => exact store_enter n kind
  | close id => exact store_detach n id
  | @trail id m hl =>
    refine (if_neg fun hc => ?_).symm
    obtain ⟨l, hl'⟩ := Table.contains_eq_true.1 hc
    cases hl.symm.trans hl'
  | answer hl hd | orphan hl hd | forward hl hd | refuse hl hd =>
    rw [storeAfter_message hl, hd]
    rfl
  | choke hl hd =>
    rw [storeAfter_message hl, hd]
    exact store_detach _ _
  | sever hl hd =>
    rw [storeAfter_message hl, hd]
    exact store_detach _ _
  | settle hl hd =>
    rw [storeAfter_message hl, hd]
    exact store_release _ _

theorem Node.store_act (n : Node σ) (a : Action σ) : (n.act a).store = n.storeAfter a := by
  obtain ⟨p, ho, hm⟩ := n.act_opens a
  rw [← ho.store]
  exact hm.keeps (P := fun q => q.node.store = p.node.store) (fun hm hp => hm.store.trans hp) rfl

/-- A request that is answered at once changes the store, and its answer goes out. -/
theorem Node.act_answer {n : Node σ} {id : LinkId} {l : Link} {m reply : Message} {store : Store}
    {wires : σ} (hl : n.links.get? id = some l) (hd : duty n.store m = .answer store reply)
    (hw : l.send n.wires (Frame.ofMessage reply) = (wires, none)) :
    n.act (.event (.message id m)) = { n with store, wires } := by
  have hid : n.links.contains id = true := Table.contains_eq_true.2 ⟨l, hl⟩
  show n.receive id m = _
  simp only [receive, hid, if_true, hd, answer, hl, hw]

end Depot
