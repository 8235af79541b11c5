/-
  Depot — cascades.

  Closing a link fails requests, each failure is told to a link, and a link that refuses to be
  told is closed in turn, while the loop over the failures of the first is still under way.
  `Cascade` is that recursion with its calls on a stack, and `Cascade.step` does the next thing;
  in which order a loop goes through its requests is left open.

  With every link that goes there is one loop fewer still to come, so a cascade ends
  (`run_ends`).  `Accounts` and `Nested` say what all steps keep, and `outcome_run` that the
  calls do, step by step, what the functions of the node do.
-/
import Depot.Proofs.Node.Closed
import Depot.Proofs.Table

namespace Depot

variable {σ : Type u}

/-! ## Requests that are over -/

namespace Node

variable [Outbound σ]

/-- A request is over if it still waits: it leaves the table, its tag goes back, and its
    requester is told. -/
def finish (n : Node σ) (tag : Tag) (m : Message) : Node σ :=
  match n.waiting.get? tag with
  | none => n
  | some o => (n.release tag).tell o.requester m

/-- Requests are over, one after the other. -/
def finishAll (n : Node σ) (due : List (Tag × Message)) : Node σ :=
  due.foldl (fun n e => n.finish e.1 e.2) n

end Node

/-- What the requesters of failed requests are told. -/
def failures (lost : List (Tag × String)) : List (Tag × Message) :=
  lost.map fun e => (e.1, Message.failure e.2)

namespace Node

variable [Outbound σ]

theorem failAll_append (n : Node σ) (lost more : List (Tag × String)) :
    n.failAll (lost ++ more) = (n.failAll lost).failAll more := by
  induction n, lost using failAll.induct with
  | case1 n => rw [List.nil_append, failAll.eq_1 n]
  | case2 n tag text work failed ih =>
    rw [List.cons_append, failAll, failAll, ← List.append_assoc]
    exact ih

/-- A request that fails is over, and what fails with the link that refuses to be told comes
    before the next. -/
theorem failAll_singleton (n : Node σ) (tag : Tag) (text : String) :
    n.failAll [(tag, text)] = n.finish tag (Message.failure text) := by
  rw [failAll, List.append_nil, finish, fail]
  cases n.waiting.get? tag with
  | none => exact failAll.eq_1 n
  | some o =>
    dsimp only
    rw [tell]
    cases (n.release tag).fulfil o.requester (Message.failure text) with
    | mk told refused =>
      cases refused with
      | none => exact failAll.eq_1 told
      | some id => rfl

theorem failAll_eq (n : Node σ) (lost : List (Tag × String)) :
    n.failAll lost = n.finishAll (failures lost) := by
  induction lost generalizing n with
  | nil => exact failAll.eq_1 n
  | cons e lost ih =>
    rw [show e :: lost = [(e.1, e.2)] ++ lost from rfl, failAll_append, failAll_singleton, ih]
    rfl

/-- To close a link is to take it out and to go through the requests that fail with it. -/
theorem close_eq (n : Node σ) (id : LinkId) :
    n.close id = (n.detach id).1.finishAll (failures (n.detach id).2) :=
  failAll_eq _ _

theorem close_absent {n : Node σ} {id : LinkId} (h : n.links.get? id = none) : n.close id = n :=
  act_gone (e := .closed id none) h

end Node

/-! ## Cascades -/

/-- A call that is to be made, or what is left of one. -/
inductive Call where
  /-- Close a link. -/
  | close (id : LinkId)
  /-- Hand a reply to its requester. -/
  | tell (requester : Option (LinkId × Nat)) (m : Message)
  /-- Go through requests that are over.  `left` is how many links there were when this loop
      began. -/
  | finish (left : Nat) (due : List (Tag × Message))

namespace Call

/-- How many links there were when the loop began. -/
def left? : Call → Option Nat
  | finish left _ => some left
  | _ => none

/-- The most steps that the call takes, but for loops of other calls. -/
def weight : Call → Nat
  | close _ => 1
  | tell _ _ => 2
  | finish _ due => 3 * due.length + 1

end Call

/-- A node in the middle of a cascade. -/
structure Cascade (σ : Type u) where
  node : Node σ
  /-- The calls, next one first.  A loop waits for the calls before it. -/
  calls : List Call := []
  /-- The links taken out so far, last one first. -/
  closed : List LinkId := []
  /-- The requests over so far, last one first. -/
  ended : List Tag := []

namespace Cascade

/-- How many links there were when each loop that is under way began, innermost loop first. -/
def lefts (c : Cascade σ) : List Nat := c.calls.filterMap Call.left?

/-- A bound on the steps that are left: every link can still bring a loop over all requests. -/
def most (c : Cascade σ) : Nat :=
  c.node.links.size * (3 * c.node.waiting.size + 1) + (c.calls.map Call.weight).sum

variable [Outbound σ]

/-- Do the next thing.  Of the requests that a loop has still to go through, `pick` says which
    one comes next. -/
def step (c : Cascade σ) (pick : Nat) : Cascade σ :=
  match c.calls with
  | [] => c
  | .close id :: calls =>
    if c.node.links.contains id then
      let gone := c.node.detach id
      { c with
        node := gone.1
        calls := .finish gone.1.links.size (failures gone.2) :: calls
        closed := id :: c.closed }
    else { c with calls }
  | .tell requester m :: calls =>
    match c.node.fulfil requester m with
    | (node, none) => { c with node, calls }
    | (node, some id) => { c with node, calls := .close id :: calls }
  | .finish left due :: calls =>
    match due[pick % due.length]? with
    | none => { c with calls }
    | some (tag, m) =>
      let calls := .finish left (due.eraseIdx (pick % due.length)) :: calls
      match c.node.waiting.get? tag with
      | none => { c with calls }
      | some o =>
        { c with
          node := c.node.release tag
          calls := .tell o.requester m :: calls
          ended := tag :: c.ended }

/-- Go on step by step. -/
def run (c : Cascade σ) (picks : List Nat) : Cascade σ := picks.foldl step c

/-- The outcomes of a step. -/
inductive Stepped (c : Cascade σ) : Cascade σ → Prop
  | idle (h : c.calls = []) : Stepped c c
  /-- The link is gone already. -/
  | gone {id : LinkId} {calls : List Call} (h : c.calls = .close id :: calls)
      (hid : c.node.links.contains id = false) : Stepped c { c with calls }
  | close {id : LinkId} {calls : List Call} (h : c.calls = .close id :: calls)
      (hid : c.node.links.contains id = true) :
      Stepped c
        { c with
          node := (c.node.detach id).1
          calls := .finish (c.node.detach id).1.links.size (failures (c.node.detach id).2) :: calls
          closed := id :: c.closed }
  | tell {requester : Option (LinkId × Nat)} {m : Message} {calls : List Call} {told : Node σ}
      (h : c.calls = .tell requester m :: calls) (hf : c.node.fulfil requester m = (told, none)) :
      Stepped c { c with node := told, calls }
  | refuse {requester : Option (LinkId × Nat)} {m : Message} {calls : List Call} {told : Node σ}
      {id : LinkId} (h : c.calls = .tell requester m :: calls)
      (hf : c.node.fulfil requester m = (told, some id)) :
      Stepped c { c with node := told, calls := .close id :: calls }
  /-- The loop is over. -/
  | leave {left : Nat} {calls : List Call} (h : c.calls = .finish left [] :: calls) :
      Stepped c { c with calls }
  /-- The request does not wait any more. -/
  | skip {left : Nat} {tag : Tag} {m : Message} {before after : List (Tag × Message)}
      {calls : List Call} (h : c.calls = .finish left (before ++ (tag, m) :: after) :: calls)
      (hw : c.node.waiting.get? tag = none) :
      Stepped c { c with calls := .finish left (before ++ after) :: calls }
  | finish {left : Nat} {tag : Tag} {m : Message} {before after : List (Tag × Message)}
      {calls : List Call} {o : PendingRequest}
      (h : c.calls = .finish left (before ++ (tag, m) :: after) :: calls)
      (ho : c.node.waiting.get? tag = some o) :
      Stepped c
        { c with
          node := c.node.release tag
          calls := .tell o.requester m :: .finish left (before ++ after) :: calls
          ended := tag :: c.ended }

theorem step_cases (c : Cascade σ) (pick : Nat) : c.Stepped (c.step pick) := by
  unfold step
  split
  · rename_i h
    exact .idle h
  · rename_i id calls h
    split
    · rename_i hid
      exact .close h hid
    · rename_i hid
      exact .gone h (Bool.eq_false_iff.2 hid)
  · rename_i requester m calls h
    split
    · rename_i hf
      exact .tell h hf
    · rename_i hf
      exact .refuse h hf
  · rename_i left due calls h
    split
    · rename_i hget
      have hdue : due = [] := by
        by_contra hne
        have hlt := Nat.mod_lt pick (List.length_pos_iff.2 hne)
        exact absurd (List.getElem?_eq_none_iff.1 hget) (Nat.not_le.2 hlt)
      subst hdue
      exact .leave h
    · rename_i tag m hget
      obtain ⟨hlt, hm⟩ := List.getElem?_eq_some_iff.1 hget
      have hsplit : due = due.take (pick % due.length) ++
          (tag, m) :: due.drop (pick % due.length + 1) := by
        rw [← hm, List.getElem_cons_drop, List.take_append_drop]
      rw [hsplit] at h
      rw [List.eraseIdx_eq_take_drop_succ]
      dsimp only
      split
      · rename_i hw
        exact .skip h hw
      · rename_i o ho
        exact .finish h ho

end Cascade

/-! ## What a step takes -/

namespace Node

variable {n told : Node σ} {tag : Tag} {requester : Option (LinkId × Nat)} {m : Message}
  {refused : Option LinkId} {id : LinkId}

/-- A request that is over leaves the table, and nothing else does. -/
theorem perm_keys_release {o : PendingRequest} (h : n.waiting.get? tag = some o) :
    (tag :: (n.release tag).waiting.keys).Perm n.waiting.keys := by
  rw [waiting_release]
  exact Table.perm_keys_erase h

variable [Outbound σ]

/-- Whoever is told, the links stay, and so do the requests that wait. -/
theorem fulfil_stays (h : n.fulfil requester m = (told, refused)) :
    told.links.keys = n.links.keys ∧ told.waiting = n.waiting := by
  cases requester with
  | none =>
    cases h
    exact ⟨rfl, rfl⟩
  | some r =>
    have key : ∀ {q : Node σ × Option LinkId}, n.Fulfilled r.1 r.2 m q →
        q.1.links.keys = n.links.keys ∧ q.1.waiting = n.waiting := by
      intro q hq
      cases hq with
      | gone => exact ⟨rfl, rfl⟩
      | stray | kept => exact ⟨Table.keys_map _ _, rfl⟩
    have hq := key (fulfil_cases n r.1 r.2 m)
    rwa [h] at hq

/-- A link that goes leaves the table, and nothing else does. -/
theorem perm_keys_detach (h : n.links.contains id = true) :
    (id :: (n.detach id).1.links.keys).Perm n.links.keys := by
  obtain ⟨l, hl⟩ := Table.contains_eq_true.1 h
  have key : ∀ {q : Node σ × List (Tag × String)}, n.Detached id q →
      (id :: q.1.links.keys).Perm n.links.keys := by
    intro q hq
    cases hq with
    | absent hnone =>
      rw [hnone] at hl
      cases hl
    | idle | client | dialed | accepted => exact Table.perm_keys_erase hl
  exact key (detach_cases n id)

theorem size_links_detach_of_mem (h : n.links.contains id = true) :
    (n.detach id).1.links.size + 1 = n.links.size := by
  rw [← Table.length_keys, ← Table.length_keys, ← (perm_keys_detach h).length_eq]
  rfl

/-- With a link go no requests, only its name. -/
theorem waiting_detach (n : Node σ) (id : LinkId) :
    (n.detach id).1.waiting = n.waiting ∨
      (n.detach id).1.waiting = n.waiting.map fun _ o => o.forget id := by
  have key : ∀ {q : Node σ × List (Tag × String)}, n.Detached id q →
      q.1.waiting = n.waiting ∨ q.1.waiting = n.waiting.map fun _ o => o.forget id := by
    intro q hq
    cases hq with
    | client => exact .inr rfl
    | absent | idle | dialed | accepted => exact .inl rfl
  exact key (detach_cases n id)

theorem keys_waiting_detach (n : Node σ) (id : LinkId) :
    (n.detach id).1.waiting.keys = n.waiting.keys := by
  rcases n.waiting_detach id with h | h
  · rw [h]
  · rw [h, Table.keys_map]

/-- The requests that fail with a link are among those that wait. -/
theorem length_lost_le (n : Node σ) (id : LinkId) :
    (n.detach id).2.length ≤ n.waiting.size := by
  have key : ∀ {q : Node σ × List (Tag × String)}, n.Detached id q →
      q.2.length ≤ n.waiting.size := by
    intro q hq
    cases hq with
    | dialed =>
      rw [List.length_map]
      exact List.length_filter_le _ _
    | absent | idle | client | accepted => exact Nat.zero_le _
  exact key (detach_cases n id)

end Node

/-! ## What all steps keep -/

namespace Cascade

variable {c m : Cascade σ}

/-- On the way from `c` to `m` every link went at most once, every request was over at most
    once, and none came up: those that still wait are as they were, but for requesters whose
    links went. -/
structure Accounts (c m : Cascade σ) : Prop where
  links : (m.closed ++ m.node.links.keys).Perm c.node.links.keys
  waiting : (m.ended ++ m.node.waiting.keys).Perm c.node.waiting.keys
  kept : ∀ tag o', m.node.waiting.get? tag = some o' →
    ∃ o, c.node.waiting.get? tag = some o ∧
      (o' = o ∨ o' = { o with requester := none } ∧
        ∃ r, o.requester = some r ∧ r.1 ∈ m.closed)

/-- A loop that is under way began with more links than any loop within it, and with no fewer
    than there are now. -/
structure Nested (c : Cascade σ) : Prop where
  lefts : c.lefts.Pairwise (· < ·)
  within : ∀ left ∈ c.lefts, c.node.links.size ≤ left

namespace Accounts

theorem start (hc : c.closed = []) (he : c.ended = []) : c.Accounts c := by
  refine ⟨?_, ?_, fun _ o ho => ⟨o, ho, .inl rfl⟩⟩
  · rw [hc]
    exact .refl _
  · rw [he]
    exact .refl _

/-- Nothing goes. -/
theorem same {m' : Cascade σ} (h : c.Accounts m) (hl : m'.node.links.keys = m.node.links.keys)
    (hw : m'.node.waiting = m.node.waiting) (hc : m'.closed = m.closed := by rfl)
    (he : m'.ended = m.ended := by rfl) : c.Accounts m' := by
  refine ⟨?_, ?_, ?_⟩
  · rw [hc, hl]
    exact h.links
  · rw [he, hw]
    exact h.waiting
  · rw [hw, hc]
    exact h.kept

/-- A request is over. -/
theorem release {tag : Tag} {o : PendingRequest} {calls : List Call} (h : c.Accounts m)
    (ho : m.node.waiting.get? tag = some o) :
    c.Accounts ⟨m.node.release tag, calls, m.closed, tag :: m.ended⟩ := by
  refine ⟨?_, ?_, fun t o' ho' => ?_⟩
  · show (m.closed ++ (m.node.release tag).links.keys).Perm _
    rw [Node.links_release]
    exact h.links
  · have hover := (Node.perm_keys_release ho).append_left m.ended
    exact List.perm_middle.symm.trans (hover.trans h.waiting)
  · replace ho' : (m.node.release tag).waiting.get? t = some o' := ho'
    rw [Node.waiting_release, Table.get?_erase] at ho'
    split at ho'
    · cases ho'
    · exact h.kept t o' ho'

variable [Outbound σ]

/-- A link goes. -/
theorem detach {id : LinkId} {calls : List Call} (h : c.Accounts m)
    (hid : m.node.links.contains id = true) :
    c.Accounts ⟨(m.node.detach id).1, calls, id :: m.closed, m.ended⟩ := by
  refine ⟨?_, ?_, fun tag o' ho' => ?_⟩
  · have hgone := (Node.perm_keys_detach hid).append_left m.closed
    exact List.perm_middle.symm.trans (hgone.trans h.links)
  · show (m.ended ++ (m.node.detach id).1.waiting.keys).Perm _
    rw [Node.keys_waiting_detach]
    exact h.waiting
  · rcases m.node.waiting_detach id with hw | hw
    · obtain ⟨o, ho, hor⟩ := h.kept tag o' (hw ▸ ho')
      refine ⟨o, ho, hor.imp_right ?_⟩
      rintro ⟨rfl, r, hr, hin⟩
      exact ⟨rfl, r, hr, List.mem_cons_of_mem _ hin⟩
    · replace ho' : (m.node.detach id).1.waiting.get? tag = some o' := ho'
      rw [hw, Table.get?_map, Option.map_eq_some_iff] at ho'
      obtain ⟨o₁, ho₁, rfl⟩ := ho'
      obtain ⟨o, ho, rfl | ⟨rfl, r, hr, hin⟩⟩ := h.kept tag o₁ ho₁
      · refine ⟨o₁, ho, ?_⟩
        unfold PendingRequest.forget
        split
        · rename_i hany
          obtain ⟨r, hr, hlink⟩ := (Option.any_eq_true _ _).1 hany
          exact .inr ⟨rfl, r, hr, List.mem_cons.2 (.inl (of_decide_eq_true hlink))⟩
        · exact .inl rfl
      · exact ⟨o, ho, .inr ⟨rfl, r, hr, List.mem_cons_of_mem _ hin⟩⟩

theorem step {m' : Cascade σ} (hm : m.Stepped m') (h : c.Accounts m) : c.Accounts m' := by
  cases hm with
  | idle => exact h
  | gone | leave | skip => exact h.same rfl rfl
  | tell _ hf | refuse _ hf =>
    obtain ⟨hlinks, hwaiting⟩ := Node.fulfil_stays hf
    exact h.same hlinks hwaiting
  | close _ hid => exact h.detach hid
  | finish _ ho => exact h.release ho

end Accounts

variable [Outbound σ]

namespace Nested

theorem step (hm : c.Stepped m) (h : c.Nested) : m.Nested := by
  obtain ⟨hlefts, hwithin⟩ := h
  rw [Cascade.lefts] at hlefts hwithin
  cases hm with
  | idle => exact ⟨hlefts, hwithin⟩
  | gone h | skip h =>
    rw [h] at hlefts hwithin
    exact ⟨hlefts, hwithin⟩
  | @tell requester msg calls told h hf | @refuse requester msg calls told id h hf =>
    have hsize := Node.size_links_fulfil c.node requester msg
    rw [hf] at hsize
    rw [h] at hlefts hwithin
    exact ⟨hlefts, fun left hin => hsize.trans_le (hwithin left hin)⟩
  | leave h =>
    rw [h] at hlefts hwithin
    exact ⟨(List.pairwise_cons.1 hlefts).2, fun left hin => hwithin left (List.mem_cons_of_mem _ hin)⟩
  | @finish left tag msg before after calls o h =>
    rw [h] at hlefts hwithin
    refine ⟨hlefts, fun l hin => ?_⟩
    show (c.node.release tag).links.size ≤ l
    rw [Node.links_release]
    exact hwithin l hin
  | @close id calls h hid =>
    have hsize := Nat.lt_of_succ_le (Node.size_links_detach_of_mem hid).le
    rw [h] at hlefts hwithin
    refine ⟨List.pairwise_cons.2 ⟨fun left hin => hsize.trans_le (hwithin left hin), hlefts⟩,
      fun left hin => ?_⟩
    rcases List.mem_cons.1 hin with rfl | hin
    · exact Nat.le_refl _
    · exact hsize.le.trans (hwithin left hin)

end Nested

/-- Every step takes one of those that are left. -/
theorem Stepped.most_lt (h : c.Stepped m) (hc : c.calls ≠ []) : m.most < c.most := by
  unfold most
  cases h with
  | idle h => exact absurd h hc
  | gone h | leave h =>
    simp only [h, List.map_cons, List.sum_cons, Call.weight]
    omega
  | @tell requester msg calls told h hf | @refuse requester msg calls told id h hf =>
    have hsize := Node.size_links_fulfil c.node requester msg
    rw [hf] at hsize
    simp only [h, hsize, (Node.fulfil_stays hf).2, List.map_cons, List.sum_cons, Call.weight]
    omega
  | skip h =>
    simp only [h, List.map_cons, List.sum_cons, Call.weight, List.length_append, List.length_cons]
    omega
  | @finish left tag msg before after calls o h ho =>
    have hsize : (c.node.release tag).waiting.size ≤ c.node.waiting.size := by
      rw [← Table.length_keys, ← Table.length_keys, ← (Node.perm_keys_release ho).length_eq]
      exact Nat.le_succ _
    have hmul := Nat.mul_le_mul_left c.node.links.size
      (Nat.add_le_add_right (Nat.mul_le_mul_left 3 hsize) 1)
    simp only [h, Node.links_release, List.map_cons, List.sum_cons, Call.weight,
      List.length_append, List.length_cons]
    omega
  | @close id calls h hid =>
    have hlinks := Node.size_links_detach_of_mem hid
    have hwaiting : (c.node.detach id).1.waiting.size = c.node.waiting.size := by
      rw [← Table.length_keys, Node.keys_waiting_detach, Table.length_keys]
    have hlost := c.node.length_lost_le id
    -- The link that goes pays for a loop over all requests.
    simp only [h, ← hlinks, hwaiting, List.map_cons, List.sum_cons, Call.weight, failures,
      List.length_map, Nat.succ_mul]
    omega

/-! ## Runs -/

theorem run_concat (c : Cascade σ) (picks : List Nat) (pick : Nat) :
    c.run (picks ++ [pick]) = (c.run picks).step pick :=
  List.foldl_concat ..

/-- What every step keeps, a run keeps. -/
theorem run_keeps {P : Cascade σ → Prop} (hP : ∀ {m m'}, Stepped m m' → P m → P m') (h : P c)
    (picks : List Nat) : P (c.run picks) := by
  induction picks using List.reverseRecOn with
  | nil => exact h
  | append_singleton picks pick ih =>
    rw [run_concat]
    exact hP (step_cases _ _) ih

theorem run_idle (h : c.calls = []) (picks : List Nat) : c.run picks = c := by
  induction picks with
  | nil => rfl
  | cons pick picks ih =>
    have hstep : c.step pick = c := by simp only [step, h]
    rw [run, List.foldl_cons, hstep]
    exact ih

/-- A cascade ends, in whatever order its loops go through their requests. -/
theorem run_ends {picks : List Nat} (h : c.most ≤ picks.length) : (c.run picks).calls = [] := by
  induction picks generalizing c with
  | nil =>
    by_contra hc
    exact Nat.not_lt_zero _ ((step_cases c 0).most_lt hc |>.trans_le h)
  | cons pick picks ih =>
    by_cases hc : c.calls = []
    · rw [run_idle hc, hc]
    · have hlt := (step_cases c pick).most_lt hc
      exact ih (Nat.le_of_lt_succ (hlt.trans_le h))

end Cascade

/-! ## What becomes of the node -/

variable [Outbound σ]

/-- What the functions of the node make of a call. -/
def Node.perform (n : Node σ) : Call → Node σ
  | .close id => n.close id
  | .tell requester m => n.tell requester m
  | .finish _ due => n.finishAll due

namespace Cascade

/-- The node once all calls are made. -/
def outcome (c : Cascade σ) : Node σ := c.calls.foldl Node.perform c.node

/-- Made step by step, the calls do what the functions of the node do. -/
theorem outcome_step (c : Cascade σ) : (c.step 0).outcome = c.outcome := by
  obtain ⟨n, calls, closed, ended⟩ := c
  cases calls with
  | nil => rfl
  | cons call calls =>
    cases call with
    | close id =>
      show _ = calls.foldl Node.perform (n.close id)
      simp only [step]
      split
      · rw [Node.close_eq]
        rfl
      · rename_i hid
        rw [Node.close_absent (by simpa [Table.contains] using hid)]
        rfl
    | tell requester m =>
      show _ = calls.foldl Node.perform (n.tell requester m)
      rw [Node.tell]
      simp only [step]
      cases n.fulfil requester m with
      | mk told refused => cases refused <;> rfl
    | finish left due =>
      cases due with
      | nil => rfl
      | cons e due =>
        show _ = calls.foldl Node.perform ((n.finish e.1 e.2).finishAll due)
        rw [Node.finish]
        simp only [step, Nat.zero_mod, List.getElem?_cons_zero, List.eraseIdx_cons_zero]
        cases n.waiting.get? e.1 <;> rfl

theorem outcome_run (c : Cascade σ) (k : Nat) :
    (c.run (List.replicate k 0)).outcome = c.outcome := by
  induction k with
  | zero => rfl
  | succ k ih => rw [List.replicate_succ', run_concat, outcome_step, ih]

end Cascade

end Depot
