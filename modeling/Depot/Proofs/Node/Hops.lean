/-
  Depot — what a node stores it can pass on.

  `Relayed limit hops` are the messages that readers tell and those, other than texts, that
  nodes with the same limit say to which only such messages come, through up to `hops` nodes.
  `run_passes_on` says that in a run to which only such messages come every object fits into
  the reply to a lookup, and that whatever the node says, other than texts, passes the next
  reader, however many nodes it came through.
-/
import Depot.Proofs.Link.Accepted

namespace Depot

universe u

variable {σ : Type u}

/-! ## Frames and their messages -/

section

variable {m m' : Message}

theorem Frame.encode_of_ofMessage (h : ofMessage m = ofMessage m') : m.encode = m'.encode := by
  have hbytes := congrArg bytes h
  rw [bytes_ofMessage, bytes_ofMessage] at hbytes
  exact (List.append_inj hbytes rfl).2

theorem Message.opcode_of_encode (hhop : m.hop = m'.hop) (h : m.encode = m'.encode) :
    m.opcode = m'.opcode := by
  have hbyte : m.opcode.wireByte = m'.opcode.wireByte := by
    rw [encode_eq, encode_eq] at h
    exact (List.cons.inj h).1
  have hm := ofWire?_eq_some_iff.2 ⟨hhop, hbyte⟩
  exact Option.some.inj (hm.symm.trans (Opcode.ofWire?_wireByte m'.opcode))

theorem Message.text?_of_opcode (h : m.opcode = m'.opcode) (ht : m.text? = none) :
    m'.text? = none := by
  cases m with
  | client body =>
    cases m' with
    | client body' => cases body <;> cases body' <;> simp_all [text?, opcode, ClientBody.verb]
    | peer => simp [opcode] at h
  | peer tag body =>
    cases m' with
    | client => simp [opcode] at h
    | peer tag' body' => cases body <;> cases body' <;> simp_all [text?, opcode, PeerBody.verb]

end

/-! ## From node to node -/

/-- The messages that come from readers or, other than texts, from nodes to which only such
    messages come, through up to so many nodes. -/
inductive Message.Relayed (limit : UInt32) : Nat → Message → Prop
  | accepted {hops : Nat} {m : Message} (h : m.Accepted limit) : Relayed limit hops m
  /-- A node says the message on one of its links. -/
  | said {σ : Type u} [Outbound σ] {c : Config} {wires : σ} {actions : List (Action σ)} {hops : Nat}
      {id : LinkId} {kind : LinkKind} {m : Message} (hc : c.frameLimit = limit)
      (ha : (Node.ofConfig c wires).admitsAll actions = true)
      (hm : ∀ link m', .event (.message link m') ∈ actions → Relayed limit hops m')
      (hk : (kindsOf actions)[id]? = some kind) (hhop : m.hop = kind.hop)
      (hf : Frame.ofMessage m ∈ ((Node.ofConfig c wires).recorded.run
        (actions.map Action.recorded)).wires.takenOn id)
      (ht : m.text? = none) : Relayed limit (hops + 1) m

theorem Action.all_isSized {limit : UInt32} {actions : List (Action σ)}
    (h : ∀ link m, .event (.message link m) ∈ actions → m.Fits limit) :
    actions.all (Action.isSized limit) = true := by
  rw [List.all_eq_true]
  intro a ha
  cases a with
  | attach | expire | elapse | rewire => rfl
  | event e =>
    cases e with
    | closed => rfl
    | message link m => exact decide_eq_true (h link m ha)

/-- If all that comes fits, all that is said but texts fits. -/
theorem Message.Relayed.fits {limit : UInt32} {hops : Nat} {m : Message}
    (hlimit : limit.toNat + 4 < UInt32.size) (h : m.Relayed limit hops) : m.Fits limit := by
  induction h with
  | accepted h => exact h.fits
  | @said σ _ c wires actions hops id kind m hc ha hm hk hhop hf ht ih =>
    subst hc
    obtain ⟨hsaid, -⟩ := Node.run_sized hlimit ha (Action.all_isSized ih)
    obtain ⟨kind', hk', m', hframe, hhop', hfits⟩ := hsaid.said id _ hf
    cases hk.symm.trans hk'
    have hop : m.hop = m'.hop := hhop.trans hhop'.symm
    have hopcode := Message.opcode_of_encode hop (Frame.encode_of_ofMessage hframe)
    have hfits' := hfits (Message.text?_of_opcode hopcode ht)
    rwa [Message.Fits, ← hframe, ← hop] at hfits'

variable [Outbound σ]

namespace Node

/-- In a run to which only messages come that readers tell or nodes with the same limit say,
    every object fits into the reply to a lookup.  Whatever is said but texts is within the
    limit, four bytes more between nodes, and the reader at the other end tells it, however
    many nodes it came through. -/
theorem run_passes_on {σ : Type u} [Outbound σ] {c : Config} {wires : σ}
    {actions : List (Action σ)} {hops : Nat} (hlimit : c.frameLimit.toNat + 4 < UInt32.size)
    (h : (ofConfig c wires).admitsAll actions = true)
    (hm : ∀ link m, .event (.message link m) ∈ actions →
      Message.Relayed.{u} c.frameLimit hops m) :
    let n := (ofConfig c wires).recorded.run (actions.map Action.recorded)
    let kinds := kindsOf actions
    n.through Recorded.wires = (ofConfig c wires).run actions ∧
      (∀ key found, n.store.get? key = some found →
        9 + key.length + found.data.length ≤ c.frameLimit.toNat) ∧
      (∀ id l, n.links.get? id = some l → kinds[id]? = some l.kind) ∧
      ∀ id f, f ∈ n.wires.takenOn id → ∃ kind m, kinds[id]? = some kind ∧
        f = Frame.ofMessage m ∧ m.hop = kind.hop ∧
        (m.text? = none →
          (kind = .client → f.bytes.length ≤ c.frameLimit.toNat) ∧
          f.bytes.length ≤ c.frameLimit.toNat + 4 ∧ m.Passes c.frameLimit ∧
          Message.Relayed.{u} c.frameLimit (hops + 1) m) := by
  intro n kinds
  have hfits : ∀ link m, .event (.message link m) ∈ actions → m.Fits c.frameLimit :=
    fun link m ha => (hm link m ha).fits hlimit
  obtain ⟨hsaid, hwithin⟩ := run_sized hlimit h (Action.all_isSized hfits)
  refine ⟨run_recorded _ actions, ?_, hsaid.links, ?_⟩
  · intro key found hfound
    have hobject := (Message.fits_iff hlimit).1 (hwithin key found hfound)
    simp only [Message.fields, List.length_cons, List.length_nil, Bytes.total] at hobject
    omega
  · intro id f hf
    obtain ⟨kind, hk, m, rfl, hhop, hsized⟩ := hsaid.said id f hf
    refine ⟨kind, m, hk, rfl, hhop, fun ht => ?_⟩
    have hframe : (Frame.ofMessage m).bytes.length + 1 ≤
        c.frameLimit.toNat + m.hop.headerLength := by
      rw [← m.hop.toNat_frameLimit hlimit, ← Frame.size_eq]
      exact Nat.succ_le_succ (hsized ht)
    refine ⟨?_, ?_, (hsized ht).passes, .said rfl h hm hk hhop hf ht⟩
    · rintro rfl
      rw [hhop] at hframe
      exact Nat.le_of_succ_le_succ hframe
    · have hheader : m.hop.headerLength ≤ 5 := by cases m.hop <;> decide
      omega

/-- A client asks for an object of another shard, which it gets. -/
def fetchRun : List (Action Unit) :=
  [.attach .client, .attach (.dialed 1), .event (.message 0 (.client (.peerLookup [97] 1))),
    .event (.message 1 (.peer 0 (.store [97] [1, 2, 3, 4])))]

/-- An object is fetched whose replies are as large as frames may be. -/
theorem run_passes_on_fetch :
    let c : Config := { frameLimit := 14 }
    let n := (ofConfig c ()).recorded.run (fetchRun.map Action.recorded)
    let reply : Message := .client (.store [97] [1, 2, 3, 4])
    (ofConfig c ()).admitsAll fetchRun = true ∧ n.store.get? [97] = some ⟨[1, 2, 3, 4], true⟩ ∧
      n.wires.takenOn 0 = [Frame.ofMessage reply] ∧
      (Frame.ofMessage reply).bytes.length = 14 ∧
      ∃ m, Frame.ofMessage m = Frame.ofMessage reply ∧ m.Passes 14 := by
  intro c n reply
  have ha : (ofConfig c ()).admitsAll fetchRun = true := by cbv
  have hm : ∀ link m, .event (.message link m) ∈ fetchRun →
      Message.Relayed.{0} c.frameLimit 0 m := by
    intro link m hin
    have hfits : m.Fits c.frameLimit := by
      simp only [fetchRun, List.mem_cons, List.not_mem_nil, or_false] at hin
      rcases hin with h | h | h | h <;> cases h <;> decide
    exact .accepted hfits.passes.accepted
  have htaken : n.wires.takenOn 0 = [Frame.ofMessage reply] := by
    simp only [n, c]
    cbv
  have hstored : n.store.get? [97] = some ⟨[1, 2, 3, 4], true⟩ := by
    simp only [n, c]
    cbv
  obtain ⟨-, -, -, hsaid⟩ := run_passes_on (by decide) ha hm
  obtain ⟨kind, m, hk, hframe, hhop, hpass⟩ := hsaid 0 (Frame.ofMessage reply) (by
    rw [htaken]
    exact List.mem_singleton_self _)
  have hclient : kind = .client := by
    rw [show kindsOf fetchRun = [.client, .dialed 1] from rfl] at hk
    simpa using hk.symm
  have hopcode := Message.opcode_of_encode (show reply.hop = m.hop by rw [hhop, hclient]; rfl)
    (Frame.encode_of_ofMessage hframe)
  refine ⟨ha, hstored, htaken, by decide, m, hframe.symm, ?_⟩
  exact (hpass (Message.text?_of_opcode hopcode rfl)).2.2.1

end Node

end Depot
