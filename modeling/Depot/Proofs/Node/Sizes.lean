/-
  Depot — which frames fit.

  A reader takes frames up to a limit.  Whatever comes in fits, so every stored object
  fits into the reply to a lookup (`Store.Within`), and all that a node says but texts
  fits in turn.  Texts are not held to the limit: `run_fits_iff` says exactly which
  frames of a run fit, and `fits_missing` that the reply to a request for a key that is
  not there need not.
-/
import Depot.Proofs.Node.Mapped
import Depot.Proofs.Node.Said
import Depot.Proofs.Store
import Depot.Proofs.Text.Lossy
import Depot.Proofs.Wire.Framing

namespace Depot

variable {σ : Type u}

/-! ## Texts -/

/-- What is said of a key that is not there takes 17 bytes beside the key. -/
theorem length_noSuchKey (key : Bytes) :
    (Bytes.ofText (StoreError.noSuchKey key).message).length =
      (Bytes.ofText (Text.lossy key)).length + 17 := by
  have hbefore : (Bytes.ofText "object ").length = 7 := by decide
  have hafter : (Bytes.ofText " not found").length = 10 := rfl
  have htext : (StoreError.noSuchKey key).message =
      "object " ++ Text.lossy key ++ " not found" := rfl
  rw [htext, Bytes.ofText_append, Bytes.ofText_append]
  simp only [List.length_append, hbefore, hafter]
  omega

/-! ## Sizes of messages -/

/-- The text of a message that is no more than a text. -/
def Message.text? : Message → Option Bytes
  | client (.success text) | client (.failure text) => some text
  | peer _ (.success text) | peer _ (.failure text) => some text
  | _ => none

/-- The key that a message asks to look up or to delete. -/
def Message.key? : Message → Option Bytes
  | client (.lookup name) | client (.delete name) => some name
  | peer _ (.lookup name) | peer _ (.delete name) => some name
  | _ => none

theorem Frame.size_ofMessage (m : Message) : (ofMessage m).size = 4 + m.encodedLength := by
  rw [size_eq, bytes_ofMessage, length_frameBytes, Message.length_encode]

/-- The frame of the message is one that readers on its hop take, if nodes take frames of up
    to `limit` bytes from clients. -/
def Message.Fits (limit : UInt32) (m : Message) : Prop :=
  (Frame.ofMessage m).size ≤ (m.hop.frameLimit limit).toNat

instance (limit : UInt32) (m : Message) : Decidable (m.Fits limit) :=
  inferInstanceAs (Decidable (_ ≤ _))

section

variable {limit : UInt32} (h : limit.toNat + 4 < UInt32.size)
include h

theorem Hop.toNat_frameLimit (hop : Hop) :
    (hop.frameLimit limit).toNat + 1 = limit.toNat + hop.headerLength := by
  cases hop with
  | client => rfl
  | peer =>
    rw [frameLimit, Nat.min_eq_left (by omega), UInt32.toNat_ofNat_of_lt' h]
    rfl

/-- A message fits on either hop if its fields do. -/
theorem Message.fits_iff {m : Message} :
    m.Fits limit ↔ 5 + 4 * (m.fields.length - 1) + Bytes.total m.fields ≤ limit.toNat := by
  have := m.hop.toNat_frameLimit h
  rw [Fits, Frame.size_ofMessage, encodedLength]
  omega

/-- An object takes no more of a peer's frame than of a client's. -/
theorem Message.fits_store {tag : Tag} {name object : Bytes} :
    (peer tag (.store name object)).Fits limit ↔ (client (.store name object)).Fits limit := by
  rw [fits_iff h, fits_iff h]
  rfl

theorem Message.fits_text {m : Message} {text : Bytes} (hm : m.text? = some text) :
    m.Fits limit ↔ text.length + 5 ≤ limit.toNat := by
  have hfields : m.fields = [text] := by
    unfold text? at hm
    split at hm <;> cases hm <;> rfl
  rw [fits_iff h, hfields]
  simp only [List.length_singleton, Bytes.total]
  omega

end

/-! ## Stores -/

/-- Every object fits into the reply to a lookup. -/
def Store.Within (limit : UInt32) (s : Store) : Prop :=
  ∀ key found, s.get? key = some found → (Message.client (.store key found.data)).Fits limit

/-! ## What a node says -/

/-- A message of the hop of its link that fits unless it is a text. -/
def Message.Sized (limit : UInt32) (kind : LinkKind) (m : Message) : Prop :=
  m.hop = kind.hop ∧ (m.text? = none → m.Fits limit)

namespace Node

/-- A text of the hop, or what fits. -/
theorem sized_clientReply {α : Type} (limit : UInt32) (result : Except StoreError α)
    (success : String) : (clientReply result success).Sized limit .client := by
  cases result <;> exact ⟨rfl, nofun⟩

theorem sized_peerReply {α : Type} (limit : UInt32) (tag : Tag) (result : Except StoreError α)
    (success : String) : (peerReply tag result success).Sized limit .accepted := by
  cases result <;> exact ⟨rfl, nofun⟩

section

variable {limit : UInt32} {s store : Store} {m reply : Message}
  (hlimit : limit.toNat + 4 < UInt32.size) (hs : s.Within limit) (hm : m.Fits limit)
include hlimit hs hm

/-- The answer to a message that fits is of its hop, and fits unless it is a text. -/
theorem answer_sized (hd : duty s m = .answer store reply) :
    store.Within limit ∧ reply.hop = m.hop ∧ (reply.text? = none → reply.Fits limit) := by
  cases m with
  | client body =>
    cases body with
    | success | failure | peerStore =>
      cases hd
      exact ⟨hs, rfl, nofun⟩
    | lookup name =>
      cases hd
      refine ⟨hs, ?_⟩
      unfold lookupReply
      split
      · rename_i found hfound
        exact ⟨rfl, fun _ => hs name found hfound⟩
      · exact ⟨rfl, nofun⟩
    | store name object =>
      cases hd
      exact ⟨Store.Every.create hs hm, sized_clientReply ..⟩
    | delete name =>
      cases hd
      exact ⟨Store.Every.erase hs name, sized_clientReply ..⟩
    | peerLookup | peerDelete => cases hd
  | peer tag body =>
    cases body with
    | success | failure | store => cases hd
    | lookup name =>
      cases hd
      refine ⟨hs, ?_⟩
      unfold peerLookupReply
      split
      · rename_i found hfound
        exact ⟨rfl, fun _ => (Message.fits_store hlimit).2 (hs name found hfound)⟩
      · exact ⟨rfl, nofun⟩
    | delete name =>
      cases hd
      exact ⟨Store.Every.erase hs name, sized_peerReply ..⟩

/-- What a client is told of a reply that fits, fits unless it is a text. -/
theorem settle_sized {tag : Tag} (hd : duty s m = .settle tag store reply) :
    store.Within limit ∧ reply.Sized limit .client := by
  cases m with
  | client body => cases body <;> cases hd
  | peer tag body =>
    cases body with
    | lookup | delete => cases hd
    | success | failure =>
      cases hd
      exact ⟨hs, rfl, nofun⟩
    | store name object =>
      have hobject := (Message.fits_store hlimit).1 hm
      cases hd
      refine ⟨Store.Every.put hs hobject, ?_⟩
      unfold fetchedReply
      split
      · exact ⟨rfl, fun _ => hobject⟩
      · exact ⟨rfl, nofun⟩

omit hs in
/-- What is forwarded of a request that fits, fits. -/
theorem forward_sized {shard : ShardId} {request : PeerBody}
    (hd : duty s m = .forward shard request) (tag : Tag) :
    (Message.peer tag request).Sized limit (.dialed shard) := by
  have key : ∀ {name : Bytes}, 5 + 4 * (2 - 1) + Bytes.total [name, shardField shard] ≤ limit.toNat →
      5 + 4 * (1 - 1) + Bytes.total [name] ≤ limit.toNat := by
    intro name h
    simp only [Bytes.total] at h ⊢
    omega
  cases m with
  | client body =>
    cases body with
    | peerLookup | peerDelete =>
      cases hd
      exact ⟨rfl, fun _ => (Message.fits_iff hlimit).2 (key ((Message.fits_iff hlimit).1 hm))⟩
    | success | failure | lookup | store | delete | peerStore => cases hd
  | peer tag body => cases body <;> cases hd

end

end Node

/-! ## Runs -/

/-- Whether the message that the action brings, if it brings one, came in a frame that readers
    take. -/
def Action.isSized (limit : UInt32) : Action σ → Bool
  | .event (.message _ m) => decide (m.Fits limit)
  | _ => true

theorem Action.isSized_recorded (limit : UInt32) (a : Action σ) :
    a.recorded.isSized limit = a.isSized limit := by
  cases a with
  | event e => cases e <;> rfl
  | attach | expire | elapse | rewire => rfl

namespace Node

section

variable {n : Node σ} {a : Action σ} {limit : UInt32} (hlimit : limit.toNat + 4 < UInt32.size)
  (hs : n.store.Within limit) (ha : a.isSized limit = true)
include hlimit hs ha

theorem voices_sized (hadmits : n.admits a = true) : n.Voices (Message.Sized limit) a where
  answer := by
    rintro id l m store reply rfl hl hd
    obtain ⟨-, hhop, hfits⟩ := answer_sized hlimit hs (of_decide_eq_true ha) hd
    have hop : m.hop = l.kind.hop := by simpa [admits, hl] using hadmits
    exact ⟨hhop.trans hop, hfits⟩
  forward := by
    rintro id l m shard request rfl hl hd tag
    exact forward_sized hlimit (of_decide_eq_true ha) hd tag
  settle := by
    rintro id l m tag store reply rfl hl hd
    exact (settle_sized hlimit hs (of_decide_eq_true ha) hd).2
  failure _ := ⟨rfl, nofun⟩

theorem storeAfter_within : (n.storeAfter a).Within limit := by
  unfold storeAfter
  split
  · rename_i id m
    split
    · cases hd : duty n.store m with
      | answer store reply => exact (answer_sized hlimit hs (of_decide_eq_true ha) hd).1
      | settle tag store reply => exact (settle_sized hlimit hs (of_decide_eq_true ha) hd).1
      | forward shard request => exact hs
    · exact hs
  · exact hs

end

variable [Outbound σ]

/-- What the links of a node took is of their hop and fits unless it is a text, and its objects
    fit. -/
theorem run_sized {c : Config} {wires : σ} {actions : List (Action σ)}
    (hlimit : c.frameLimit.toNat + 4 < UInt32.size)
    (h : (ofConfig c wires).admitsAll actions = true)
    (hs : actions.all (Action.isSized c.frameLimit) = true) :
    let n := (ofConfig c wires).recorded.run (actions.map Action.recorded)
    n.Says (Message.Sized c.frameLimit) (kindsOf actions) ∧ n.store.Within c.frameLimit := by
  induction actions using List.reverseRecOn with
  | nil => exact ⟨⟨rfl, nofun, nofun, nofun⟩, nofun⟩
  | append_singleton actions a ih =>
    have hrec := (admitsAll_recorded (ofConfig c wires) (actions ++ [a])).trans h
    rw [List.map_append, List.map_singleton, admitsAll_concat, Bool.and_eq_true] at hrec
    rw [admitsAll_concat, Bool.and_eq_true] at h
    rw [List.all_append, Bool.and_eq_true] at hs
    obtain ⟨hsaid, hwithin⟩ := ih h.1 hs.1
    have ha : a.recorded.isSized c.frameLimit = true := by
      rw [Action.isSized_recorded]
      simpa using hs.2
    have hm : Phase.Matched
        ⟨(ofConfig c wires).recorded.run (actions.map Action.recorded), [], []⟩ :=
      Phase.Matched.run hrec.1
    dsimp only
    rw [List.map_append, List.map_singleton, run_concat, kindsOf_concat, ← Action.kind?_recorded]
    refine ⟨hsaid.act hrec.2 (Phase.Coherent.run c _ _) hm
      (voices_sized hlimit hwithin ha hrec.2) fun f hf => Action.takenOn_recorded hf, ?_⟩
    rw [store_act]
    exact storeAfter_within hlimit hwithin ha

/-- A request for a key that is not there is answered with a text that quotes the key. -/
theorem missing_fits_iff {limit : UInt32} (hlimit : limit.toNat + 4 < UInt32.size) {s : Store}
    {m : Message} {key : Bytes} (hkey : m.key? = some key) (hnone : s.get? key = none) :
    ∃ reply, m.direct? s = some reply ∧ reply.hop = m.hop ∧
      (reply.Fits limit ↔ (Bytes.ofText (Text.lossy key)).length + 22 ≤ limit.toNat) := by
  have hlen := length_noSuchKey key
  have hfits : ∀ {reply : Message},
      reply.text? = some (Bytes.ofText (StoreError.noSuchKey key).message) →
      (reply.Fits limit ↔ (Bytes.ofText (Text.lossy key)).length + 22 ≤ limit.toNat) := by
    intro reply htext
    rw [Message.fits_text hlimit htext, hlen]
  cases m with
  | client body =>
    cases body with
    | lookup name =>
      cases hkey
      refine ⟨Message.failure (StoreError.noSuchKey key).message, ?_, rfl, hfits rfl⟩
      simp [Message.direct?, hnone]
    | delete name =>
      cases hkey
      refine ⟨Message.failure (StoreError.noSuchKey key).message, ?_, rfl, hfits rfl⟩
      simp [Message.direct?, hnone]
    | success | failure | store | peerLookup | peerStore | peerDelete => cases hkey
  | peer tag body =>
    cases body with
    | lookup name =>
      cases hkey
      refine ⟨Message.peerFailure tag (StoreError.noSuchKey key).message, ?_, rfl, hfits rfl⟩
      simp [Message.direct?, hnone]
    | delete name =>
      cases hkey
      refine ⟨Message.peerFailure tag (StoreError.noSuchKey key).message, ?_, rfl, hfits rfl⟩
      simp [Message.direct?, hnone]
    | success | failure | store => cases hkey

/-- Of the frames that the links of a node take, in a run in which all that comes in fits,
    exactly those fit that are no texts or short ones, and then the length field is right.
    The reply to a request for a key that is not there fits exactly if the key, as it is
    quoted, leaves room for the rest of the text; it is sent whether it fits or not. -/
theorem run_fits_iff {c : Config} {wires : σ} {actions : List (Action σ)}
    (hlimit : c.frameLimit.toNat + 4 < UInt32.size)
    (h : (ofConfig c wires).admitsAll actions = true)
    (hs : actions.all (Action.isSized c.frameLimit) = true) :
    let n := (ofConfig c wires).recorded.run (actions.map Action.recorded)
    n.through Recorded.wires = (ofConfig c wires).run actions ∧
      (∀ id l f, n.links.get? id = some l → f ∈ n.wires.takenOn id →
        ∃ m, f = Frame.ofMessage m ∧ m.hop = l.kind.hop ∧
          (m.Fits c.frameLimit ↔
            ∀ text, m.text? = some text → text.length + 5 ≤ c.frameLimit.toNat) ∧
          (m.Fits c.frameLimit → Bytes.le32? f.bytes = some f.bytes.length)) ∧
      ∀ id m key, n.links.contains id = true → m.key? = some key → n.store.get? key = none →
        ∃ reply, n.direct? id (.event (.message id m)) = some reply ∧ reply.hop = m.hop ∧
          (reply.Fits c.frameLimit ↔
            (Bytes.ofText (Text.lossy key)).length + 22 ≤ c.frameLimit.toNat) ∧
          let took := decide ((Outbound.offer n.wires id (Frame.ofMessage reply)).2 = .taken)
          (n.act (.event (.message id m))).wires.takenOn id =
            n.wires.takenOn id ++ if took then [Frame.ofMessage reply] else [] := by
  intro n
  obtain ⟨hsaid, -⟩ := run_sized hlimit h hs
  refine ⟨run_recorded _ actions, fun id l f hl hf => ?_, fun id m key hid hkey hnone => ?_⟩
  · obtain ⟨m, rfl, hhop, hfits⟩ := hsaid.taken id l f hl hf
    refine ⟨m, rfl, hhop, ?_, ?_⟩
    · cases ht : m.text? with
      | none => exact ⟨fun _ => nofun, fun _ => hfits ht⟩
      | some text =>
        rw [Message.fits_text hlimit ht]
        constructor
        · rintro hlen _ ⟨⟩
          exact hlen
        · exact fun hall => hall text rfl
    · intro hm
      rw [Message.Fits, Frame.size_eq, Frame.bytes_ofMessage, length_frameBytes] at hm
      have hfield := le32?_frameBytes (hm.trans_lt (UInt32.toNat_lt _)) []
      rwa [List.append_nil, ← length_frameBytes, ← Frame.bytes_ofMessage] at hfield
  · obtain ⟨reply, hreply, hhop, hfits⟩ := missing_fits_iff hlimit hkey hnone
    obtain ⟨store, hd⟩ := duty_answers_iff.2 hreply
    obtain ⟨l, hl⟩ := Table.contains_eq_true.1 hid
    refine ⟨reply, ?_, hhop, hfits, ?_⟩
    · rw [direct?, heard?, if_pos ⟨rfl, hid⟩]
      exact hreply
    · exact (act_answers (Phase.Coherent.run c _ _) hl hd).2

/-- Within the limit that a node has by default, the reply to a lookup of a short key fits. -/
theorem run_fits_iff_lookup :
    let n := (ofConfig {} ()).recorded.run (lookupRun.map Action.recorded)
    let lookup : Action (Recorded Unit) := .event (.message 0 (.client (.lookup [97])))
    (ofConfig {} ()).admitsAll lookupRun = true ∧
      ∃ reply : Message, reply.Fits Deframer.defaultLimit ∧
        (n.act lookup).wires.takenOn 0 = n.wires.takenOn 0 ++ [Frame.ofMessage reply] := by
  have ha : (ofConfig {} ()).admitsAll lookupRun = true := by cbv
  obtain ⟨-, -, hmissing⟩ := @run_fits_iff Unit _ {} () lookupRun (by decide) ha (by decide)
  obtain ⟨reply, -, -, hfits, htaken⟩ :=
    hmissing 0 (.client (.lookup [97])) [97] (by cbv) rfl (by cbv)
  exact ⟨ha, reply, hfits.2 (by decide), htaken⟩

/-- A lookup of the empty key fits into the smallest frame that peers take; the reply does
    not. -/
theorem fits_missing :
    let c : Config := { frameLimit := 5 }
    let lookup : Message := .peer 0 (.lookup [])
    let reply := Message.peerFailure 0 (StoreError.noSuchKey []).message
    let actions : List (Action Unit) := [.attach .accepted, .event (.message 0 lookup)]
    c.check = .ok () ∧ (ofConfig c ()).admitsAll actions = true ∧ lookup.Fits c.frameLimit ∧
      ((ofConfig c ()).recorded.run (actions.map Action.recorded)).wires.takenOn 0 =
        [Frame.ofMessage reply] ∧
      ¬ reply.Fits c.frameLimit := by
  intro c lookup reply actions
  have hjoin : (ofConfig c ()).recorded.act (.attach .accepted) =
      (ofConfig c ()).recorded.join .accepted {} := by cbv
  have hact := @act_answer _ _ ((ofConfig c ()).recorded.join .accepted {}) 0
    { id := 0, kind := .accepted } lookup reply _ _ rfl rfl rfl
  refine ⟨by cbv, ?_, by decide, ?_, ?_⟩
  · show (true && (((ofConfig c ()).act (.attach .accepted)).admits
      (.event (.message 0 lookup)) && true)) = true
    cbv
  · show (((ofConfig c ()).recorded.act (.attach .accepted)).act
      (.event (.message 0 lookup))).wires.takenOn 0 = _
    rw [hjoin, hact]
    rfl
  · rw [Message.fits_text (by decide) rfl, length_noSuchKey]
    decide

end Node

end Depot
