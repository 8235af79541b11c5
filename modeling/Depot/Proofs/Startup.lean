/-
  Depot — whom a node reaches when it comes up.

  Peers are dialed by ascending id, and each id is turned into a port first, also for an
  address that names its own.  Ports grow with the ids, so the ids with a port
  (`Config.HasPort`) come first: `dialAll_ascending` says that the peers with one are dialed,
  and that the first id without one ends it.  An address that names its port is dialed as it is
  exactly if the id of its shard has a port that nobody asks for (`dialPeers_dialed`).
-/
import Depot.Proofs.Net.Address
import Depot.Startup
import Mathlib

namespace Depot

namespace Config

/-- The port of a shard is one that there is. -/
def HasPort (c : Config) (shard : ShardId) : Prop :=
  c.peerPortBase.toNat + shard.toNat < UInt16.size

instance (c : Config) (shard : ShardId) : Decidable (c.HasPort shard) :=
  inferInstanceAs (Decidable (_ < _))

/-- What is said of a shard whose port is none. -/
def portFault (c : Config) (shard : ShardId) : Fault :=
  .invalid s!"peer port {c.peerPortBase} + {shard} is out of range"

theorem portOf_of_hasPort {c : Config} {shard : ShardId} (h : c.HasPort shard) :
    ∃ port, c.portOf shard = .ok port ∧ port.toNat = c.peerPortBase.toNat + shard.toNat :=
  ⟨_, if_pos h, Nat.mod_eq_of_lt h⟩

theorem portOf_of_not_hasPort {c : Config} {shard : ShardId} (h : ¬ c.HasPort shard) :
    c.portOf shard = .error (c.portFault shard) := if_neg h

/-- Ports grow with the ids. -/
theorem HasPort.mono {c : Config} {shard shard' : ShardId} (h : c.HasPort shard')
    (hle : shard ≤ shard') : c.HasPort shard :=
  Nat.lt_of_le_of_lt (Nat.add_le_add_left (UInt32.le_iff_toNat_le.1 hle) _) h

end Config

theorem PeerMap.mem_ascending {peers : PeerMap} {e : ShardId × String} :
    e ∈ peers.ascending ↔ peers.get? e.1 = some e.2 :=
  (List.mergeSort_perm ..).mem_iff.trans Table.mem_entries

theorem PeerMap.pairwise_ascending (peers : PeerMap) :
    peers.ascending.Pairwise fun a b => a.1 ≤ b.1 := by
  have htrans : ∀ a b d : ShardId × String, decide (a.1 ≤ b.1) = true →
      decide (b.1 ≤ d.1) = true → decide (a.1 ≤ d.1) = true := fun a b d hab hbd =>
    decide_eq_true (UInt32.le_trans (of_decide_eq_true hab) (of_decide_eq_true hbd))
  have htotal : ∀ a b : ShardId × String,
      (decide (a.1 ≤ b.1) || decide (b.1 ≤ a.1)) = true := fun a b => by
    simpa using UInt32.le_total a.1 b.1
  exact (List.pairwise_mergeSort htrans htotal peers.entries).imp of_decide_eq_true

namespace Startup

/-! ## Peers in turn -/

/-- The peer and the address that it is dialed at. -/
def dialed (c : Config) (e : ShardId × String) : ShardId × String :=
  (e.1, dialedAddress e.2 (c.peerPortBase.toNat + e.1.toNat))

/-- No dial that is tried fails. -/
def NoneFails (outcome : List (ShardId × String) × Option Fault) : Prop :=
  ∀ kind, outcome.2 ≠ some (.io kind)

variable {h : Host} {c : Config}

theorem dialAll_own (value : String) (rest : List (ShardId × String)) :
    dialAll h c ((c.shard, value) :: rest) = dialAll h c rest := if_pos rfl

theorem dialAll_portless {e : ShardId × String} (hother : e.1 ≠ c.shard)
    (hport : ¬ c.HasPort e.1) (rest : List (ShardId × String)) :
    dialAll h c (e :: rest) = ([], some (c.portFault e.1)) := by
  rw [dialAll, if_neg hother, Config.portOf_of_not_hasPort hport]

/-- A peer whose id has a port is dialed, and if that is done the others follow. -/
theorem dialAll_ported {e : ShardId × String} (hother : e.1 ≠ c.shard) (hport : c.HasPort e.1)
    {rest : List (ShardId × String)} (hnone : NoneFails (dialAll h c (e :: rest))) :
    NoneFails (dialAll h c rest) ∧ dialAll h c (e :: rest) =
      (dialed c e :: (dialAll h c rest).1, (dialAll h c rest).2) := by
  obtain ⟨port, hok, hport⟩ := Config.portOf_of_hasPort hport
  rw [dialAll, if_neg hother, hok] at hnone ⊢
  simp only [hport] at hnone ⊢
  cases hdial : h.dial (dialedAddress e.2 (c.peerPortBase.toNat + e.1.toNat)) with
  | error kind =>
    rw [hdial] at hnone
    exact absurd rfl (hnone kind)
  | ok reads =>
    rw [hdial] at hnone
    exact ⟨hnone, rfl⟩

/-- Of peers by ascending id those with a port are dialed, up to the first without one. -/
theorem dialAll_ascending {entries : List (ShardId × String)}
    (hsorted : entries.Pairwise fun a b => a.1 ≤ b.1) (hnone : NoneFails (dialAll h c entries)) :
    dialAll h c entries =
      ((entries.filter fun e => e.1 ≠ c.shard ∧ c.HasPort e.1).map (dialed c),
        (entries.find? fun e => e.1 ≠ c.shard ∧ ¬ c.HasPort e.1).map fun e => c.portFault e.1) := by
  induction hsorted with
  | nil => rfl
  | @cons e rest hleast hsorted ih =>
    by_cases hown : e.1 = c.shard
    · obtain ⟨shard, value⟩ := e
      cases hown
      rw [dialAll_own] at hnone ⊢
      simpa using ih hnone
    · by_cases hport : c.HasPort e.1
      · obtain ⟨hrest, hall⟩ := dialAll_ported hown hport hnone
        rw [hall, ih hrest]
        simp [hown, hport]
      · -- Ports grow with the ids, so no later peer has one either.
        have hlater : ∀ e' ∈ rest, e'.1 ≠ c.shard → ¬ c.HasPort e'.1 :=
          fun e' he' _ h' => hport (h'.mono (hleast e' he'))
        rw [dialAll_portless hown hport]
        simpa [hown, hport] using hlater

/-! ## All peers -/

/-- The peers name another node, given by `value`. -/
def Other (c : Config) (peers : PeerMap) (shard : ShardId) (value : String) : Prop :=
  peers.get? shard = some value ∧ shard ≠ c.shard

variable {peers : PeerMap}

theorem dialPeers_eq (hnone : NoneFails (dialPeers h c peers)) :
    dialPeers h c peers =
      ((peers.ascending.filter fun e => e.1 ≠ c.shard ∧ c.HasPort e.1).map (dialed c),
        (peers.ascending.find? fun e => e.1 ≠ c.shard ∧ ¬ c.HasPort e.1).map
          fun e => c.portFault e.1) :=
  dialAll_ascending peers.pairwise_ascending hnone

/-- The peers that are reached are those with a port. -/
theorem mem_dialPeers (hnone : NoneFails (dialPeers h c peers)) {shard : ShardId}
    {address : String} : (shard, address) ∈ (dialPeers h c peers).1 ↔
      ∃ value, Other c peers shard value ∧ c.HasPort shard ∧
        address = dialedAddress value (c.peerPortBase.toNat + shard.toNat) := by
  rw [dialPeers_eq hnone, List.mem_map]
  constructor
  · rintro ⟨⟨shard', value⟩, hmem, heq⟩
    obtain ⟨hmem, hkept⟩ := List.mem_filter.1 hmem
    obtain ⟨hother, hport⟩ := of_decide_eq_true hkept
    cases heq
    exact ⟨value, ⟨PeerMap.mem_ascending.1 hmem, hother⟩, hport, rfl⟩
  · rintro ⟨value, ⟨hget, hother⟩, hport, rfl⟩
    exact ⟨(shard, value), List.mem_filter.2 ⟨PeerMap.mem_ascending.2 hget,
      decide_eq_true ⟨hother, hport⟩⟩, rfl⟩

/-- What ends it is a peer without a port, whatever its address. -/
theorem dialPeers_fault (hnone : NoneFails (dialPeers h c peers)) {fault : Fault}
    (hfault : (dialPeers h c peers).2 = some fault) :
    ∃ shard value, Other c peers shard value ∧ ¬ c.HasPort shard ∧ fault = c.portFault shard := by
  rw [dialPeers_eq hnone] at hfault
  obtain ⟨⟨shard, value⟩, hfind, rfl⟩ := Option.map_eq_some_iff.1 hfault
  have hfirst := List.find?_some hfind
  obtain ⟨hother, hport⟩ := of_decide_eq_true hfirst
  have hget := PeerMap.mem_ascending.1 (List.mem_of_find?_eq_some hfind)
  exact ⟨shard, value, ⟨hget, hother⟩, hport, rfl⟩

theorem dialPeers_done_iff (hnone : NoneFails (dialPeers h c peers)) :
    (dialPeers h c peers).2 = none ↔
      ∀ shard value, Other c peers shard value → c.HasPort shard := by
  rw [dialPeers_eq hnone, Option.map_eq_none_iff, List.find?_eq_none]
  constructor
  · intro hall shard value hpeer
    by_contra hport
    exact hall (shard, value) (PeerMap.mem_ascending.2 hpeer.1)
      (decide_eq_true ⟨hpeer.2, hport⟩)
  · intro hall e hmem hkept
    obtain ⟨hother, hport⟩ := of_decide_eq_true hkept
    exact hport (hall e.1 e.2 ⟨PeerMap.mem_ascending.1 hmem, hother⟩)

/-- If no dial fails, the peers are dialed by ascending id as far as their ids have ports, one
    that names its port, such as a host written with a port, at exactly the address given, and
    the first without a port ends it.  So all those that name their ports are dialed, and only
    one that names none can end it, exactly if the ids of those that name theirs have ports
    too. -/
theorem dialPeers_dialed (hnone : NoneFails (dialPeers h c peers)) :
    dialPeers h c peers =
      ((peers.ascending.filter fun e => e.1 ≠ c.shard ∧ c.HasPort e.1).map (dialed c),
        (peers.ascending.find? fun e => e.1 ≠ c.shard ∧ ¬ c.HasPort e.1).map
          fun e => c.portFault e.1) ∧
    ((dialPeers h c peers).2 = none ↔
      ∀ shard value, Other c peers shard value → c.HasPort shard) ∧
    (∀ shard value, Other c peers shard value → NamesPort value → ∀ address,
      (shard, address) ∈ (dialPeers h c peers).1 ↔ c.HasPort shard ∧ address = value) ∧
    (∀ shard value, Other c peers shard value → HostPort value → ∀ address,
      (shard, address) ∈ (dialPeers h c peers).1 ↔ c.HasPort shard ∧ address = value) ∧
    ((∀ shard value, Other c peers shard value → NamesPort value →
        (shard, value) ∈ (dialPeers h c peers).1) ∧
      (∀ fault, (dialPeers h c peers).2 = some fault →
        ∃ shard value, Other c peers shard value ∧ ¬ NamesPort value ∧ ¬ c.HasPort shard) ↔
      ∀ shard value, Other c peers shard value → NamesPort value → c.HasPort shard) := by
  have hexplicit : ∀ shard value, Other c peers shard value → NamesPort value → ∀ address,
      (shard, address) ∈ (dialPeers h c peers).1 ↔ c.HasPort shard ∧ address = value := by
    intro shard value hpeer hnames address
    rw [mem_dialPeers hnone]
    constructor
    · rintro ⟨value', hpeer', hport, rfl⟩
      obtain rfl : value' = value := Option.some.inj (hpeer'.1.symm.trans hpeer.1)
      exact ⟨hport, dialedAddress_of_namesPort hnames _⟩
    · rintro ⟨hport, rfl⟩
      exact ⟨address, hpeer, hport, (dialedAddress_of_namesPort hnames _).symm⟩
  refine ⟨dialPeers_eq hnone, dialPeers_done_iff hnone, hexplicit,
    fun shard value hpeer hwritten => hexplicit shard value hpeer hwritten.namesPort, ?_,
    fun hall => ⟨?_, ?_⟩⟩
  · rintro ⟨hdialed, -⟩ shard value hpeer hnames
    exact ((hexplicit shard value hpeer hnames value).1 (hdialed shard value hpeer hnames)).1
  · intro shard value hpeer hnames
    exact (hexplicit shard value hpeer hnames value).2 ⟨hall shard value hpeer hnames, rfl⟩
  · intro fault hfault
    obtain ⟨shard, value, hpeer, hport, -⟩ := dialPeers_fault hnone hfault
    exact ⟨shard, value, hpeer, fun hnames => hport (hall shard value hpeer hnames), hport⟩

/-- A host that reaches every address. -/
def reaching : Host := ⟨fun _ _ => .error .other, fun _ => .ok []⟩

/-- Of three peers the last has an id without a port, though its address names one. -/
theorem dialPeers_dialed_three :
    let c : Config := {}
    let peers : PeerMap :=
      ⟨[(3, "10.0.0.3:9000"), (5, "10.0.0.5"), (70000, "[fd00::7]:9000")], by decide⟩
    NoneFails (dialPeers reaching c peers) ∧
      (∀ shard value, Other c peers shard value → NamesPort value → ∀ address,
        (shard, address) ∈ (dialPeers reaching c peers).1 ↔
          c.HasPort shard ∧ address = value) ∧
      (3, "10.0.0.3:9000") ∈ (dialPeers reaching c peers).1 ∧
      (70000, "[fd00::7]:9000") ∉ (dialPeers reaching c peers).1 := by
  intro c peers
  have hsorted : peers.ascending = peers.entries := List.mergeSort_of_pairwise (by decide)
  have hend : (dialPeers reaching c peers).2 =
      some (.invalid "peer port 8000 + 70000 is out of range") := by
    rw [dialPeers, hsorted]
    decide
  have hnone : NoneFails (dialPeers reaching c peers) := by
    rw [NoneFails, hend]
    rintro kind ⟨⟩
  have hthree : Other c peers 3 "10.0.0.3:9000" := ⟨by decide, by decide⟩
  have hlast : Other c peers 70000 "[fd00::7]:9000" := ⟨by decide, by decide⟩
  obtain ⟨-, -, hexplicit, -⟩ := dialPeers_dialed hnone
  refine ⟨hnone, hexplicit, (hexplicit 3 _ hthree (by decide) _).2 (by decide), fun hmem => ?_⟩
  exact absurd ((hexplicit 70000 _ hlast (by decide) _).1 hmem) (by decide)

/-- With settings that pass the check, on a host that reaches every address, the one peer is not
    dialed, though its address names a port: its id has none. -/
theorem dialPeers_unneeded_port :
    let c : Config := {}
    let peers : PeerMap := ⟨[(70000, "10.0.0.2:9000")], by decide⟩
    c.check = .ok () ∧ Other c peers 70000 "10.0.0.2:9000" ∧ NamesPort "10.0.0.2:9000" ∧
      (∀ address, reaching.dial address = .ok []) ∧
      dialPeers reaching c peers =
        ([], some (.invalid "peer port 8000 + 70000 is out of range")) := by
  intro c peers
  have hsorted : peers.ascending = peers.entries := List.mergeSort_of_pairwise (by decide)
  rw [dialPeers, hsorted]
  exact ⟨by decide, ⟨by decide, by decide⟩, by decide, fun _ => rfl, by decide⟩

end Startup

end Depot
