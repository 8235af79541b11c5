/-
  Depot — addresses that name a port.

  A peer is given by the address of a host, by a name, or with a port behind a colon.  An
  address of four bytes is written without colons and one of eight groups with two at least
  (`Ip.colons_of_ofText?`), so one colon divides a host from a port, and so do brackets
  (`HostPort`).  `NamesPort` holds of such texts (`HostPort.namesPort`); what it holds of is
  dialed as it is (`dialedAddress_of_namesPort`).
-/
import Depot.Net.Ip
import Mathlib

namespace Depot

namespace Ip

/-! ## Colons -/

/-- The text in front of the rest holds so many colons. -/
def Took (cs rest : List Char) (colons : Nat) : Prop :=
  ∃ taken, cs = taken ++ rest ∧ taken.count ':' = colons

theorem Took.trans {cs cs' cs'' : List Char} {m n : Nat} (h : Took cs cs' m)
    (h' : Took cs' cs'' n) : Took cs cs'' (m + n) := by
  obtain ⟨taken, rfl, rfl⟩ := h
  obtain ⟨taken', rfl, rfl⟩ := h'
  exact ⟨taken ++ taken', (List.append_assoc ..).symm, List.count_append ..⟩

theorem Took.refl (cs : List Char) : Took cs cs 0 := ⟨[], rfl, rfl⟩

theorem Took.count {cs rest : List Char} {n : Nat} (h : Took cs rest n) :
    cs.count ':' = n + rest.count ':' := by
  obtain ⟨taken, rfl, rfl⟩ := h
  exact List.count_append ..

theorem took_numeral {base most n : Nat} {cs rest : List Char}
    (h : numeral? base most cs = some (n, rest)) : Took cs rest 0 := by
  unfold numeral? at h
  simp only at h
  split at h
  · cases h
  · cases h
    refine ⟨_, (List.takeWhile_append_dropWhile ..).symm, List.count_eq_zero.2 fun hcolon => ?_⟩
    have hdigit := List.mem_takeWhile_imp hcolon
    cases hdigit

theorem took_byte {n : Nat} {cs rest : List Char} (h : byte? cs = some (n, rest)) :
    Took cs rest 0 := by
  obtain ⟨⟨m, rest'⟩, hnumeral, h⟩ := Option.bind_eq_some_iff.1 h
  simp only at h
  split at h
  · cases h
  · cases h
    exact took_numeral hnumeral

theorem took_separator {separator : Char} {index : Nat} {cs rest : List Char}
    (h : afterSeparator? separator index cs = some rest) :
    Took cs rest (if index ≠ 0 ∧ separator = ':' then 1 else 0) := by
  unfold afterSeparator? at h
  split at h
  · rename_i hfirst
    cases h
    rw [if_neg (by simp [hfirst])]
    exact Took.refl cs
  · rename_i hlater
    split at h
    · split at h
      · rename_i c rest' hc
        cases h
        subst hc
        refine ⟨[c], rfl, ?_⟩
        by_cases hcolon : c = ':' <;> simp [hcolon, hlater]
      · cases h
    · cases h

theorem took_point {cs rest : List Char} (h : afterSeparator? '.' 1 cs = some rest) :
    Took cs rest 0 := took_separator h

/-- Four bytes are written without a colon. -/
theorem took_v4 {bytes : Nat × Nat × Nat × Nat} {cs rest : List Char}
    (h : v4? cs = some (bytes, rest)) : Took cs rest 0 := by
  obtain ⟨⟨a, csA⟩, hA, h⟩ := Option.bind_eq_some_iff.1 h
  obtain ⟨csA', hpointB, h⟩ := Option.bind_eq_some_iff.1 h
  obtain ⟨⟨b, csB⟩, hB, h⟩ := Option.bind_eq_some_iff.1 h
  obtain ⟨csB', hpointC, h⟩ := Option.bind_eq_some_iff.1 h
  obtain ⟨⟨c, csC⟩, hC, h⟩ := Option.bind_eq_some_iff.1 h
  obtain ⟨csC', hpointD, h⟩ := Option.bind_eq_some_iff.1 h
  obtain ⟨⟨d, csD⟩, hD, h⟩ := Option.bind_eq_some_iff.1 h
  cases h
  exact ((((((took_byte hA).trans (took_point hpointB)).trans (took_byte hB)).trans
    (took_point hpointC)).trans (took_byte hC)).trans (took_point hpointD)).trans (took_byte hD)

/-- There is a colon before every group but the first; the last two may stand as four bytes. -/
theorem took_groups (index room : Nat) (cs : List Char) :
    ∃ colons, Took cs (groups index room cs).2.2 colons ∧
      (groups index room cs).1.length ≤
        colons + (if index = 0 then 1 else 0) + (if (groups index room cs).2.1 then 1 else 0) := by
  fun_induction groups index room cs with
  | case1 index cs => exact ⟨0, Took.refl cs, Nat.zero_le _⟩
  | case2 index room cs a b c d rest h =>
    split at h
    · cases h
    · obtain ⟨cs', hseparator, hv4⟩ := Option.bind_eq_some_iff.1 h
      refine ⟨_, (took_separator hseparator).trans (took_v4 hv4), ?_⟩
      by_cases hfirst : index = 0 <;> simp [hfirst]
  | case3 index room cs h hnone => exact ⟨0, Took.refl cs, Nat.zero_le _⟩
  | case4 index room cs h group rest hnumeral more inBytes rest' hmore ih =>
    obtain ⟨cs', hseparator, hgroup⟩ := Option.bind_eq_some_iff.1 hnumeral
    obtain ⟨colons, htook, hlength⟩ := ih
    rw [hmore] at htook hlength
    -- Here stands one group more, and with it a colon unless it is the first.
    refine ⟨_, ((took_separator hseparator).trans (took_numeral hgroup)).trans htook, ?_⟩
    simp only [List.length_cons] at hlength ⊢
    by_cases hfirst : index = 0
    · simp only [hfirst, ne_eq, not_true, false_and, if_false, if_true, Nat.zero_add,
        Nat.one_ne_zero] at hlength ⊢
      omega
    · simp only [hfirst, ne_eq, not_false_iff, true_and, if_false, if_true, Nat.succ_ne_zero]
        at hlength ⊢
      omega

/-- An address of eight groups is written with two colons at least. -/
theorem two_le_of_v6? {cs rest : List Char} {gs : List Nat} (h : v6? cs = some (gs, rest)) :
    2 ≤ cs.count ':' := by
  obtain ⟨colons, htook, hlength⟩ := took_groups 0 8 cs
  rw [htook.count]
  unfold v6? at h
  simp only at h
  split at h
  · rename_i hfull
    rw [hfull] at hlength
    split_ifs at hlength <;> omega
  · split at h
    · cases h
    · split at h
      · rename_i rest' hrest
        rw [hrest, List.count_cons_self, List.count_cons_self]
        omega
      · cases h

/-- An address of a host is written without a colon, or with two at least. -/
theorem colons_of_ofText? {cs : List Char} {ip : Ip} (h : ofText? cs = some ip) :
    ':' ∉ cs ∨ 2 ≤ cs.count ':' := by
  unfold ofText? at h
  split at h
  · rename_i a b c d rest hv4
    split at h
    · rename_i hend
      rw [List.isEmpty_iff] at hend
      refine .inl (List.count_eq_zero.1 ?_)
      rw [(took_v4 hv4).count, hend]
      rfl
    · cases h
  · unfold v6Text? at h
    split at h
    · rename_i gs hv6
      exact .inr (two_le_of_v6? hv6)
    · cases h

/-- Nothing in brackets is an address of a host. -/
theorem ofText?_bracket (cs : List Char) : ofText? ('[' :: cs) = none := by
  rfl

end Ip

/-! ## Ports -/

/-- The text is no bare address of a host, and a port stands behind its colon. -/
def NamesPort (value : String) : Prop := Ip.ofText? value.toList = none ∧ ':' ∈ value.toList

instance (value : String) : Decidable (NamesPort value) := inferInstanceAs (Decidable (_ ∧ _))

/-- A host with a port as they are written. -/
inductive HostPort : String → Prop
  /-- One colon is between them. -/
  | plain {host port : String} (hhost : ':' ∉ host.toList) (hport : ':' ∉ port.toList) :
      HostPort (host ++ ":" ++ port)
  /-- The address of the host is in brackets. -/
  | bracketed (ip port : String) : HostPort ("[" ++ ip ++ "]:" ++ port)

theorem HostPort.namesPort {value : String} (h : HostPort value) : NamesPort value := by
  cases h with
  | @plain host port hhost hport =>
    have htext : (host ++ ":" ++ port).toList = host.toList ++ ':' :: port.toList := by
      simp only [String.toList_append, List.append_assoc]
      rfl
    have hcount : (host.toList ++ ':' :: port.toList).count ':' = 1 := by
      rw [List.count_append, List.count_cons_self, List.count_eq_zero.2 hhost,
        List.count_eq_zero.2 hport]
    rw [NamesPort, htext, Option.eq_none_iff_forall_ne_some]
    refine ⟨fun ip hip => ?_, by simp⟩
    rcases Ip.colons_of_ofText? hip with hnone | htwo
    · exact hnone (by simp)
    · omega
  | bracketed ip port =>
    have htext : ("[" ++ ip ++ "]:" ++ port).toList =
        '[' :: (ip.toList ++ ']' :: ':' :: port.toList) := by
      simp only [String.toList_append, List.append_assoc]
      rfl
    rw [NamesPort, htext]
    exact ⟨Ip.ofText?_bracket _, by simp⟩

theorem dialedAddress_of_namesPort {value : String} (h : NamesPort value) (port : Nat) :
    dialedAddress value port = value := by
  rw [dialedAddress, h.1]
  exact if_pos (List.contains_iff_mem.2 h.2)

end Depot
