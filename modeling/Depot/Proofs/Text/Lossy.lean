/-
  Depot — what the decoder makes of parts of its input.

  A byte below 0x80 is a character wherever it stands (`lossyChars_append_ascii`), for the
  decoder waits for none such within a character (`Decoder.Sound`).  The bytes of a text are
  read as the text (`lossyChars_ofText`).
-/
import Depot.Text.Lossy
import Mathlib

namespace Depot

theorem Bytes.ofText_append (s t : String) : ofText (s ++ t) = ofText s ++ ofText t := by
  simp [ofText]

namespace Text

namespace Decoder

/-! ## What is written already -/

/-- The decoder with other characters written before its own. -/
def behind (d : Decoder) (before : List Char) : Decoder := ⟨d.partialChar, d.written ++ before⟩

theorem begin_behind (written before : List Char) (b : UInt8) :
    begin (written ++ before) b = (begin written b).behind before := by
  unfold begin
  split
  · rfl
  · split <;> rfl

theorem push_behind (d : Decoder) (before : List Char) (b : UInt8) :
    (d.behind before).push b = (d.push b).behind before := by
  obtain ⟨_ | p, written⟩ := d
  · exact begin_behind written before b
  · simp only [push, behind]
    split
    · split <;> rfl
    · exact begin_behind (replacement :: written) before b

theorem foldl_behind (bs : Bytes) (d : Decoder) (before : List Char) :
    bs.foldl push (d.behind before) = (bs.foldl push d).behind before := by
  induction bs generalizing d with
  | nil => rfl
  | cons b bs ih => rw [List.foldl_cons, List.foldl_cons, push_behind, ih]

theorem finish_behind (d : Decoder) (before : List Char) :
    (d.behind before).finish = before.reverse ++ d.finish := by
  obtain ⟨_ | p, written⟩ := d
  · exact List.reverse_append
  · simp [finish, behind]

/-! ## Bytes below 0x80 -/

/-- The next byte of a character under way is 0x80 at least. -/
def Sound (d : Decoder) : Prop := ∀ p ∈ d.partialChar, 0x80 ≤ p.least

theorem least_ofLead? {b : UInt8} {p : Partial} (h : Partial.ofLead? b = some p) :
    0x80 ≤ p.least := by
  have hleast : (Partial.ofLead? b).all (0x80 ≤ ·.least) = true := by
    unfold Partial.ofLead?
    simp only
    split_ifs <;> rfl
  rw [h] at hleast
  exact of_decide_eq_true hleast

theorem begin_sound (written : List Char) (b : UInt8) : (begin written b).Sound := by
  unfold begin
  split
  · rintro p ⟨⟩
  · split
    · rename_i p hlead
      rintro p ⟨⟩
      exact least_ofLead? hlead
    · rintro p ⟨⟩

theorem push_sound (d : Decoder) (b : UInt8) : (d.push b).Sound := by
  unfold push
  split
  · exact begin_sound _ _
  · simp only
    split
    · split
      · rintro p ⟨⟩
      · rintro p ⟨⟩
        exact UInt8.le_refl 0x80
    · exact begin_sound _ _

theorem foldl_sound (bs : Bytes) {d : Decoder} (h : d.Sound) : (bs.foldl push d).Sound := by
  induction bs generalizing d with
  | nil => exact h
  | cons b bs ih => exact ih (push_sound d b)

theorem push_ascii {d : Decoder} (h : d.Sound) {b : UInt8} (hb : b < 0x80) :
    d.push b = ⟨none, Char.ofNat b.toNat :: d.finish.reverse⟩ := by
  obtain ⟨_ | p, written⟩ := d
  · simp [push, begin, hb, finish]
  · have hleast : ¬ p.least ≤ b := UInt8.not_le.2 (UInt8.lt_of_lt_of_le hb (h p rfl))
    simp [push, begin, hb, finish, hleast]

end Decoder

/-- A byte below 0x80 ends what is before it and is a character by itself. -/
theorem lossyChars_append_ascii (bs : Bytes) {b : UInt8} (hb : b < 0x80) (cs : Bytes) :
    lossyChars (bs ++ b :: cs) = lossyChars bs ++ Char.ofNat b.toNat :: lossyChars cs := by
  have hsound : (bs.foldl Decoder.push ⟨none, []⟩).Sound :=
    Decoder.foldl_sound bs (by rintro p ⟨⟩)
  have hbehind : (⟨none, Char.ofNat b.toNat :: (lossyChars bs).reverse⟩ : Decoder) =
      Decoder.behind ⟨none, []⟩ (Char.ofNat b.toNat :: (lossyChars bs).reverse) := rfl
  rw [lossyChars, List.foldl_append, List.foldl_cons, Decoder.push_ascii hsound hb, ← lossyChars,
    hbehind, Decoder.foldl_behind, Decoder.finish_behind, List.reverse_cons, List.reverse_reverse,
    List.append_assoc]
  rfl

theorem lossyChars_cons_ascii {b : UInt8} (hb : b < 0x80) (cs : Bytes) :
    lossyChars (b :: cs) = Char.ofNat b.toNat :: lossyChars cs := lossyChars_append_ascii [] hb cs

/-! ## The bytes of a text -/

namespace Decoder

/-- A byte that continues a character, and is not its last. -/
theorem push_more {p : Partial} {b : UInt8} (hleast : p.least ≤ b) (hmost : b ≤ p.most)
    (hmore : 1 < p.more) (written : List Char) : push ⟨some p, written⟩ b =
      ⟨some ⟨p.bits * 64 + b.toNat % 64, p.more - 1, 0x80, 0xBF⟩, written⟩ := by
  simp [push, hleast, hmost, Nat.not_le.2 hmore]

/-- The last byte of a character. -/
theorem push_last {p : Partial} {b : UInt8} (hleast : p.least ≤ b) (hmost : b ≤ p.most)
    (hmore : p.more = 1) (written : List Char) : push ⟨some p, written⟩ b =
      ⟨none, Char.ofNat (p.bits * 64 + b.toNat % 64) :: written⟩ := by
  simp [push, hleast, hmost, hmore]

theorem push_lead {b : UInt8} (hb : 0x80 ≤ b) {p : Partial} (hlead : Partial.ofLead? b = some p)
    (written : List Char) : push ⟨none, written⟩ b = ⟨some p, written⟩ := by
  simp [push, begin, hlead, UInt8.not_lt.2 hb]

/-- A byte that stands for six bits. -/
theorem toNat_continuing (n : Nat) : (UInt8.ofNat (n % 64 + 128)).toNat = n % 64 + 128 := by
  rw [UInt8.toNat_ofNat']
  omega

theorem continuing (n : Nat) : 0x80 ≤ UInt8.ofNat (n % 64 + 128) ∧
    UInt8.ofNat (n % 64 + 128) ≤ 0xBF ∧ (UInt8.ofNat (n % 64 + 128)).toNat % 64 = n % 64 := by
  rw [UInt8.le_iff_toNat_le, UInt8.le_iff_toNat_le, toNat_continuing]
  exact ⟨Nat.le_add_left 128 _, (by omega : n % 64 + 128 ≤ 191), by omega⟩

end Decoder

/-- The first of two bytes. -/
theorem lead_two {v : Nat} (hfrom : 127 < v) (hto : v ≤ 2047) :
    0x80 ≤ UInt8.ofNat (v / 64 % 32 + 192) ∧
      Partial.ofLead? (UInt8.ofNat (v / 64 % 32 + 192)) = some ⟨v / 64, 1, 0x80, 0xBF⟩ := by
  have hlead : (UInt8.ofNat (v / 64 % 32 + 192)).toNat = v / 64 + 192 := by
    rw [UInt8.toNat_ofNat']
    omega
  constructor
  · rw [UInt8.le_iff_toNat_le, hlead]
    exact (by omega : 128 ≤ v / 64 + 192)
  · have hrange : 0xC2 ≤ v / 64 + 192 ∧ v / 64 + 192 ≤ 0xDF := by omega
    simp only [Partial.ofLead?, hlead]
    rw [if_pos hrange, Nat.add_sub_cancel]

/-- The first of three bytes leaves a range for the second that holds it. -/
theorem lead_three {v : Nat} (hfrom : 2047 < v) (hto : v ≤ 65535)
    (hvalid : v < 0xD800 ∨ 0xDFFF < v) :
    0x80 ≤ UInt8.ofNat (v / 4096 % 16 + 224) ∧ ∃ least most,
      Partial.ofLead? (UInt8.ofNat (v / 4096 % 16 + 224)) = some ⟨v / 4096, 2, least, most⟩ ∧
      least ≤ UInt8.ofNat (v / 64 % 64 + 128) ∧ UInt8.ofNat (v / 64 % 64 + 128) ≤ most := by
  have hlead : (UInt8.ofNat (v / 4096 % 16 + 224)).toNat = v / 4096 + 224 := by
    rw [UInt8.toNat_ofNat']
    omega
  simp only [Partial.ofLead?, UInt8.le_iff_toNat_le, hlead, Decoder.toNat_continuing]
  refine ⟨Nat.le_trans (by decide) (Nat.le_add_left 224 _), ?_⟩
  rw [if_neg (by omega)]
  -- Short values and surrogates share the lead of others; the range tells them apart.
  split_ifs with hoverlong hsurrogate hrest
  · exact ⟨0xA0, 0xBF, by rw [show v / 4096 = 0 by omega], (by omega : 160 ≤ v / 64 % 64 + 128),
      (by omega : v / 64 % 64 + 128 ≤ 191)⟩
  · exact ⟨0x80, 0x9F, by rw [show v / 4096 = 13 by omega], (by omega : 128 ≤ v / 64 % 64 + 128),
      (by omega : v / 64 % 64 + 128 ≤ 159)⟩
  · exact ⟨0x80, 0xBF, by rw [Nat.add_sub_cancel], (by omega : 128 ≤ v / 64 % 64 + 128),
      (by omega : v / 64 % 64 + 128 ≤ 191)⟩
  all_goals omega

/-- The first of four bytes leaves a range for the second that holds it. -/
theorem lead_four {v : Nat} (hfrom : 65535 < v) (hto : v < 0x110000) :
    0x80 ≤ UInt8.ofNat (v / 262144 % 8 + 240) ∧ ∃ least most,
      Partial.ofLead? (UInt8.ofNat (v / 262144 % 8 + 240)) = some ⟨v / 262144, 3, least, most⟩ ∧
      least ≤ UInt8.ofNat (v / 4096 % 64 + 128) ∧ UInt8.ofNat (v / 4096 % 64 + 128) ≤ most := by
  have hlead : (UInt8.ofNat (v / 262144 % 8 + 240)).toNat = v / 262144 + 240 := by
    rw [UInt8.toNat_ofNat']
    omega
  simp only [Partial.ofLead?, UInt8.le_iff_toNat_le, hlead, Decoder.toNat_continuing]
  refine ⟨Nat.le_trans (by decide) (Nat.le_add_left 240 _), ?_⟩
  rw [if_neg (by omega), if_neg (by omega), if_neg (by omega), if_neg (by omega)]
  split_ifs with hoverlong hrest hlast
  · exact ⟨0x90, 0xBF, by rw [show v / 262144 = 0 by omega], (by omega : 144 ≤ v / 4096 % 64 + 128),
      (by omega : v / 4096 % 64 + 128 ≤ 191)⟩
  · exact ⟨0x80, 0xBF, by rw [Nat.add_sub_cancel], (by omega : 128 ≤ v / 4096 % 64 + 128),
      (by omega : v / 4096 % 64 + 128 ≤ 191)⟩
  · exact ⟨0x80, 0x8F, by rw [show v / 262144 = 4 by omega], (by omega : 128 ≤ v / 4096 % 64 + 128),
      (by omega : v / 4096 % 64 + 128 ≤ 143)⟩
  all_goals omega

theorem foldl_utf8EncodeChar (c : Char) (written : List Char) :
    (String.utf8EncodeChar c).foldl Decoder.push ⟨none, written⟩ = ⟨none, c :: written⟩ := by
  have hvalid : c.toNat < 0xD800 ∨ 0xDFFF < c.toNat ∧ c.toNat < 0x110000 := c.valid
  have hchar : Char.ofNat c.toNat = c := Char.ofNat_toNat c
  unfold String.utf8EncodeChar
  simp only [show c.val.toNat = c.toNat from rfl]
  generalize c.toNat = v at hvalid hchar ⊢
  split_ifs with hone htwo hthree
  · have hbyte : (UInt8.ofNat v).toNat = v := by
      rw [UInt8.toNat_ofNat']
      omega
    have hascii : UInt8.ofNat v < 0x80 := by
      rw [UInt8.lt_iff_toNat_lt, hbyte]
      exact Nat.lt_succ_of_le hone
    rw [List.foldl_cons, Decoder.push_ascii (by rintro p ⟨⟩) hascii, hbyte, hchar, List.foldl_nil]
    simp [Decoder.finish]
  · obtain ⟨hfirst, hlead⟩ := lead_two (by omega) htwo
    obtain ⟨hleast, hmost, hbits⟩ := Decoder.continuing v
    have hsum : v / 64 * 64 + v % 64 = v := by omega
    rw [List.foldl_cons, Decoder.push_lead hfirst hlead, List.foldl_cons,
      Decoder.push_last hleast hmost rfl, hbits, hsum, hchar, List.foldl_nil]
  · have hvalid : v < 0xD800 ∨ 0xDFFF < v := by omega
    obtain ⟨hfirst, least, most, hlead, hleast, hmost⟩ := lead_three (by omega) hthree hvalid
    obtain ⟨-, -, hsecond⟩ := Decoder.continuing (v / 64)
    obtain ⟨hleast', hmost', hthird⟩ := Decoder.continuing v
    have hsum : (v / 4096 * 64 + v / 64 % 64) * 64 + v % 64 = v := by omega
    rw [List.foldl_cons, Decoder.push_lead hfirst hlead, List.foldl_cons,
      Decoder.push_more hleast hmost Nat.one_lt_two, hsecond, List.foldl_cons,
      Decoder.push_last hleast' hmost' rfl, hthird, hsum, hchar, List.foldl_nil]
  · have hto : v < 0x110000 := by omega
    obtain ⟨hfirst, least, most, hlead, hleast, hmost⟩ := lead_four (by omega) hto
    obtain ⟨-, -, hsecond⟩ := Decoder.continuing (v / 4096)
    obtain ⟨hleast', hmost', hthird⟩ := Decoder.continuing (v / 64)
    obtain ⟨hleast'', hmost'', hfourth⟩ := Decoder.continuing v
    have hsum : ((v / 262144 * 64 + v / 4096 % 64) * 64 + v / 64 % 64) * 64 + v % 64 = v := by
      omega
    rw [List.foldl_cons, Decoder.push_lead hfirst hlead, List.foldl_cons,
      Decoder.push_more hleast hmost (by decide : 1 < 3), hsecond, List.foldl_cons,
      Decoder.push_more hleast' hmost' Nat.one_lt_two, hthird, List.foldl_cons,
      Decoder.push_last hleast'' hmost'' rfl, hfourth, hsum, hchar, List.foldl_nil]

/-- The bytes of a text are read as the text. -/
theorem lossyChars_ofText (s : String) : lossyChars (Bytes.ofText s) = s.toList := by
  have hbytes : Bytes.ofText s = s.toList.flatMap String.utf8EncodeChar := by
    rw [Bytes.ofText, String.toUTF8_eq_toByteArray, ← String.utf8Encode_toList, List.utf8Encode,
      List.data_toByteArray]
  have hread : ∀ (cs written : List Char),
      (cs.flatMap String.utf8EncodeChar).foldl Decoder.push ⟨none, written⟩ =
        ⟨none, cs.reverse ++ written⟩ := by
    intro cs
    induction cs with
    | nil => exact fun _ => rfl
    | cons c cs ih =>
      intro written
      rw [List.flatMap_cons, List.foldl_append, foldl_utf8EncodeChar, ih, List.reverse_cons,
        List.append_assoc, List.singleton_append]
  rw [lossyChars, hbytes, hread, List.append_nil]
  exact List.reverse_reverse _

end Text

end Depot
