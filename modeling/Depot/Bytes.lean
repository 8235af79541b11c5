/-
  Depot — byte strings and the little-endian words of the wire format.

  * `Bytes.le32 n` are the four bytes of `n`, least significant first, and
    `Bytes.ofLe` reads bytes back; `ofLe_le32` and `le32_ofLe` say that they
    invert each other on words below `2 ^ 32`;
  * `Bytes.le32? bs` reads the word at the front of `bs`, if four bytes are there;
  * `Bytes.padded?` asks for memory of a length, of which there is none above `Bytes.most`.
-/

namespace Depot

abbrev Bytes := List UInt8

/-- Identifies a node of the cluster. -/
abbrev ShardId := UInt32

/-- Pairs a forwarded request with its reply. -/
abbrev Tag := UInt32

namespace Bytes

/-- The number of bytes in all of the pieces. -/
def total : List Bytes → Nat
  | [] => 0
  | piece :: pieces => piece.length + total pieces

theorem length_flatten (pieces : List Bytes) : pieces.flatten.length = total pieces := by
  induction pieces with
  | nil => rfl
  | cons piece pieces ih => rw [List.flatten_cons, List.length_append, ih, total]

theorem total_append (ps qs : List Bytes) : total (ps ++ qs) = total ps + total qs := by
  induction ps with
  | nil => rw [List.nil_append, total, Nat.zero_add]
  | cons piece ps ih => rw [List.cons_append, total, total, ih, Nat.add_assoc]

theorem total_reverse (pieces : List Bytes) : total pieces.reverse = total pieces := by
  induction pieces with
  | nil => rfl
  | cons piece pieces ih =>
    rw [List.reverse_cons, total_append, ih, total, total, total, Nat.add_comm, Nat.add_zero]

/-! ## Words -/

/-- The four bytes of `n`, least significant first.  Bits from `2 ^ 32` up are
    dropped. -/
def le32 (n : Nat) : Bytes :=
  [UInt8.ofNat n, UInt8.ofNat (n / 256), UInt8.ofNat (n / 65536), UInt8.ofNat (n / 16777216)]

/-- The number whose bytes, least significant first, are given. -/
def ofLe : Bytes → Nat
  | [] => 0
  | b :: bs => b.toNat + 256 * ofLe bs

/-- The word in the first four bytes. -/
def le32? : Bytes → Option Nat
  | a :: b :: c :: d :: _ => some (ofLe [a, b, c, d])
  | _ => none

@[simp] theorem length_le32 (n : Nat) : (le32 n).length = 4 := rfl

theorem ofLe_le32 (n : Nat) : ofLe (le32 n) = n % UInt32.size := by
  simp only [le32, ofLe, UInt8.toNat_ofNat', UInt32.size]
  omega

theorem le32_ofLe (a b c d : UInt8) : le32 (ofLe [a, b, c, d]) = [a, b, c, d] := by
  have ha := a.toNat_lt
  have hb := b.toNat_lt
  have hc := c.toNat_lt
  have hd := d.toNat_lt
  simp only [le32, ofLe, List.cons.injEq, and_true, ← UInt8.toNat_inj, UInt8.toNat_ofNat']
  omega

theorem ofLe_lt (a b c d : UInt8) : ofLe [a, b, c, d] < UInt32.size := by
  have ha := a.toNat_lt
  have hb := b.toNat_lt
  have hc := c.toNat_lt
  have hd := d.toNat_lt
  simp only [ofLe, UInt32.size]
  omega

theorem le32?_le32_append (n : Nat) (bs : Bytes) : le32? (le32 n ++ bs) = some (n % UInt32.size) :=
  congrArg some (ofLe_le32 n)

theorem le32?_eq_none_iff {bs : Bytes} : le32? bs = none ↔ bs.length < 4 := by
  match bs with
  | [] | [_] | [_, _] | [_, _, _] => simp [le32?]
  | _ :: _ :: _ :: _ :: _ => simp [le32?]

/-! ## Memory -/

/-- No more bytes than this lie next to each other in memory: the largest signed word. -/
def most : Nat := 9223372036854775807

/-- The bytes with zeros behind them in new memory of this length, if there can be as much. -/
def padded? (bytes : Bytes) (length : Nat) : Option Bytes :=
  if length ≤ most then some (bytes.rightpad length 0) else none

theorem padded?_of_le {bytes : Bytes} {length : Nat} (h : length ≤ most) :
    bytes.padded? length = some (bytes.rightpad length 0) := if_pos h

theorem padded?_of_lt {bytes : Bytes} {length : Nat} (h : most < length) :
    bytes.padded? length = none := if_neg (Nat.not_le.2 h)

theorem length_of_padded? {bytes padded : Bytes} {length : Nat} (hle : bytes.length ≤ length)
    (h : bytes.padded? length = some padded) : padded.length = length := by
  unfold padded? at h
  split at h
  · cases h
    simp only [List.rightpad, List.length_append, List.length_replicate]
    omega
  · cases h

/-! ## Text -/

/-- The UTF-8 bytes of a text. -/
def ofText (s : String) : Bytes := s.toUTF8.data.toList

end Bytes

end Depot
