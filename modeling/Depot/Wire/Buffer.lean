/-
  Depot — bytes that arrive in pieces.

  A buffer keeps pieces apart until their bytes are wanted, so that a frame which
  arrives in many pieces is put together once.  `toBytes` is the view that says
  what a buffer is: `toBytes_append` and `toBytes_drop` give it after each
  operation, and `length_toBytes` says that `size` counts its bytes.
-/
import Depot.Bytes

namespace Depot

/-- Bytes that arrive in pieces. -/
structure Buffer where
  /-- The bytes in front, put together. -/
  joined : Bytes := []
  /-- The pieces after them, last one first. -/
  pieces : List Bytes := []
  /-- The number of bytes. -/
  size : Nat := 0
  /-- All bytes are counted. -/
  size_eq : size = joined.length + Bytes.total pieces := by rfl
  deriving DecidableEq, Repr

namespace Buffer

def ofBytes (bytes : Bytes) : Buffer where
  joined := bytes
  size := bytes.length

def toBytes (b : Buffer) : Bytes :=
  match b.pieces with
  | [] => b.joined
  | [piece] => b.joined ++ piece
  | pieces => b.joined ++ pieces.reverse.flatten

theorem toBytes_eq (b : Buffer) : b.toBytes = b.joined ++ b.pieces.reverse.flatten := by
  unfold toBytes
  split <;> simp_all

theorem length_toBytes (b : Buffer) : b.toBytes.length = b.size := by
  rw [b.size_eq, toBytes_eq, List.length_append, Bytes.length_flatten, Bytes.total_reverse]

theorem size_cons (b : Buffer) (piece : Bytes) :
    b.size + piece.length = b.joined.length + Bytes.total (piece :: b.pieces) := by
  rw [b.size_eq, Bytes.total]
  omega

def append (b : Buffer) (piece : Bytes) : Buffer where
  joined := b.joined
  pieces := piece :: b.pieces
  size := b.size + piece.length
  size_eq := b.size_cons piece

/-- Drop the first `n` bytes. -/
def drop (b : Buffer) (n : Nat) : Buffer where
  joined := b.toBytes.drop n
  size := b.size - n
  size_eq := by simp [length_toBytes, Bytes.total]

@[simp] theorem toBytes_ofBytes (bytes : Bytes) : (ofBytes bytes).toBytes = bytes := rfl

@[simp] theorem toBytes_append (b : Buffer) (piece : Bytes) :
    (b.append piece).toBytes = b.toBytes ++ piece := by
  simp [toBytes_eq, append]

@[simp] theorem toBytes_drop (b : Buffer) (n : Nat) :
    (b.drop n).toBytes = b.toBytes.drop n := rfl

end Buffer

end Depot
