/-
  Depot — streams that bytes are written to.

  An outlet is offered segments and takes any number of their bytes, makes the
  writer wait, or fails.  `Backlog.writeOnce` makes one call of an outlet, and
  `Backlog.writeAll` writes a backlog until nothing is left or the outlet takes no
  more; each call that goes on takes at least one byte, so the loop ends whatever
  the outlet answers.
-/
import Depot.Wire.Backlog

namespace Depot

/-- How an outlet answers a write. -/
inductive Written where
  /-- It took so many of the bytes offered. -/
  | took (n : Nat)
  /-- It takes nothing now. -/
  | wait
  | fail (kind : IoKind)
  deriving DecidableEq, Repr

/-- How an outlet answers a flush, or a shutdown. -/
inductive Flushed where
  | done
  /-- It is not done yet. -/
  | wait
  | fail (kind : IoKind)
  deriving DecidableEq, Repr

/-- A stream that bytes are written to. -/
class Outlet (σ : Type u) where
  /-- Offer segments. -/
  write : σ → List Bytes → σ × Written
  /-- See that the bytes taken go out. -/
  flush : σ → σ × Flushed
  /-- Say that no more bytes come. -/
  shutdown : σ → σ × Flushed
  /-- Let go of the stream. -/
  release : σ → σ

/-- How a run of writes ended. -/
inductive WriteEnd where
  /-- Nothing is left, and all of it is flushed. -/
  | finished
  /-- The outlet takes nothing now. -/
  | waiting
  | failed (kind : IoKind)
  deriving DecidableEq, Repr

namespace Backlog

/-- Make one call: a write while something is left, and then the flush.  Returns how
    the run of writes ends with it, if it does. -/
def writeOnce [Outlet σ] (b : Backlog) (s : σ) : Backlog × σ × Option WriteEnd :=
  if b.pending = 0 then
    match Outlet.flush s with
    | (s, .done) => (b, s, some .finished)
    | (s, .wait) => (b, s, some .waiting)
    | (s, .fail kind) => (b, s, some (.failed kind))
  else
    match Outlet.write s (b.front maxSegments) with
    | (s, .wait) => (b, s, some .waiting)
    | (s, .fail kind) => (b, s, some (.failed kind))
    | (s, .took n) =>
      if n = 0 then (b, s, some (.failed .writeZero)) else (b.dropFront n, s, none)

/-- A call that goes on took something. -/
theorem pending_writeOnce [Outlet σ] {b left : Backlog} {s s' : σ}
    (h : b.writeOnce s = (left, s', none)) : left.pending < b.pending := by
  unfold writeOnce at h
  split at h
  · split at h <;> cases h
  · split at h
    · cases h
    · cases h
    · split at h
      · cases h
      · cases h
        show b.pending - _ < b.pending
        omega

/-- Write the backlog until nothing is left or the outlet takes no more. -/
def writeAll [Outlet σ] (b : Backlog) (s : σ) : Backlog × σ × WriteEnd :=
  match _h : b.writeOnce s with
  | (b, s, some result) => (b, s, result)
  | (b, s, none) => b.writeAll s
termination_by b.pending
decreasing_by exact pending_writeOnce _h

end Backlog

end Depot
