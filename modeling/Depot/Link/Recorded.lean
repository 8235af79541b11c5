/-
  Depot — wires that remember.

  `Recorded` stands in front of any wires and writes down the frames that they
  take; what it says of an offer is what they say.
-/
import Depot.Link.Basic

namespace Depot

/-- Wires with the frames that they took, first one first. -/
structure Recorded (σ : Type u) where
  wires : σ
  taken : List (LinkId × Frame) := []

namespace Recorded

variable {σ : Type u}

def takenOn (w : Recorded σ) (id : LinkId) : List Frame :=
  (w.taken.filter fun e => e.1 = id).map Prod.snd

/-- Write down what became of a frame. -/
def note (w : Recorded σ) (id : LinkId) (f : Frame) : σ × Offer → Recorded σ × Offer
  | (wires, .taken) => ({ wires, taken := w.taken ++ [(id, f)] }, .taken)
  | (wires, offer) => ({ w with wires }, offer)

instance [Outbound σ] : Outbound (Recorded σ) where
  offer w id f := w.note id f (Outbound.offer w.wires id f)
  hangUp w id := { w with wires := Outbound.hangUp w.wires id }

end Recorded

/-- Wires that take every frame. -/
instance : Outbound Unit where
  offer w _ _ := (w, .taken)
  hangUp w _ := w

end Depot
