/-
  Depot — acts one after the other, and what is answered.

  A course does acts to a state, one after the other, and writes down each act with its
  answer.  `run_concat` is one act more.  Two kinds of state that stay related by every act
  and answer it alike have the same courses (`run_agrees`).
-/
import Mathlib.Data.List.Basic
import Mathlib.Data.List.Induction

namespace Depot

/-- The state after acts, and each act with its answer, first one first. -/
structure Course (σ : Type u) (α : Type v) (β : Type w) where
  state : σ
  log : List (α × β) := []

namespace Course

variable {σ : Type u} {τ : Type u'} {α : Type v} {β : Type w}

/-- Do an act. -/
def next (perform : σ → α → σ × β) (c : Course σ α β) (act : α) : Course σ α β :=
  let (state, answer) := perform c.state act
  ⟨state, c.log ++ [(act, answer)]⟩

/-- The course of these acts, first one first. -/
def run (perform : σ → α → σ × β) (s : σ) (acts : List α) : Course σ α β :=
  acts.foldl (next perform) ⟨s, []⟩

theorem run_concat (perform : σ → α → σ × β) (s : σ) (acts : List α) (act : α) :
    run perform s (acts ++ [act]) = (run perform s acts).next perform act :=
  List.foldl_concat ..

/-- Related states that answer alike and stay related answer all acts alike. -/
theorem run_agrees {perform : σ → α → σ × β} {perform' : τ → α → τ × β} {R : σ → τ → Prop}
    (hact : ∀ s t act, R s t → R (perform s act).1 (perform' t act).1 ∧
      (perform s act).2 = (perform' t act).2) {s : σ} {t : τ} (h : R s t) (acts : List α) :
    R (run perform s acts).state (run perform' t acts).state ∧
      (run perform s acts).log = (run perform' t acts).log := by
  induction acts using List.reverseRecOn with
  | nil => exact ⟨h, rfl⟩
  | append_singleton acts act ih =>
    obtain ⟨hstate, hlog⟩ := ih
    obtain ⟨hnext, hanswer⟩ := hact _ _ act hstate
    rw [run_concat, run_concat]
    refine ⟨hnext, ?_⟩
    show _ ++ [(act, _)] = _ ++ [(act, _)]
    rw [hlog, hanswer]

end Course

end Depot
