import Mathlib.Tactic.Ring

/-! Runs of a machine under a list of actions, and the rule that carries an invariant along one. -/

namespace Runs

variable {σ α : Type*} {step : σ → α → σ} {meets : σ → α → Prop} {inv : σ → Prop}

/-- The state a list of actions leads to. -/
def run (step : σ → α → σ) (start : σ) (actions : List α) : σ := actions.foldl step start

/-- Every action of a run meets a condition in the state it is taken in. -/
def Along (step : σ → α → σ) (meets : σ → α → Prop) : σ → List α → Prop
  | _, [] => True
  | s, action :: actions => meets s action ∧ Along step meets (step s action) actions

/-- Whether a run keeps to a condition can be computed. -/
instance Along.decidable [∀ s action, Decidable (meets s action)] :
    ∀ (start : σ) (actions : List α), Decidable (Along step meets start actions)
  | _, [] => instDecidableTrue
  | start, action :: actions =>
    have := Along.decidable (step start action) actions
    inferInstanceAs (Decidable (meets start action ∧ Along step meets (step start action) actions))

/-- A run goes on from where its first action leads. -/
@[simp] theorem run_cons (start : σ) (action : α) (actions : List α) :
    run step start (action :: actions) = run step (step start action) actions := rfl

/-- What every step under the condition keeps, a whole run keeps. -/
theorem invariant (kept : ∀ s action, inv s → meets s action → inv (step s action)) {start : σ}
    {actions : List α} (begins : inv start) (along : Along step meets start actions) :
    inv (run step start actions) := by
  induction actions generalizing start with
  | nil => exact begins
  | cons action actions rest =>
    -- The first step keeps the invariant, and the rest of the run starts from there.
    obtain ⟨first, later⟩ := along
    exact rest (kept start action begins first) later

end Runs
