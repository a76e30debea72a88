import SmartDnsPlusUi.Run.Transaction

/-!
# Statements without a transaction

Outside a transaction every statement is committed by itself.  The first that fails ends
the run, and what came before it stays.
-/

namespace SmartDnsPlusUi.Run

variable {State : Type}

/-- The state that the statements leave, and whether all of them went through. -/
def autocommit : Option Nat → List (Statement State) → State → State × Bool
  | _, [], state => (state, true)
  | some 0, _ :: _, state => (state, false)
  | fault, statement :: statements, state =>
      match statement state with
      | none => (state, false)
      | some next => autocommit (fault.map (· - 1)) statements next

/-- All statements go through when they would by themselves and the fault lies behind them. -/
theorem autocommit_eq_true_iff {fault : Option Nat} {statements : List (Statement State)}
    {state final : State} :
    autocommit fault statements state = (final, true) ↔
      runStatements statements state = some final ∧ ∀ n ∈ fault, statements.length ≤ n := by
  induction statements generalizing fault state with
  | nil => simp [autocommit, runStatements]
  | cons statement statements inductionHypothesis =>
      rw [runStatements]
      rcases fault with _ | _ | n
      · cases applied : statement state with
        | none => simp [autocommit, applied]
        | some next => simp [autocommit, applied, inductionHypothesis]
      · simp [autocommit]
      · cases applied : statement state with
        | none => simp [autocommit, applied]
        | some next => simp [autocommit, applied, inductionHypothesis]

end SmartDnsPlusUi.Run
