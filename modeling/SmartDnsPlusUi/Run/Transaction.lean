import Mathlib.Data.List.Basic

/-!
# Transactions

A transaction works on a copy of the state, one statement after the other.  A
statement fails when it is the one at which the fault lies, or by itself.  Only a
transaction that is committed replaces the state.
-/

namespace SmartDnsPlusUi.Run

variable {State : Type}

/-- The state as the statements so far leave it, and how many there were. -/
structure Transaction (State : Type) where
  state : State
  executed : Nat

abbrev Statement (State : Type) := State → Option State

/-- A statement that leaves the state alone. -/
def Statement.skip : Statement State := some

/-- A statement that fails unless the condition holds. -/
def Statement.guarded (allowed : Prop) [Decidable allowed] (apply : State → State) :
    Statement State := fun state =>
  if allowed then some (apply state) else none

def Transaction.execute (fault : Option Nat) (statement : Statement State)
    (transaction : Transaction State) : Option (Transaction State) :=
  if fault = some transaction.executed then none
  else (statement transaction.state).map fun state =>
    { state, executed := transaction.executed + 1 }

def Transaction.executeAll (fault : Option Nat) :
    List (Statement State) → Transaction State → Option (Transaction State)
  | [], transaction => some transaction
  | statement :: statements, transaction =>
      (transaction.execute fault statement).bind (executeAll fault statements)

/-- Run the statements as one transaction: the state afterwards, and whether the
transaction was committed. -/
def transact (fault : Option Nat) (statements : List (Statement State)) (state : State) :
    State × Bool :=
  match Transaction.executeAll fault statements { state, executed := 0 } with
  | none => (state, false)
  | some transaction => (transaction.state, true)

/-- The statements one after the other. -/
def runStatements : List (Statement State) → State → Option State
  | [], state => some state
  | statement :: statements, state => (statement state).bind (runStatements statements)

theorem runStatements_append (first second : List (Statement State)) (state : State) :
    runStatements (first ++ second) state =
      (runStatements first state).bind (runStatements second) := by
  induction first generalizing state with
  | nil => rfl
  | cons statement first inductionHypothesis =>
      rw [List.cons_append, runStatements, runStatements, Option.bind_assoc]
      exact congrArg _ (funext inductionHypothesis)

@[simp] theorem runStatements_skip (statements : List (Statement State)) (state : State) :
    runStatements (.skip :: statements) state = runStatements statements state := rfl

/-- Guarded statements, one for each entry, all go through or none counts. -/
theorem runStatements_guarded {Entry : Type} (allowed : Entry → Prop) [DecidablePred allowed]
    (apply : State → Entry → State) (entries : List Entry) (state : State) :
    runStatements (entries.map fun entry => .guarded (allowed entry) (apply · entry)) state =
      if ∀ entry ∈ entries, allowed entry then some (entries.foldl apply state) else none := by
  induction entries generalizing state with
  | nil => simp [runStatements]
  | cons entry entries inductionHypothesis =>
      rw [List.map_cons, runStatements, Statement.guarded]
      by_cases first : allowed entry
      · rw [if_pos first, Option.bind_some, inductionHypothesis]
        simp [first]
      · rw [if_neg first, if_neg fun all => first (all entry List.mem_cons_self)]
        rfl

theorem runStatements_of_executeAll {fault : Option Nat} {statements : List (Statement State)}
    {transaction final : Transaction State}
    (executes : transaction.executeAll fault statements = some final) :
    runStatements statements transaction.state = some final.state := by
  induction statements generalizing transaction with
  | nil =>
      cases executes
      rfl
  | cons statement statements inductionHypothesis =>
      obtain ⟨next, stepped, later⟩ := Option.bind_eq_some_iff.mp executes
      unfold Transaction.execute at stepped
      split at stepped
      · cases stepped
      · obtain ⟨state, applied, rfl⟩ := Option.map_eq_some_iff.mp stepped
        rw [runStatements, applied]
        exact inductionHypothesis later

/-- A transaction that fails changes nothing. -/
theorem transact_failed {fault : Option Nat} {statements : List (Statement State)} {state : State}
    (failed : (transact fault statements state).2 = false) :
    (transact fault statements state).1 = state := by
  unfold transact at failed ⊢
  cases executes : Transaction.executeAll fault statements { state, executed := 0 } with
  | none => rfl
  | some transaction =>
      rw [executes] at failed
      cases failed

/-- A transaction that is committed has run all its statements. -/
theorem runStatements_of_transact {fault : Option Nat} {statements : List (Statement State)}
    {state : State} (committed : (transact fault statements state).2 = true) :
    runStatements statements state = some (transact fault statements state).1 := by
  unfold transact at committed ⊢
  cases executes : Transaction.executeAll fault statements { state, executed := 0 } with
  | none =>
      rw [executes] at committed
      cases committed
  | some transaction => exact runStatements_of_executeAll executes

/-- Without a fault, statements that all go through are committed. -/
theorem executeAll_none {statements : List (Statement State)} {transaction : Transaction State}
    {state : State} (runs : runStatements statements transaction.state = some state) :
    ∃ executed, transaction.executeAll none statements = some { state, executed } := by
  induction statements generalizing transaction with
  | nil =>
      cases runs
      exact ⟨transaction.executed, rfl⟩
  | cons statement statements inductionHypothesis =>
      obtain ⟨next, applied, later⟩ := Option.bind_eq_some_iff.mp runs
      obtain ⟨executed, executes⟩ :=
        @inductionHypothesis { state := next, executed := transaction.executed + 1 } later
      refine ⟨executed, ?_⟩
      rw [Transaction.executeAll, Transaction.execute, if_neg nofun, applied]
      exact executes

theorem transact_none {statements : List (Statement State)} {state final : State}
    (runs : runStatements statements state = some final) :
    transact none statements state = (final, true) := by
  obtain ⟨executed, executes⟩ := @executeAll_none _ _ { state, executed := 0 } _ runs
  rw [transact, executes]

end SmartDnsPlusUi.Run
