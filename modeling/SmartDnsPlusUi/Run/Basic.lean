import Mathlib.Data.List.Basic

/-!
# Runs

A system takes one step for each event; a step may be impossible.  A run is a
sequence of events that are possible one after the other.  What every step
preserves holds after every run, and what every step under a condition
preserves holds after every run that meets the condition throughout.
-/

namespace SmartDnsPlusUi.Run

variable {State Event : Type}

/-- The state after a sequence of events, if all of them are possible. -/
def run (step : State → Event → Option State) : State → List Event → Option State
  | state, [] => some state
  | state, event :: events => (step state event).bind fun next => run step next events

/-- Every event of the sequence meets the condition in the state it meets. -/
def Throughout (step : State → Event → Option State) (condition : State → Event → Prop) :
    State → List Event → Prop
  | _, [] => True
  | state, event :: events =>
      condition state event ∧ ∀ next, step state event = some next →
        Throughout step condition next events

variable {step : State → Event → Option State} {condition : State → Event → Prop}

@[simp] theorem run_nil (state : State) : run step state [] = some state := rfl

theorem run_cons (state : State) (event : Event) (events : List Event) :
    run step state (event :: events) =
      (step state event).bind fun next => run step next events := rfl

theorem run_append (state : State) (events later : List Event) :
    run step state (events ++ later) =
      (run step state events).bind fun next => run step next later := by
  induction events generalizing state with
  | nil => rfl
  | cons event events inductionHypothesis =>
      rw [List.cons_append, run_cons, run_cons, Option.bind_assoc]
      exact congrArg _ (funext inductionHypothesis)

theorem run_cons_eq_some {state final : State} {event : Event} {events : List Event}
    (runs : run step state (event :: events) = some final) :
    ∃ next, step state event = some next ∧ run step next events = some final := by
  simpa [run_cons, Option.bind_eq_some_iff] using runs

theorem throughout_cons {state next : State} {event : Event} {events : List Event}
    (stepped : step state event = some next) (meets : condition state event)
    (later : Throughout step condition next events) :
    Throughout step condition state (event :: events) := by
  refine ⟨meets, fun other stepped_other => ?_⟩
  rw [stepped] at stepped_other
  cases stepped_other
  exact later

/-- A condition on the events alone is met throughout when each event meets it. -/
theorem throughout_of_forall_mem {accepted : Event → Prop} {events : List Event}
    (all : ∀ event ∈ events, accepted event) (state : State) :
    Throughout step (fun _ event => accepted event) state events := by
  induction events generalizing state with
  | nil => trivial
  | cons event events inductionHypothesis =>
      rw [List.forall_mem_cons] at all
      exact ⟨all.1, fun next _ => inductionHypothesis all.2 next⟩

theorem Throughout.mono {weaker : State → Event → Prop}
    (weakens : ∀ state event, condition state event → weaker state event) {state : State}
    {events : List Event} (meets : Throughout step condition state events) :
    Throughout step weaker state events := by
  induction events generalizing state with
  | nil => trivial
  | cons event events inductionHypothesis =>
      exact ⟨weakens state event meets.1,
        fun next stepped => inductionHypothesis (meets.2 next stepped)⟩

theorem Throughout.and {other : State → Event → Prop} {state : State} {events : List Event}
    (meets : Throughout step condition state events)
    (also : Throughout step other state events) :
    Throughout step (fun state event => condition state event ∧ other state event) state
      events := by
  induction events generalizing state with
  | nil => trivial
  | cons event events inductionHypothesis =>
      exact ⟨⟨meets.1, also.1⟩,
        fun next stepped => inductionHypothesis (meets.2 next stepped) (also.2 next stepped)⟩

theorem throughout_append {state middle : State} {events later : List Event}
    (runs : run step state events = some middle) (first : Throughout step condition state events)
    (second : Throughout step condition middle later) :
    Throughout step condition state (events ++ later) := by
  induction events generalizing state with
  | nil => exact Option.some.inj runs ▸ second
  | cons event events inductionHypothesis =>
      obtain ⟨next, stepped, rest⟩ := run_cons_eq_some runs
      exact throughout_cons stepped first.1 (inductionHypothesis rest (first.2 next stepped))

theorem Throughout.split {state middle : State} {events later : List Event}
    (meets : Throughout step condition state (events ++ later))
    (runs : run step state events = some middle) :
    Throughout step condition state events ∧ Throughout step condition middle later := by
  induction events generalizing state with
  | nil => exact ⟨trivial, Option.some.inj runs ▸ meets⟩
  | cons event events inductionHypothesis =>
      obtain ⟨next, stepped, rest⟩ := run_cons_eq_some runs
      obtain ⟨first, second⟩ := inductionHypothesis (meets.2 next stepped) rest
      exact ⟨throughout_cons stepped meets.1 first, second⟩

/-- What steps under the condition preserve, runs under the condition preserve. -/
theorem invariant_of_throughout {invariant : State → Prop}
    (preserved : ∀ state event next, invariant state → condition state event →
      step state event = some next → invariant next)
    {state final : State} {events : List Event} (start : invariant state)
    (meets : Throughout step condition state events)
    (runs : run step state events = some final) : invariant final := by
  induction events generalizing state with
  | nil => exact Option.some.inj runs ▸ start
  | cons event events inductionHypothesis =>
      obtain ⟨next, stepped, later⟩ := run_cons_eq_some runs
      exact inductionHypothesis (preserved state event next start meets.1 stepped)
        (meets.2 next stepped) later

/-- What every step preserves, every run preserves. -/
theorem invariant_of_run {invariant : State → Prop}
    (preserved : ∀ state event next, invariant state →
      step state event = some next → invariant next)
    {state final : State} {events : List Event} (start : invariant state)
    (runs : run step state events = some final) : invariant final := by
  induction events generalizing state with
  | nil => exact Option.some.inj runs ▸ start
  | cons event events inductionHypothesis =>
      obtain ⟨next, stepped, later⟩ := run_cons_eq_some runs
      exact inductionHypothesis (preserved state event next start stepped) later

/-- Where each event is possible under an invariant that it keeps, the run is possible. -/
theorem exists_run {invariant : State → Prop} {events : List Event}
    (possible : ∀ state, invariant state → ∀ event ∈ events,
      ∃ next, step state event = some next ∧ invariant next)
    {state : State} (start : invariant state) :
    ∃ final, run step state events = some final ∧ invariant final := by
  induction events generalizing state with
  | nil => exact ⟨state, rfl, start⟩
  | cons event events inductionHypothesis =>
      obtain ⟨next, stepped, kept⟩ := possible state start event List.mem_cons_self
      obtain ⟨final, runs, atEnd⟩ := inductionHypothesis
        (fun other holds later member => possible other holds later (.tail _ member)) kept
      refine ⟨final, ?_, atEnd⟩
      rw [run_cons, stepped]
      exact runs

/-- A run stays possible where all its steps do. -/
theorem run_mono {other : State → Event → Option State}
    (steps : ∀ state event next, step state event = some next → other state event = some next)
    {state final : State} {events : List Event} (runs : run step state events = some final) :
    run other state events = some final := by
  induction events generalizing state with
  | nil => exact runs
  | cons event events inductionHypothesis =>
      obtain ⟨next, stepped, later⟩ := run_cons_eq_some runs
      rw [run_cons, steps state event next stepped]
      exact inductionHypothesis later

/-- A run whose events are translated one by one, some of them into nothing. -/
theorem map_run {Coarse CoarseEvent : Type} {coarse : Coarse → CoarseEvent → Option Coarse}
    {abstraction : State → Coarse} {translate : Event → Option CoarseEvent} {events : List Event}
    (skipped : ∀ state, ∀ event ∈ events, translate event = none → step state event = some state)
    (taken : ∀ state, ∀ event ∈ events, ∀ image, translate event = some image →
      (step state event).map abstraction = coarse (abstraction state) image) (state : State) :
    (run step state events).map abstraction =
      run coarse (abstraction state) (events.filterMap translate) := by
  induction events generalizing state with
  | nil => rfl
  | cons event events inductionHypothesis =>
      have rest := inductionHypothesis
        (fun other later member => skipped other later (.tail _ member))
        (fun other later member => taken other later (.tail _ member))
      rw [run_cons]
      cases translated : translate event with
      | none =>
          rw [skipped state event List.mem_cons_self translated,
            List.filterMap_cons_none translated]
          exact rest state
      | some image =>
          rw [List.filterMap_cons_some translated, run_cons,
            ← taken state event List.mem_cons_self image translated]
          cases step state event with
          | none => rfl
          | some next => exact rest next

/-- The property holds in every state of the run. -/
def Always (step : State → Event → Option State) (property : State → Prop) :
    State → List Event → Prop
  | state, [] => property state
  | state, event :: events =>
      property state ∧ ∀ next, step state event = some next → Always step property next events

/-- What an invariant gives that steps under the condition preserve, it gives in every
state of a run that meets the condition throughout. -/
theorem always_of_throughout {invariant property : State → Prop}
    (holds : ∀ state, invariant state → property state)
    (preserved : ∀ state event next, invariant state → condition state event →
      step state event = some next → invariant next)
    {state : State} {events : List Event} (start : invariant state)
    (meets : Throughout step condition state events) : Always step property state events := by
  induction events generalizing state with
  | nil => exact holds state start
  | cons event events inductionHypothesis =>
      exact ⟨holds state start, fun next stepped =>
        inductionHypothesis (preserved state event next start meets.1 stepped)
          (meets.2 next stepped)⟩

/-- Where exactly the steps under the condition keep an invariant that gives the
property, and every other step leads to a state without the property, the property
holds in every state of a run if and only if the run meets the condition throughout. -/
theorem always_iff_throughout {invariant property : State → Prop}
    (holds : ∀ state, invariant state → property state)
    (preserved : ∀ state event next, invariant state → condition state event →
      step state event = some next → invariant next)
    (violated : ∀ state event next, invariant state → ¬ condition state event →
      step state event = some next → ¬ property next)
    {state final : State} {events : List Event} (start : invariant state)
    (runs : run step state events = some final) :
    Always step property state events ↔ Throughout step condition state events := by
  refine ⟨fun always => ?_, always_of_throughout holds preserved start⟩
  induction events generalizing state with
  | nil => trivial
  | cons event events inductionHypothesis =>
      obtain ⟨next, stepped, later⟩ := run_cons_eq_some runs
      have now := always.2 next stepped
      have meets : condition state event := by
        by_contra violates
        refine violated state event next start violates stepped ?_
        cases events with
        | nil => exact now
        | cons => exact now.1
      exact throughout_cons stepped meets
        (inductionHypothesis (preserved state event next start meets stepped) later now)

end SmartDnsPlusUi.Run
