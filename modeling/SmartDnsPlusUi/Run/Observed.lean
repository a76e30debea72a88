import Mathlib.Data.List.Induction
import SmartDnsPlusUi.Run.Basic

/-!
# What is seen of a run

Every step shows some values; those of a run are put one after another.  A relation between the
events so far and the state is carried from one step to the next, and so to the end of a run.
-/

namespace SmartDnsPlusUi.Run

variable {State Event Value : Type}

/-- What the steps of a run show. -/
def observed (step : State → Event → Option State) (shows : State → Event → List Value) :
    State → List Event → List Value
  | _, [] => []
  | state, event :: events =>
      shows state event ++
        match step state event with
        | some next => observed step shows next events
        | none => []

variable {step : State → Event → Option State} {shows : State → Event → List Value}

theorem observed_append {state middle : State} {past : List Event}
    (runs : run step state past = some middle) (future : List Event) :
    observed step shows state (past ++ future) =
      observed step shows state past ++ observed step shows middle future := by
  induction past generalizing state with
  | nil =>
      obtain rfl := Option.some.inj runs
      rfl
  | cons event past inductionHypothesis =>
      obtain ⟨next, stepped, later⟩ := run_cons_eq_some runs
      simp only [List.cons_append, observed, stepped]
      rw [inductionHypothesis later, List.append_assoc]

theorem observed_concat {state middle : State} {past : List Event}
    (runs : run step state past = some middle) (event : Event) :
    observed step shows state (past ++ [event]) =
      observed step shows state past ++ shows middle event := by
  rw [observed_append runs, observed]
  cases step middle event <;> simp [observed]

/-- What each step carries on, from the events so far and its condition, holds at the end. -/
theorem history_of_throughout (invariant : List Event → State → Prop)
    {condition : State → Event → Prop} {start : State} (initially : invariant [] start)
    (preserved : ∀ past event middle next, run step start past = some middle →
      invariant past middle → condition middle event → step middle event = some next →
        invariant (past ++ [event]) next)
    {events : List Event} {final : State} (meets : Throughout step condition start events)
    (runs : run step start events = some final) : invariant events final := by
  induction events using List.reverseRecOn generalizing final with
  | nil =>
      obtain rfl := Option.some.inj runs
      exact initially
  | append_singleton past event inductionHypothesis =>
      rw [run_append, Option.bind_eq_some_iff] at runs
      obtain ⟨middle, before, last⟩ := runs
      obtain ⟨next, stepped, ends⟩ := run_cons_eq_some last
      obtain rfl := Option.some.inj ends
      obtain ⟨first, now⟩ := meets.split before
      exact preserved past event middle next before (inductionHypothesis first before) now.1 stepped

/-- What each step carries on from the events so far holds at the end of every run. -/
theorem history_of_run (invariant : List Event → State → Prop) {start : State}
    (initially : invariant [] start)
    (preserved : ∀ past event middle next, run step start past = some middle →
      invariant past middle → step middle event = some next → invariant (past ++ [event]) next)
    {events : List Event} {final : State} (runs : run step start events = some final) :
    invariant events final := by
  have always : Throughout step (fun _ _ => True) start events :=
    throughout_of_forall_mem (fun _ _ => trivial) start
  apply history_of_throughout invariant initially _ always runs
  exact fun past event middle next before holds _ => preserved past event middle next before holds

end SmartDnsPlusUi.Run
