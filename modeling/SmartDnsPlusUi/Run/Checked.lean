import SmartDnsPlusUi.Run.Basic

/-!
# Operations that can panic

Slices with bounds that are checked, unwrapped values, and loops over events that go on until
a step ends them.  A loop panics exactly when it reaches an event whose step does.
-/

namespace SmartDnsPlusUi.Run

inductive Panic where
  | outOfBounds
  | lengthMismatch
  | unwrapped
  deriving DecidableEq

abbrev Checked (Value : Type) := Except Panic Value

/-- There is a value, and no panic. -/
def Safe {Value : Type} (checked : Checked Value) : Prop := ∃ value, checked = .ok value

section

variable {Element Value Result : Type}

/-- The part of a slice from one position up to another. -/
def slice (elements : List Element) (start stop : Nat) : Checked (List Element) :=
  if start ≤ stop ∧ stop ≤ elements.length then .ok ((elements.take stop).drop start)
  else .error .outOfBounds

def sliceFrom (elements : List Element) (start : Nat) : Checked (List Element) :=
  slice elements start elements.length

def index (elements : List Element) (position : Nat) : Checked Element :=
  match elements[position]? with
  | some element => .ok element
  | none => .error .outOfBounds

def unwrap : Option Value → Checked Value
  | some value => .ok value
  | none => .error .unwrapped

/-- The elements that a slice of the same length has after `copy_from_slice`. -/
def copyFromSlice (target source : List Element) : Checked (List Element) :=
  if target.length = source.length then .ok source else .error .lengthMismatch

theorem safe_ok (value : Value) : Safe (.ok value : Checked Value) := ⟨value, rfl⟩

theorem not_safe_error (panic : Panic) : ¬ Safe (.error panic : Checked Value) := nofun

theorem safe_bind_iff (checked : Checked Value) (next : Value → Checked Result) :
    Safe (checked >>= next) ↔ ∃ value, checked = .ok value ∧ Safe (next value) := by
  cases checked with
  | ok value =>
      constructor
      · exact fun safe => ⟨value, rfl, safe⟩
      · rintro ⟨other, same, safe⟩
        cases same
        exact safe
  | error panic =>
      constructor
      · exact fun safe => absurd safe (not_safe_error panic)
      · rintro ⟨other, same, -⟩
        cases same

theorem safe_bind {checked : Checked Value} {value : Value} {next : Value → Checked Result}
    (gives : checked = .ok value) (safe : Safe (next value)) : Safe (checked >>= next) :=
  (safe_bind_iff checked next).mpr ⟨value, gives, safe⟩

theorem safe_ite {condition : Prop} [Decidable condition] {one other : Checked Value}
    (holds : condition → Safe one) (fails : ¬ condition → Safe other) :
    Safe (if condition then one else other) := by
  split_ifs with test
  · exact holds test
  · exact fails test

/-- A value may be unwrapped after the test that it is there. -/
theorem safe_unwrap {value : Option Value} {next : Value → Checked Result}
    (tested : ¬ value.isNone = true) (safe : ∀ inner, value = some inner → Safe (next inner)) :
    Safe (unwrap value >>= next) := by
  cases value with
  | none => exact absurd rfl tested
  | some inner => exact safe inner rfl

theorem slice_of_le {elements : List Element} {start stop : Nat} (ordered : start ≤ stop)
    (within : stop ≤ elements.length) :
    slice elements start stop = .ok ((elements.take stop).drop start) :=
  if_pos ⟨ordered, within⟩

theorem slice_of_lt {elements : List Element} {start stop : Nat}
    (outside : elements.length < stop) : slice elements start stop = .error .outOfBounds :=
  if_neg fun inside => absurd inside.2 (Nat.not_le_of_lt outside)

theorem sliceFrom_of_le {elements : List Element} {start : Nat}
    (within : start ≤ elements.length) : sliceFrom elements start = .ok (elements.drop start) := by
  rw [sliceFrom, slice_of_le within (Nat.le_refl _), List.take_length]

theorem index_of_lt {elements : List Element} {position : Nat}
    (within : position < elements.length) :
    index elements position = .ok (elements.get ⟨position, within⟩) := by
  rw [index, List.getElem?_eq_getElem within]
  rfl

end

/-! ### Loops -/

variable {State Event : Type}

/-- Take the steps for the events until one ends the loop; `none` once it has ended. -/
def loop (step : State → Event → Checked (Option State)) :
    State → List Event → Checked (Option State)
  | state, [] => .ok (some state)
  | state, event :: events =>
      step state event >>= fun outcome =>
        match outcome with
        | some next => loop step next events
        | none => .ok none

/-- The step as one that is impossible where the loop does not go on. -/
def goesOn (step : State → Event → Checked (Option State)) (state : State) (event : Event) :
    Option State :=
  match step state event with
  | .ok outcome => outcome
  | .error _ => none

/-- A loop panics only at an event that it reaches. -/
theorem safe_loop_iff (step : State → Event → Checked (Option State)) (state : State)
    (events : List Event) :
    Safe (loop step state events) ↔
      Throughout (goesOn step) (fun state event => Safe (step state event)) state events := by
  induction events generalizing state with
  | nil => exact iff_of_true (safe_ok _) trivial
  | cons event events inductionHypothesis =>
      rw [loop, safe_bind_iff, Throughout, goesOn]
      cases step state event with
      | error panic =>
          constructor
          · rintro ⟨outcome, same, -⟩
            cases same
          · exact fun all => absurd all.1 (not_safe_error panic)
      | ok outcome =>
          cases outcome with
          | none =>
              refine iff_of_true ⟨none, rfl, safe_ok _⟩ ⟨safe_ok _, nofun⟩
          | some next =>
              constructor
              · rintro ⟨other, same, safe⟩
                cases same
                refine ⟨safe_ok _, fun other same => ?_⟩
                cases same
                exact (inductionHypothesis next).mp safe
              · exact fun all => ⟨some next, rfl, (inductionHypothesis next).mpr (all.2 next rfl)⟩

/-- A loop none of whose steps can panic. -/
theorem safe_loop {step : State → Event → Checked (Option State)}
    (safe : ∀ state event, Safe (step state event)) (state : State) (events : List Event) :
    Safe (loop step state events) := by
  rw [safe_loop_iff]
  have all : Throughout (goesOn step) (fun _ _ => True) state events :=
    throughout_of_forall_mem (fun _ _ => trivial) state
  exact all.mono fun state event _ => safe state event

end SmartDnsPlusUi.Run
