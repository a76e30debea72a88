import Mathlib.Data.List.Induction

/-!
# Published summaries

Calls read a summary of a state in one step and publish it in a later one, several of them at
a time, while the state goes on changing.  What is published is at any time the summary that
the last call to publish had read.
-/

namespace SmartDnsPlusUi.Run

variable {State Event Summary Call : Type}

/-- The state after the events. -/
def after (step : State → Event → State) (state : State) (events : List Event) : State :=
  events.foldl step state

@[simp] theorem after_nil (step : State → Event → State) (state : State) :
    after step state [] = state := rfl

@[simp] theorem after_snoc (step : State → Event → State) (state : State) (events : List Event)
    (event : Event) :
    after step state (events ++ [event]) = step (after step state events) event :=
  List.foldl_append

theorem after_append (step : State → Event → State) (state : State) (first second : List Event) :
    after step state (first ++ second) = after step (after step state first) second :=
  List.foldl_append

/-- A system whose calls read summaries and publish them. -/
structure Publisher (State Event Summary Call : Type) where
  step : State → Event → State
  /-- What a call has read and not yet published. -/
  held : Call → State → Option Summary
  published : State → Summary
  /-- The event reads a summary of the state for the call. -/
  reads : Call → Event → Prop
  /-- The event publishes what the call has read. -/
  publishes : Call → State → Event → Prop
  /-- What an event may read in a state. -/
  summarizes : Event → State → Summary → Prop

namespace Publisher

/-- What each step may do to the summaries. -/
structure Lawful (publisher : Publisher State Event Summary Call) : Prop where
  read : ∀ call state event, publisher.reads call event →
    ∀ summary, publisher.held call (publisher.step state event) = some summary →
      publisher.summarizes event state summary
  keep : ∀ call state event, ¬ publisher.reads call event →
    ∀ summary, publisher.held call (publisher.step state event) = some summary →
      publisher.held call state = some summary
  publish : ∀ call state event, publisher.publishes call state event →
    publisher.held call state = some (publisher.published (publisher.step state event))
  stay : ∀ state event, (∀ call, ¬ publisher.publishes call state event) →
    publisher.published (publisher.step state event) = publisher.published state

variable (publisher : Publisher State Event Summary Call)

/-- No event of the run publishes anything. -/
def Quiet (state : State) (events : List Event) : Prop :=
  ∀ before event rest, events = before ++ event :: rest →
    ∀ call, ¬ publisher.publishes call (after publisher.step state before) event

/-- The call has read the summary, and has read nothing since. -/
structure ReadsLast (call : Call) (start : State) (events before : List Event) (event : Event)
    (summary : Summary) : Prop where
  events_eq : ∃ rest, events = before ++ event :: rest ∧ ∀ later ∈ rest, ¬ publisher.reads call later
  reads : publisher.reads call event
  summarizes : publisher.summarizes event (after publisher.step start before) summary

variable {publisher} {start : State}

theorem quiet_nil : publisher.Quiet start [] := by
  intro before event rest split
  exact absurd split (by simp)

theorem Quiet.snoc {events : List Event} {event : Event} (quiet : publisher.Quiet start events)
    (last : ∀ call, ¬ publisher.publishes call (after publisher.step start events) event) :
    publisher.Quiet start (events ++ [event]) := by
  intro before other rest split
  rcases List.eq_nil_or_concat rest with rfl | ⟨front, final, rfl⟩
  · obtain ⟨rfl, same⟩ := List.append_inj' split rfl
    cases same
    exact last
  · have shape : events ++ [event] = (before ++ other :: front) ++ [final] := by
      simpa using split
    exact quiet before other front (List.append_inj' shape rfl).1

/-- What a call holds, it has read. -/
theorem Lawful.readsLast_of_held (lawful : publisher.Lawful) {call : Call} {summary : Summary}
    (empty : publisher.held call start = none) {events : List Event}
    (held : publisher.held call (after publisher.step start events) = some summary) :
    ∃ before event, publisher.ReadsLast call start events before event summary := by
  induction events using List.reverseRecOn with
  | nil =>
      rw [after_nil, empty] at held
      cases held
  | append_singleton events event inductionHypothesis =>
      rw [after_snoc] at held
      by_cases reads : publisher.reads call event
      · refine ⟨events, event, ⟨[], rfl, by simp⟩, reads, ?_⟩
        exact lawful.read call _ event reads summary held
      · obtain ⟨before, read, last⟩ :=
          inductionHypothesis (lawful.keep call _ event reads summary held)
        obtain ⟨rest, rfl, since⟩ := last.events_eq
        refine ⟨before, read, ⟨rest ++ [event], by simp, ?_⟩, last.reads, last.summarizes⟩
        intro later listed
        rcases List.mem_append.mp listed with inside | final
        · exact since later inside
        · rwa [List.mem_singleton.mp final]

/-- What is published at the end of a run was there all along, or the call that was the last
to publish had read it. -/
theorem Lawful.published_after (lawful : publisher.Lawful)
    (empty : ∀ call, publisher.held call start = none) (events : List Event) :
    (publisher.Quiet start events ∧
        publisher.published (after publisher.step start events) = publisher.published start) ∨
      ∃ call earlier publish since, events = earlier ++ publish :: since ∧
        publisher.publishes call (after publisher.step start earlier) publish ∧
        publisher.Quiet (after publisher.step start (earlier ++ [publish])) since ∧
        ∃ before event, publisher.ReadsLast call start earlier before event
          (publisher.published (after publisher.step start events)) := by
  induction events using List.reverseRecOn with
  | nil => exact Or.inl ⟨quiet_nil, rfl⟩
  | append_singleton events event inductionHypothesis =>
      by_cases publishes : ∃ call, publisher.publishes call (after publisher.step start events) event
      · obtain ⟨call, published⟩ := publishes
        refine Or.inr ⟨call, events, event, [], rfl, published, quiet_nil, ?_⟩
        rw [after_snoc]
        exact lawful.readsLast_of_held (empty call) (lawful.publish call _ event published)
      · have none := not_exists.mp publishes
        rw [after_snoc, lawful.stay _ event none]
        rcases inductionHypothesis with ⟨quiet, same⟩ | found
        · exact Or.inl ⟨quiet.snoc none, same⟩
        · obtain ⟨call, earlier, publish, since, rfl, published, quiet, read⟩ := found
          refine Or.inr ⟨call, earlier, publish, since ++ [event], by simp, published, ?_, read⟩
          apply quiet.snoc
          rw [← after_append]
          simpa using none

end Publisher

end SmartDnsPlusUi.Run
