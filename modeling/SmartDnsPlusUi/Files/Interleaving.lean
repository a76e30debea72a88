import SmartDnsPlusUi.Files.Basic
import SmartDnsPlusUi.Run.Basic

/-!
# Two programs at once

Two programs take turns on one file system, one call a turn.  Calls without a file in
common that one of them changes can trade places.  Where one of the programs only makes
calls that are independent of all that the other one still may do, it might as well have
waited for the end of the other.
-/

namespace SmartDnsPlusUi.Files

open Run Text

/-! ### Independent calls -/

/-- A call does the same where its files are the same. -/
theorem perform_congr {request : Call} {files others : FileSystem}
    (agree : ∀ path ∈ request.paths, files path = others path) (fault : Option Fault) :
    (perform fault request files).1 = (perform fault request others).1 ∧
      ∀ path ∈ request.paths,
        (perform fault request files).2 path = (perform fault request others).2 path := by
  cases request with
  | readToString path =>
      have same := agree path (List.mem_singleton_self _)
      exact ⟨by dsimp only [perform]; rw [same], agree⟩
  | pathExists path =>
      have same := agree path (List.mem_singleton_self _)
      exact ⟨by dsimp only [perform]; rw [same], agree⟩
  | createDirAll path => exact ⟨rfl, agree⟩
  | readDirNamed directory name =>
      have same := agree _ (List.mem_singleton_self _)
      exact ⟨by dsimp only [perform]; rw [same], agree⟩
  | write path content =>
      have same := agree path (List.mem_singleton_self _)
      cases fault with
      | none => simp [perform, Call.paths]
      | some fault => cases left : fault.left <;> simp [perform, Call.paths, leave, left, same]
  | removeFile path =>
      have same := agree path (List.mem_singleton_self _)
      cases fault <;> cases found : others path <;>
        simp [perform, Call.paths, same, found]
  | copy source target =>
      have same := agree source (List.mem_cons_self ..)
      have sameTarget := agree target (List.mem_cons_of_mem _ (List.mem_singleton_self _))
      cases fault with
      | none =>
          cases found : others source <;>
            simp [perform, Call.paths, same, sameTarget, found, Function.update_apply]
      | some fault =>
          cases left : fault.left <;>
            simp [perform, Call.paths, leave, left, same, sameTarget, Function.update_apply]
  | rename source target =>
      have same := agree source (List.mem_cons_self ..)
      have sameTarget := agree target (List.mem_cons_of_mem _ (List.mem_singleton_self _))
      cases fault <;> cases found : others source <;>
        simp [perform, Call.paths, same, sameTarget, found, Function.update_apply]

/-- Neither call changes a file of the other. -/
structure Call.Independent (request other : Call) : Prop where
  forward : ∀ path ∈ request.targets, path ∉ other.paths
  backward : ∀ path ∈ other.targets, path ∉ request.paths

theorem Call.Independent.symm {request other : Call} (independent : request.Independent other) :
    other.Independent request :=
  ⟨independent.backward, independent.forward⟩

section Trade

variable {request other : Call} (independent : request.Independent other)
  (fault otherFault : Option Fault) (files : FileSystem)

include independent

theorem Call.Independent.agree :
    ∀ path ∈ other.paths, (perform fault request files).2 path = files path :=
  fun path inside => perform_other (fun target => independent.forward path target inside) files

/-- The reply of the later call is that which it would have got at once. -/
theorem Call.Independent.reply :
    (perform otherFault other (perform fault request files).2).1 =
      (perform otherFault other files).1 :=
  (perform_congr (independent.agree fault files) otherFault).1

/-- Two independent calls lead to the same files in either order. -/
theorem Call.Independent.trade :
    (perform otherFault other (perform fault request files).2).2 =
      (perform fault request (perform otherFault other files).2).2 := by
  funext path
  by_cases inside : path ∈ other.paths
  · have later := (perform_congr (independent.agree fault files) otherFault).2 path inside
    refine later.trans (perform_other (fun target => ?_) _).symm
    exact independent.forward path target inside
  · have untouched := @perform_other otherFault _ _
      (fun target => inside (Call.mem_paths_of_mem_targets target))
      (perform fault request files).2
    refine untouched.trans ?_
    by_cases own : path ∈ request.paths
    · exact ((perform_congr (independent.symm.agree otherFault files) fault).2 path own).symm
    · have outside : path ∉ request.targets :=
        fun target => own (Call.mem_paths_of_mem_targets target)
      rw [perform_other outside, perform_other outside,
        perform_other fun target => inside (Call.mem_paths_of_mem_targets target)]

end Trade

/-! ### Calls that can wait -/

variable {Value : Type}

/-- A call has nothing to do with a program that uses other paths. -/
theorem Program.Uses.independent {paths : Text → Prop} {program : Program Value}
    (uses : program.Uses paths) {request : Call}
    (apart : ∀ path ∈ request.paths, ¬ paths path) :
    ∀ other, program.MayCall other → request.Independent other := by
  intro other may
  constructor
  · exact fun path target inside =>
      apart path (Call.mem_paths_of_mem_targets target) (uses other may path inside)
  · exact fun path target inside =>
      apart path inside (uses other may path (Call.mem_paths_of_mem_targets target))

/-- A call that is independent of a whole program can be postponed to its end. -/
theorem Program.gives_postponed {allowed : Call → Option Fault → Prop} {program : Program Value}
    {request : Call} (independent : ∀ other, program.MayCall other → request.Independent other)
    {fault : Option Fault} {files after : FileSystem} {value : Value}
    (gives : program.Gives allowed (perform fault request files).2 value after) :
    ∃ before, program.Gives allowed files value before ∧
      (perform fault request before).1 = (perform fault request files).1 ∧
      (perform fault request before).2 = after := by
  induction program generalizing files with
  | done result =>
      obtain ⟨rfl, rfl⟩ := gives
      exact ⟨files, ⟨rfl, rfl⟩, rfl, rfl⟩
  | call first next inductionHypothesis =>
      obtain ⟨met, allowedMet, later⟩ := gives
      have now := independent first (Or.inl rfl)
      rw [now.reply, now.trade] at later
      obtain ⟨before, gives, reply, finished⟩ := inductionHypothesis _
        (fun other may => independent other (Or.inr ⟨met, files, may⟩)) later
      exact ⟨before, ⟨met, allowedMet, gives⟩, reply.trans (now.symm.reply _ _ _), finished⟩

/-! ### Taking turns -/

inductive Party where
  | first
  | second
  deriving DecidableEq

def Party.other : Party → Party
  | .first => .second
  | .second => .first

theorem Party.other_ne (party : Party) : party.other ≠ party := by
  cases party <;> decide

structure Interleaving (Value : Type) where
  program : Party → Program Value
  files : FileSystem

/-- Whose call is next, and the fault that it meets. -/
structure Turn where
  party : Party
  fault : Option Fault := none

/-- The party goes on with a program, on other files. -/
def Interleaving.moved (state : Interleaving Value) (party : Party) (program : Program Value)
    (files : FileSystem) : Interleaving Value where
  program := Function.update state.program party program
  files

@[simp] theorem Interleaving.files_moved (state : Interleaving Value) (party : Party)
    (program : Program Value) (files : FileSystem) :
    (state.moved party program files).files = files := rfl

@[simp] theorem Interleaving.program_moved_self (state : Interleaving Value) (party : Party)
    (program : Program Value) (files : FileSystem) :
    (state.moved party program files).program party = program :=
  Function.update_self _ _ _

theorem Interleaving.program_moved_other (state : Interleaving Value) {party other : Party}
    (different : other ≠ party) (program : Program Value) (files : FileSystem) :
    (state.moved party program files).program other = state.program other :=
  Function.update_of_ne different _ _

@[simp] theorem Interleaving.moved_moved (state : Interleaving Value) (party : Party)
    (program later : Program Value) (files after : FileSystem) :
    (state.moved party program files).moved party later after = state.moved party later after := by
  unfold moved
  rw [Function.update_idem]

def interleave (state : Interleaving Value) (turn : Turn) : Option (Interleaving Value) :=
  match state.program turn.party with
  | .done _ => none
  | .call request next =>
      some (state.moved turn.party (next (perform turn.fault request state.files).1)
        (perform turn.fault request state.files).2)

/-- The fault is one that the call may meet. -/
def Meets (allowed : Call → Option Fault → Prop) (state : Interleaving Value) (turn : Turn) : Prop :=
  ∀ request next, state.program turn.party = .call request next → allowed request turn.fault

/-- A turn of the follower is independent of everything that the leader may still do. -/
def Follows (leader : Party) (state : Interleaving Value) (turn : Turn) : Prop :=
  turn.party = leader.other → ∀ request next, state.program turn.party = .call request next →
    ∀ other, (state.program leader).MayCall other → request.Independent other

theorem interleave_of_call {state : Interleaving Value} {turn : Turn} {request : Call}
    {next : request.Reply → Program Value} (found : state.program turn.party = .call request next) :
    interleave state turn =
      some (state.moved turn.party (next (perform turn.fault request state.files).1)
        (perform turn.fault request state.files).2) := by
  unfold interleave
  rw [found]

theorem interleave_eq_some {state next : Interleaving Value} {turn : Turn}
    (stepped : interleave state turn = some next) :
    ∃ request rest, state.program turn.party = .call request rest ∧
      next = state.moved turn.party (rest (perform turn.fault request state.files).1)
        (perform turn.fault request state.files).2 := by
  cases found : state.program turn.party with
  | done value =>
      unfold interleave at stepped
      rw [found] at stepped
      cases stepped
  | call request rest =>
      rw [interleave_of_call found] at stepped
      exact ⟨request, rest, rfl, (Option.some.inj stepped).symm⟩

/-- Where the follower stays out of what the leader may still do, the run is the whole
program of the leader with the whole program of the follower after it. -/
theorem interleaving_serial {allowed : Call → Option Fault → Prop} {leader : Party}
    {turns : List Turn} {state final : Interleaving Value} {lead follow : Value}
    (runs : run interleave state turns = some final)
    (met : Throughout interleave (Meets allowed) state turns)
    (follows : Throughout interleave (Follows leader) state turns)
    (led : final.program leader = .done lead)
    (followed : final.program leader.other = .done follow) :
    ∃ between, (state.program leader).Gives allowed state.files lead between ∧
      (state.program leader.other).Gives allowed between follow final.files := by
  induction turns generalizing state with
  | nil =>
      cases runs
      rw [led, followed]
      exact ⟨final.files, ⟨rfl, rfl⟩, rfl, rfl⟩
  | cons turn turns inductionHypothesis =>
      obtain ⟨next, stepped, later⟩ := run_cons_eq_some runs
      obtain ⟨between, leads, follower⟩ :=
        inductionHypothesis later (met.2 next stepped) (follows.2 next stepped)
      obtain ⟨request, rest, found, rfl⟩ := interleave_eq_some stepped
      by_cases leading : turn.party = leader
      · subst leading
        rw [state.program_moved_self, state.files_moved] at leads
        rw [state.program_moved_other turn.party.other_ne] at follower
        rw [found]
        exact ⟨between, ⟨turn.fault, met.1 _ _ found, leads⟩, follower⟩
      · have following : turn.party = leader.other := by
          revert leading
          cases turn.party <;> cases leader <;> decide
        rw [state.program_moved_other fun same => leading same.symm] at leads
        obtain ⟨before, leads, reply, finished⟩ :=
          Program.gives_postponed (follows.1 following _ _ found) leads
        rw [← following] at follower ⊢
        rw [state.program_moved_self, ← reply, ← finished] at follower
        rw [found]
        exact ⟨before, leads, turn.fault, met.1 _ _ found, follower⟩

/-- A number of undisturbed calls of one program. -/
def Program.advance : Nat → Program Value → FileSystem → Option (Program Value × FileSystem)
  | 0, program, files => some (program, files)
  | _ + 1, .done _, _ => none
  | n + 1, .call request next, files =>
      (next (perform none request files).1).advance n (perform none request files).2

theorem run_replicate {state : Interleaving Value} {party : Party} {n : Nat}
    {program : Program Value} {files : FileSystem}
    (advanced : (state.program party).advance n state.files = some (program, files)) :
    run interleave state (List.replicate n { party }) =
      some (state.moved party program files) := by
  induction n generalizing state with
  | zero =>
      cases advanced
      unfold Interleaving.moved
      rw [Function.update_eq_self]
      rfl
  | succ n inductionHypothesis =>
      cases found : state.program party with
      | done value =>
          rw [found] at advanced
          cases advanced
      | call request rest =>
          rw [found] at advanced
          rw [List.replicate_succ, run_cons, interleave_of_call found, Option.bind_some]
          rw [inductionHypothesis (by rwa [state.program_moved_self]), state.moved_moved]

/-- A party can go on undisturbed to the end of its program. -/
theorem exists_finish (state : Interleaving Value) (party : Party) :
    ∃ turns final, (∀ turn ∈ turns, turn = { party }) ∧ run interleave state turns = some final ∧
      (∃ outcome, final.program party = .done outcome) ∧
      final.program party.other = state.program party.other := by
  generalize found : state.program party = program
  induction program generalizing state with
  | done value => exact ⟨[], state, nofun, rfl, ⟨value, found⟩, rfl⟩
  | call request rest inductionHypothesis =>
      obtain ⟨turns, final, undisturbed, runs, finished, kept⟩ :=
        inductionHypothesis _ _ (state.program_moved_self party _
          (perform none request state.files).2)
      refine ⟨{ party } :: turns, final, ?_, ?_, finished, ?_⟩
      · exact List.forall_mem_cons.mpr ⟨rfl, undisturbed⟩
      · rw [run_cons, interleave_of_call found]
        exact runs
      · exact kept.trans (state.program_moved_other party.other_ne _ _)

theorem meets_of_undisturbed {allowed : Call → Option Fault → Prop}
    (none : ∀ request, allowed request none) {turns : List Turn}
    (undisturbed : ∀ turn ∈ turns, turn.fault = Option.none) (state : Interleaving Value) :
    Throughout interleave (Meets allowed) state turns := by
  refine (throughout_of_forall_mem undisturbed state).mono fun state turn quiet request _ _ => ?_
  rw [quiet]
  exact none request

/-- The leader itself is free. -/
theorem follows_of_leading {leader : Party} {turns : List Turn}
    (leading : ∀ turn ∈ turns, turn.party = leader) (state : Interleaving Value) :
    Throughout interleave (Follows leader) state turns := by
  refine (throughout_of_forall_mem leading state).mono fun state turn leads following => ?_
  exact absurd (following.symm.trans leads) leader.other_ne

/-- Behind a leader that has finished the follower is free. -/
theorem follows_of_done {leader : Party} {turns : List Turn} {state : Interleaving Value}
    {lead : Value} (led : state.program leader = .done lead) :
    Throughout interleave (Follows leader) state turns := by
  induction turns generalizing state with
  | nil => trivial
  | cons turn turns inductionHypothesis =>
      refine ⟨fun _ _ _ _ other may => ?_, fun next stepped => inductionHypothesis ?_⟩
      · rw [led] at may
        exact may.elim
      · obtain ⟨request, rest, found, rfl⟩ := interleave_eq_some stepped
        have different : leader ≠ turn.party := by
          intro same
          rw [← same, led] at found
          cases found
        rw [state.program_moved_other different, led]

end SmartDnsPlusUi.Files
