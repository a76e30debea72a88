import SmartDnsPlusUi.Files.Frames

/-!
# Where a program can be interrupted

A program passes through the file systems that it leaves after some of its calls, also
after a call that fails and leaves anything at its target.  A program spares a file if the
file stays as it is in all of them.
-/

namespace SmartDnsPlusUi.Files.Program

variable {Value Result : Type} {allowed : Call → Option Fault → Prop}

/-- After some of its calls the program leaves the second file system. -/
def Passes (allowed : Call → Option Fault → Prop) :
    Program Value → FileSystem → FileSystem → Prop
  | .done _, files, between => files = between
  | .call request next, files, between =>
      files = between ∨ ∃ fault, allowed request fault ∧
        (next (perform fault request files).1).Passes allowed (perform fault request files).2
          between

theorem passes_end {program : Program Value} {files after : FileSystem} {result : Value}
    (gives : program.Gives allowed files result after) : program.Passes allowed files after := by
  induction program generalizing files with
  | done value => exact gives.2
  | call request next inductionHypothesis =>
      obtain ⟨fault, met, rest⟩ := gives
      exact .inr ⟨fault, met, inductionHypothesis _ rest⟩

theorem passes_bind {program : Program Value} {next : Value → Program Result}
    {files between : FileSystem} (passes : (program.bind next).Passes allowed files between) :
    program.Passes allowed files between ∨
      ∃ value middle, program.Gives allowed files value middle ∧
        (next value).Passes allowed middle between := by
  induction program generalizing files with
  | done value => exact .inr ⟨value, files, ⟨rfl, rfl⟩, passes⟩
  | call request rest inductionHypothesis =>
      rcases passes with here | ⟨fault, met, later⟩
      · exact .inl (.inl here)
      · rcases inductionHypothesis _ later with first | ⟨value, middle, ran, second⟩
        · exact .inl (.inr ⟨fault, met, first⟩)
        · exact .inr ⟨value, middle, ⟨fault, met, ran⟩, second⟩

theorem passes_proceed {program : Program (Except ErrorKind Value)}
    {next : Value → Program (Except ErrorKind Result)} {files between : FileSystem}
    (passes : (program.proceed next).Passes allowed files between) :
    program.Passes allowed files between ∨
      ∃ value middle, program.Gives allowed files (.ok value) middle ∧
        (next value).Passes allowed middle between := by
  rcases passes_bind passes with first | ⟨outcome, middle, ran, later⟩
  · exact .inl first
  · cases outcome with
    | ok value => exact .inr ⟨value, middle, ran, later⟩
    | error kind =>
        obtain rfl : middle = between := later
        exact .inl (passes_end ran)

/-- The file system after the first calls, when all of them go undisturbed. -/
def stopped : Nat → Program Value → FileSystem → FileSystem
  | calls + 1, .call request next, files =>
      stopped calls (next (perform none request files).1) (perform none request files).2
  | _, _, files => files

theorem passes_stopped (undisturbed : ∀ request, allowed request none) (calls : Nat)
    (program : Program Value) (files : FileSystem) :
    program.Passes allowed files (program.stopped calls files) := by
  induction program generalizing calls files with
  | done value =>
      cases calls with
      | zero => rfl
      | succ calls => rfl
  | call request next inductionHypothesis =>
      cases calls with
      | zero => exact .inl rfl
      | succ calls =>
          exact .inr ⟨none, undisturbed request, inductionHypothesis _ calls _⟩

/-! ### Files that are spared -/

variable {path : Text}

def Spares (allowed : Call → Option Fault → Prop) (path : Text) (program : Program Value) :
    Prop :=
  ∀ files between, program.Passes allowed files between → between path = files path

theorem Spares.gives {program : Program Value} (spares : program.Spares allowed path)
    {files after : FileSystem} {result : Value}
    (gives : program.Gives allowed files result after) : after path = files path :=
  spares _ _ (passes_end gives)

theorem spares_done (value : Value) : (done value).Spares allowed path := by
  rintro files between rfl
  rfl

theorem spares_call {request : Call} {next : request.Reply → Program Value}
    (outside : path ∉ request.targets) (later : ∀ reply, (next reply).Spares allowed path) :
    (call request next).Spares allowed path := by
  rintro files between (rfl | ⟨fault, -, rest⟩)
  · rfl
  · exact (later _ _ _ rest).trans (perform_other outside files)

/-- The only call of a program. -/
theorem spares_single {request : Call} {value : request.Reply → Value}
    (outside : path ∉ request.targets) :
    (call request fun reply => done (value reply)).Spares allowed path :=
  spares_call outside fun _ => spares_done _

theorem Spares.proceed {program : Program (Except ErrorKind Value)}
    {next : Value → Program (Except ErrorKind Result)} (first : program.Spares allowed path)
    (later : ∀ value, (next value).Spares allowed path) :
    (program.proceed next).Spares allowed path := by
  intro files between passes
  rcases passes_proceed passes with here | ⟨value, middle, ran, rest⟩
  · exact first _ _ here
  · exact (later _ _ _ rest).trans (first.gives ran)

/-! ### Renames that are not rejected -/

/-- No rename fails for lack of permission. -/
def KeepsRenames (allowed : Call → Option Fault → Prop) : Prop :=
  ∀ source target fault, allowed (.rename source target) (some fault) →
    fault.kind ≠ .permissionDenied

end SmartDnsPlusUi.Files.Program
