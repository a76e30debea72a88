import SmartDnsPlusUi.Files.Basic

/-!
# What a program leaves alone

A program leaves a file alone if it ends with the file as it was, whichever of its calls
fails.  The rules follow the structure of a program; a call leaves alone all that is not
among its targets.
-/

namespace SmartDnsPlusUi.Files.Program

variable {Value Result : Type} {allowed : Call → Option Fault → Prop} {path : Text}

def LeavesAlone (allowed : Call → Option Fault → Prop) (path : Text) (program : Program Value) :
    Prop :=
  ∀ files result after, program.Gives allowed files result after → after path = files path

theorem leavesAlone_done (value : Value) : (done value).LeavesAlone allowed path := by
  rintro files result after ⟨-, rfl⟩
  rfl

theorem leavesAlone_call {request : Call} {next : request.Reply → Program Value}
    (outside : path ∉ request.targets) (later : ∀ reply, (next reply).LeavesAlone allowed path) :
    (call request next).LeavesAlone allowed path := by
  rintro files result after ⟨fault, -, rest⟩
  exact (later _ _ _ _ rest).trans (perform_other outside files)

/-- The only call of a program. -/
theorem leavesAlone_single {request : Call} {value : request.Reply → Value}
    (outside : path ∉ request.targets) :
    (call request fun reply => done (value reply)).LeavesAlone allowed path :=
  leavesAlone_call outside fun _ => leavesAlone_done _

theorem LeavesAlone.bind {program : Program Value} {next : Value → Program Result}
    (first : program.LeavesAlone allowed path)
    (later : ∀ value, (next value).LeavesAlone allowed path) :
    (program.bind next).LeavesAlone allowed path := by
  intro files result after gives
  obtain ⟨value, between, ran, rest⟩ := gives_bind.mp gives
  exact (later _ _ _ _ rest).trans (first _ _ _ ran)

theorem LeavesAlone.proceed {program : Program (Except ErrorKind Value)}
    {next : Value → Program (Except ErrorKind Result)}
    (first : program.LeavesAlone allowed path)
    (later : ∀ value, (next value).LeavesAlone allowed path) :
    (program.proceed next).LeavesAlone allowed path := by
  apply first.bind
  intro outcome
  cases outcome with
  | ok value => exact later value
  | error kind => exact leavesAlone_done _

end SmartDnsPlusUi.Files.Program
