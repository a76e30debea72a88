import Mathlib.Logic.Function.Basic
import SmartDnsPlusUi.Text.Path

/-!
# Files and programs over them

A file system gives the content of each path that is a file.  A program is a tree
of calls, each of which goes on with the reply.  A call can fail; a write that fails
can leave anything at its target.
-/

namespace SmartDnsPlusUi.Files

open Text

/-! ### Calls -/

inductive ErrorKind where
  | notFound
  | permissionDenied
  | invalidData
  | other
  deriving DecidableEq

/-- The content of a file: a text, or bytes that are not UTF-8. -/
inductive Content where
  | text (t : Text)
  | binary (bytes : List UInt8)
  deriving DecidableEq

abbrev FileSystem := Text → Option Content

inductive Call where
  | readToString (path : Text)
  | pathExists (path : Text)
  | createDirAll (path : Text)
  | write (path content : Text)
  | rename (source target : Text)
  | removeFile (path : Text)
  | copy (source target : Text)
  /-- `read_dir`, of whose entries those with the name are kept. -/
  | readDirNamed (directory name : Text)

@[reducible] def Call.Reply : Call → Type
  | .readToString _ => Except ErrorKind Text
  | .pathExists _ => Bool
  | .readDirNamed _ _ => Except ErrorKind (List Text)
  | _ => Except ErrorKind Unit

/-- The paths that a call may change. -/
def Call.targets : Call → List Text
  | .write path _ => [path]
  | .rename source target => [source, target]
  | .removeFile path => [path]
  | .copy _ target => [target]
  | _ => []

/-- The paths on which the reply and the changes depend, and those that are changed. -/
def Call.paths : Call → List Text
  | .readToString path => [path]
  | .pathExists path => [path]
  | .createDirAll _ => []
  | .write path _ => [path]
  | .rename source target => [source, target]
  | .removeFile path => [path]
  | .copy source target => [source, target]
  | .readDirNamed directory name => [pathJoin directory name]

theorem Call.mem_paths_of_mem_targets {request : Call} {path : Text}
    (target : path ∈ request.targets) : path ∈ request.paths := by
  cases request with
  | copy source destination => exact List.mem_cons_of_mem _ target
  | write | rename | removeFile => exact target
  | readToString | pathExists | createDirAll | readDirNamed => cases target

/-- Why a call fails, and what it leaves at the file that it was writing. -/
structure Fault where
  kind : ErrorKind
  left : Option Content := none

/-- What an interrupted write leaves behind. -/
def leave (path : Text) (left : Option Content) (files : FileSystem) : FileSystem :=
  match left with
  | none => files
  | some content => Function.update files path (some content)

/-- The reply to a call, and the file system afterwards. -/
def perform (fault : Option Fault) : (request : Call) → FileSystem → request.Reply × FileSystem
  | .readToString path, files =>
      (match fault, files path with
        | some fault, _ => Except.error fault.kind
        | none, none => Except.error .notFound
        | none, some (.binary _) => Except.error .invalidData
        | none, some (.text t) => Except.ok t, files)
  | .pathExists path, files => ((fault.isNone && (files path).isSome : Bool), files)
  | .createDirAll _, files =>
      (match fault with
        | some fault => Except.error fault.kind
        | none => Except.ok (), files)
  | .write path content, files =>
      match fault with
      | some fault => (Except.error fault.kind, leave path fault.left files)
      | none => (Except.ok (), Function.update files path (some (.text content)))
  | .rename source target, files =>
      match fault, files source with
      | some fault, _ => (Except.error fault.kind, files)
      | none, none => (Except.error .notFound, files)
      | none, some content =>
          (Except.ok (), Function.update (Function.update files source none) target (some content))
  | .removeFile path, files =>
      match fault, files path with
      | some fault, _ => (Except.error fault.kind, files)
      | none, none => (Except.error .notFound, files)
      | none, some _ => (Except.ok (), Function.update files path none)
  | .copy source target, files =>
      match fault, files source with
      | some fault, _ => (Except.error fault.kind, leave target fault.left files)
      | none, none => (Except.error .notFound, files)
      | none, some content => (Except.ok (), Function.update files target (some content))
  | .readDirNamed directory name, files =>
      (match fault with
        | some fault => Except.error fault.kind
        | none =>
            -- the empty path is no directory
            if directory = [] then Except.error .notFound
            else Except.ok (if (files (pathJoin directory name)).isSome
              then [pathJoin directory name] else []), files)

/-- A directory has at most one entry of a name. -/
theorem drop_one_listed {fault : Option Fault} {directory name : Text} {files : FileSystem}
    {entries : List Text}
    (listed : (perform fault (.readDirNamed directory name) files).1 = .ok entries) :
    entries.drop 1 = [] := by
  cases fault with
  | some fault => cases listed
  | none =>
      dsimp only [perform] at listed
      split_ifs at listed
      · obtain rfl := Except.ok.inj listed
        rfl
      · obtain rfl := Except.ok.inj listed
        rfl

theorem leave_other {path other : Text} (different : other ≠ path) (left : Option Content)
    (files : FileSystem) : leave path left files other = files other := by
  cases left with
  | none => rfl
  | some content => exact Function.update_of_ne different _ _

/-- A call changes nothing but its targets. -/
theorem perform_other {fault : Option Fault} {request : Call} {path : Text}
    (outside : path ∉ request.targets) (files : FileSystem) :
    (perform fault request files).2 path = files path := by
  cases request with
  | readToString source => rfl
  | pathExists source => rfl
  | createDirAll source => rfl
  | readDirNamed directory name => rfl
  | write target content =>
      have different : path ≠ target := by simpa [Call.targets] using outside
      cases fault with
      | none => exact Function.update_of_ne different _ _
      | some fault => exact leave_other different _ _
  | rename source target =>
      have different : path ≠ source ∧ path ≠ target := by simpa [Call.targets] using outside
      dsimp only [perform]
      split
      · rfl
      · rfl
      · exact (Function.update_of_ne different.2 _ _).trans (Function.update_of_ne different.1 _ _)
  | removeFile target =>
      have different : path ≠ target := by simpa [Call.targets] using outside
      dsimp only [perform]
      split
      · rfl
      · rfl
      · exact Function.update_of_ne different _ _
  | copy source target =>
      have different : path ≠ target := by simpa [Call.targets] using outside
      dsimp only [perform]
      split
      · exact leave_other different _ _
      · rfl
      · exact Function.update_of_ne different _ _

/-! ### Programs -/

inductive Program (Value : Type) where
  | done (value : Value)
  | call (request : Call) (next : request.Reply → Program Value)

variable {Value Result : Type}

namespace Program

def bind (next : Value → Program Result) : Program Value → Program Result
  | .done value => next value
  | .call request rest => .call request fun reply => (rest reply).bind next

/-- Go on with the value, unless there is an error. -/
def proceed (program : Program (Except ErrorKind Value))
    (next : Value → Program (Except ErrorKind Result)) : Program (Except ErrorKind Result) :=
  program.bind fun outcome =>
    match outcome with
    | .ok value => next value
    | .error kind => .done (.error kind)

theorem bind_assoc {Final : Type} (program : Program Value) (next : Value → Program Result)
    (last : Result → Program Final) :
    (program.bind next).bind last = program.bind fun value => (next value).bind last := by
  induction program with
  | done value => rfl
  | call request rest inductionHypothesis => exact congrArg _ (funext inductionHypothesis)

theorem proceed_assoc {Final : Type} (program : Program (Except ErrorKind Value))
    (next : Value → Program (Except ErrorKind Result))
    (last : Result → Program (Except ErrorKind Final)) :
    (program.proceed next).proceed last = program.proceed fun value => (next value).proceed last := by
  refine (bind_assoc program _ _).trans (congrArg program.bind (funext fun outcome => ?_))
  cases outcome with
  | ok value => rfl
  | error kind => rfl

/-- Run the program without a fault. -/
def execute : Program Value → FileSystem → Value × FileSystem
  | .done value, files => (value, files)
  | .call request next, files =>
      (next (perform none request files).1).execute (perform none request files).2

/-- The program can give the value and leave the second file system, where each call
meets one of the faults that are allowed for it. -/
def Gives (allowed : Call → Option Fault → Prop) :
    Program Value → FileSystem → Value → FileSystem → Prop
  | .done value, files, result, after => value = result ∧ files = after
  | .call request next, files, result, after =>
      ∃ fault, allowed request fault ∧
        (next (perform fault request files).1).Gives allowed (perform fault request files).2
          result after

variable {allowed : Call → Option Fault → Prop}

theorem gives_execute (undisturbed : ∀ request, allowed request none) (program : Program Value)
    (files : FileSystem) :
    program.Gives allowed files (program.execute files).1 (program.execute files).2 := by
  induction program generalizing files with
  | done value => exact ⟨rfl, rfl⟩
  | call request next inductionHypothesis =>
      exact ⟨none, undisturbed request, inductionHypothesis _ _⟩

theorem gives_bind {program : Program Value} {next : Value → Program Result}
    {files after : FileSystem} {result : Result} :
    (program.bind next).Gives allowed files result after ↔
      ∃ value between, program.Gives allowed files value between ∧
        (next value).Gives allowed between result after := by
  induction program generalizing files with
  | done value =>
      constructor
      · exact fun gives => ⟨value, files, ⟨rfl, rfl⟩, gives⟩
      · rintro ⟨other, between, ⟨rfl, rfl⟩, gives⟩
        exact gives
  | call request rest inductionHypothesis =>
      constructor
      · rintro ⟨fault, met, gives⟩
        obtain ⟨value, between, first, later⟩ := (inductionHypothesis _).mp gives
        exact ⟨value, between, ⟨fault, met, first⟩, later⟩
      · rintro ⟨value, between, ⟨fault, met, first⟩, later⟩
        exact ⟨fault, met, (inductionHypothesis _).mpr ⟨value, between, first, later⟩⟩

theorem gives_proceed {program : Program (Except ErrorKind Value)}
    {next : Value → Program (Except ErrorKind Result)} {files after : FileSystem}
    {result : Except ErrorKind Result}
    (gives : (program.proceed next).Gives allowed files result after) :
    (∃ value between, program.Gives allowed files (.ok value) between ∧
        (next value).Gives allowed between result after) ∨
      ∃ kind, program.Gives allowed files (.error kind) after ∧ result = .error kind := by
  obtain ⟨outcome, between, first, later⟩ := gives_bind.mp gives
  cases outcome with
  | ok value => exact Or.inl ⟨value, between, first, later⟩
  | error kind =>
      obtain ⟨rfl, rfl⟩ := later
      exact Or.inr ⟨kind, first, rfl⟩

/-- Where the first program can only succeed in one way, the rest goes on from there. -/
theorem gives_proceed_of {program : Program (Except ErrorKind Value)}
    {next : Value → Program (Except ErrorKind Result)} {files known after : FileSystem}
    {value : Value} {result : Except ErrorKind Result}
    (first : ∀ outcome between, program.Gives allowed files outcome between →
      outcome = .ok value ∧ between = known)
    (gives : (program.proceed next).Gives allowed files result after) :
    (next value).Gives allowed known result after := by
  obtain ⟨outcome, between, ran, later⟩ := gives_bind.mp gives
  obtain ⟨rfl, rfl⟩ := first outcome between ran
  exact later

/-- Some replies that the calls before it can get lead the program to the call. -/
def MayCall (request : Call) : Program Value → Prop
  | .done _ => False
  | .call first next =>
      first = request ∨ ∃ fault files, (next (perform fault first files).1).MayCall request

theorem mayCall_bind {request : Call} {program : Program Value} {next : Value → Program Result}
    (may : (program.bind next).MayCall request) :
    program.MayCall request ∨ ∃ value, (next value).MayCall request := by
  induction program with
  | done value => exact Or.inr ⟨value, may⟩
  | call first rest inductionHypothesis =>
      rcases may with same | ⟨fault, files, later⟩
      · exact Or.inl (Or.inl same)
      · rcases inductionHypothesis _ later with before | after
        · exact Or.inl (Or.inr ⟨fault, files, before⟩)
        · exact Or.inr after

/-- No call of the program has to do with other paths. -/
def Uses (paths : Text → Prop) (program : Program Value) : Prop :=
  ∀ request, program.MayCall request → ∀ path ∈ request.paths, paths path

theorem uses_done {paths : Text → Prop} (value : Value) : (done value).Uses paths := nofun

theorem Uses.mono {paths more : Text → Prop} {program : Program Value}
    (uses : program.Uses paths) (covers : ∀ path, paths path → more path) : program.Uses more :=
  fun request may path inside => covers path (uses request may path inside)

theorem Uses.bind {paths : Text → Prop} {program : Program Value} {next : Value → Program Result}
    (first : program.Uses paths) (later : ∀ value, (next value).Uses paths) :
    (program.bind next).Uses paths := by
  intro request may
  rcases mayCall_bind may with before | ⟨value, after⟩
  · exact first request before
  · exact later value request after

theorem Uses.proceed {paths : Text → Prop} {program : Program (Except ErrorKind Value)}
    {next : Value → Program (Except ErrorKind Result)} (first : program.Uses paths)
    (later : ∀ value, (next value).Uses paths) : (program.proceed next).Uses paths :=
  first.bind fun outcome =>
    match outcome with
    | .ok value => later value
    | .error _ => uses_done _

/-- A program leaves alone what it does not use. -/
theorem Uses.gives {paths : Text → Prop} {program : Program Value} (uses : program.Uses paths)
    {files after : FileSystem} {result : Value}
    (gives : program.Gives allowed files result after) {path : Text} (outside : ¬ paths path) :
    after path = files path := by
  induction program generalizing files with
  | done value => rw [gives.2]
  | call request next inductionHypothesis =>
      obtain ⟨fault, -, later⟩ := gives
      have rest : (next (perform fault request files).1).Uses paths :=
        fun other may => uses other (Or.inr ⟨fault, files, may⟩)
      refine (inductionHypothesis _ rest later).trans (perform_other (fun target => outside ?_) _)
      exact uses request (Or.inl rfl) path (Call.mem_paths_of_mem_targets target)

/-! ### Renames that are rejected -/

/-- Nothing fails but a rename, for lack of permission: there are file systems that
reject every rename over a file. -/
def RejectsRenames (request : Call) (fault : Option Fault) : Prop :=
  fault = none ∨ ∃ source target left,
    request = .rename source target ∧ fault = some ⟨.permissionDenied, left⟩

theorem RejectsRenames.eq_none {request : Call} {fault : Option Fault}
    (met : RejectsRenames request fault) (kept : ∀ source target, request ≠ .rename source target) :
    fault = none := by
  rcases met with none | ⟨source, target, left, same, -⟩
  · exact none
  · exact absurd same (kept source target)

/-- A call that is not a rename goes undisturbed. -/
theorem gives_call {request : Call} {next : request.Reply → Program Value}
    {files after : FileSystem} {result : Value}
    (gives : (call request next).Gives RejectsRenames files result after)
    (kept : ∀ source target, request ≠ .rename source target) :
    (next (perform none request files).1).Gives RejectsRenames (perform none request files).2
      result after := by
  obtain ⟨fault, met, later⟩ := gives
  rwa [met.eq_none kept] at later

theorem gives_pathExists {path : Text} {next : Bool → Program Value} {files after : FileSystem}
    {result : Value}
    (gives : (call (.pathExists path) next).Gives RejectsRenames files result after) :
    (next (files path).isSome).Gives RejectsRenames files result after :=
  gives_call gives nofun

/-- A single call that is not a rename, with the reply it gets undisturbed. -/
theorem gives_single {request : Call} {files after : FileSystem} {result : request.Reply}
    (kept : ∀ source target, request ≠ .rename source target)
    (gives : (call request done).Gives RejectsRenames files result after) :
    result = (perform none request files).1 ∧ after = (perform none request files).2 := by
  obtain ⟨outcome, same⟩ := gives_call gives kept
  exact ⟨outcome.symm, same.symm⟩

end Program

end SmartDnsPlusUi.Files
