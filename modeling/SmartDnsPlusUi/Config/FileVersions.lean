import SmartDnsPlusUi.Config.RuleSetSave
import SmartDnsPlusUi.Files.Frames

/-!
# The version before a write

What a write leaves of the version that it replaces, whichever of its calls fails.  A write
with backup leaves that version in the backup or where it was, and touches no other file.
-/

namespace SmartDnsPlusUi

open Files Text Program

/-- Neither the file nor its backup changes. -/
structure Untouched (path : Text) (files after : FileSystem) : Prop where
  file : after path = files path
  backup : after (backupPath path) = files (backupPath path)

/-- Unless the file is untouched, its version is in the backup or still there. -/
def KeepsVersion (path : Text) (files after : FileSystem) : Prop :=
  Untouched path files after ∨ ∀ content, files path = some content →
    after (backupPath path) = some content ∨ after path = some content

theorem Untouched.refl (path : Text) (files : FileSystem) : Untouched path files files :=
  ⟨rfl, rfl⟩

theorem Untouched.trans {path : Text} {files between after : FileSystem}
    (first : Untouched path files between) (second : Untouched path between after) :
    Untouched path files after :=
  ⟨second.file.trans first.file, second.backup.trans first.backup⟩

theorem KeepsVersion.before {path : Text} {files between after : FileSystem}
    (keeps : KeepsVersion path between after) (untouched : Untouched path files between) :
    KeepsVersion path files after := by
  rcases keeps with second | kept
  · exact .inl (untouched.trans second)
  · exact .inr fun content found => kept content (untouched.file.trans found)

theorem KeepsVersion.behind {path : Text} {files between after : FileSystem}
    (keeps : KeepsVersion path files between) (untouched : Untouched path between after) :
    KeepsVersion path files after := by
  rcases keeps with first | kept
  · exact .inl (first.trans untouched)
  · refine .inr fun content found => ?_
    rw [untouched.file, untouched.backup]
    exact kept content found

/-! ### What a write leaves alone -/

section

variable {allowed : Call → Option Fault → Prop} {path other : Text}

theorem leavesAlone_readTextOrDefault : (readTextOrDefault path).LeavesAlone allowed other :=
  leavesAlone_single List.not_mem_nil

theorem leavesAlone_createParent : (createParent path).LeavesAlone allowed other := by
  unfold createParent
  split
  · exact leavesAlone_single List.not_mem_nil
  · exact leavesAlone_done _

theorem leavesAlone_writeTextAtomic (notPath : other ≠ path)
    (notTemporary : other ≠ temporaryPath path) (content : Text) :
    (writeTextAtomic path content).LeavesAlone allowed other := by
  have removed : ∀ outcome : Except ErrorKind Unit, (call (.removeFile (temporaryPath path))
      fun _ => done outcome).LeavesAlone allowed other :=
    fun _ => leavesAlone_single (mt List.mem_singleton.mp notTemporary)
  apply leavesAlone_createParent.proceed
  intro _
  apply LeavesAlone.proceed
  · exact leavesAlone_single (mt List.mem_singleton.mp notTemporary)
  intro _
  apply leavesAlone_call
  · simp [Call.targets, notPath, notTemporary]
  intro outcome
  cases outcome with
  | ok _ => exact leavesAlone_done _
  | error kind =>
      cases kind with
      | permissionDenied =>
          apply LeavesAlone.proceed
          · exact leavesAlone_single (mt List.mem_singleton.mp notPath)
          · exact fun _ => removed _
      | notFound | invalidData | other => exact removed _

/-- A directory has one entry with the name of the backup at most, so nothing is removed. -/
theorem leavesAlone_pruneBackupFiles : (pruneBackupFiles path 1).LeavesAlone allowed other := by
  intro files result after gives
  rcases gives_proceed gives with ⟨backups, _, ⟨fault, -, listed, rfl⟩, removed⟩ |
    ⟨kind, ⟨fault, -, -, rfl⟩, -⟩
  · rw [drop_one_listed listed] at removed
    exact congrFun removed.2.symm other
  · rfl

theorem leavesAlone_backupFile (notBackup : other ≠ backupPath path) :
    (backupFile path).LeavesAlone allowed other := by
  apply leavesAlone_call List.not_mem_nil
  intro found
  cases found with
  | false => exact leavesAlone_done _
  | true =>
      apply LeavesAlone.proceed
      · exact leavesAlone_single (mt List.mem_singleton.mp notBackup)
      · exact fun _ => leavesAlone_pruneBackupFiles

theorem leavesAlone_writeTextWithBackupIfChanged (apart : ApartFrom other path)
    (content : Text) : (writeTextWithBackupIfChanged path content).LeavesAlone allowed other := by
  have written := @leavesAlone_writeTextAtomic allowed _ _ apart.not_path apart.not_temporary
    content
  apply leavesAlone_readTextOrDefault.proceed
  intro current
  split
  · exact leavesAlone_done _
  · apply leavesAlone_call List.not_mem_nil
    intro found
    cases found with
    | false => exact written
    | true => exact (leavesAlone_backupFile apart.not_backup).proceed fun _ => written

theorem leavesAlone_writePages {rulesDir : Text} {pages : List (Text × Text)}
    (apart : ∀ page ∈ pages, ApartFrom other (managedPath rulesDir page.1)) :
    (writePages rulesDir pages).LeavesAlone allowed other := by
  induction pages with
  | nil => exact leavesAlone_done _
  | cons page pages inductionHypothesis =>
      rw [List.forall_mem_cons] at apart
      apply (leavesAlone_writeTextWithBackupIfChanged apart.1 page.2).proceed
      exact fun _ => inductionHypothesis apart.2

theorem leavesAlone_applyWorkingConfig {configFile rulesDir : Text} (notConfig : other ≠ configFile)
    (notTemporary : other ≠ temporaryPath configFile) :
    (applyWorkingConfig configFile rulesDir).LeavesAlone allowed other := by
  apply leavesAlone_readTextOrDefault.proceed
  intro current
  split
  · exact leavesAlone_writeTextAtomic notConfig notTemporary _
  · exact leavesAlone_done _

theorem leavesAlone_inStage {Value Result : Type} {stage : SaveStage}
    {program : Program (Except ErrorKind Value)}
    {next : Value → Program (Except SaveError Result)}
    (first : program.LeavesAlone allowed other)
    (later : ∀ value, (next value).LeavesAlone allowed other) :
    (inStage stage program next).LeavesAlone allowed other := by
  apply first.bind
  intro outcome
  cases outcome with
  | ok value => exact later value
  | error kind => exact leavesAlone_done _

theorem leavesAlone_updateSetFile (apart : ApartFrom other path)
    (request : SaveRuleSetFileRequest) :
    (updateSetFile path request).LeavesAlone allowed other := by
  apply leavesAlone_inStage leavesAlone_readTextOrDefault
  intro text
  apply leavesAlone_inStage (leavesAlone_backupFile apart.not_backup)
  intro _
  apply leavesAlone_inStage
  · exact leavesAlone_writeTextAtomic apart.not_path apart.not_temporary _
  · exact fun _ => leavesAlone_done _

end

/-! ### What a write with backup keeps -/

/-- No check whether a file exists fails. -/
def ChecksWork (allowed : Call → Option Fault → Prop) : Prop :=
  ∀ path fault, ¬ allowed (.pathExists path) (some fault)

theorem backupPath_ne_temporaryPath (path other : Text) : backupPath path ≠ temporaryPath other := by
  intro same
  obtain ⟨front, joined⟩ := pathJoin_eq_append (parentOrHere path) (backupName path)
  have ends := congrArg (fun t : Text => t.reverse.drop 1) same
  rw [backupPath, joined, backupName] at ends
  simp [temporaryPath] at ends

section

variable {allowed : Call → Option Fault → Prop} {path : Text} {files after : FileSystem}

theorem untouched_of_leavesAlone {Value : Type} {program : Program Value} {result : Value}
    (file : program.LeavesAlone allowed path)
    (backup : program.LeavesAlone allowed (backupPath path))
    (gives : program.Gives allowed files result after) : Untouched path files after :=
  ⟨file _ _ _ gives, backup _ _ _ gives⟩

theorem untouched_readTextOrDefault {other : Text} {result : Except ErrorKind Text}
    (gives : (readTextOrDefault other).Gives allowed files result after) :
    Untouched path files after :=
  untouched_of_leavesAlone leavesAlone_readTextOrDefault leavesAlone_readTextOrDefault gives

theorem gives_pathExists_of_checks {Value : Type} (checks : ChecksWork allowed)
    {next : Bool → Program Value} {result : Value}
    (gives : (call (.pathExists path) next).Gives allowed files result after) :
    (next (files path).isSome).Gives allowed files result after := by
  obtain ⟨fault, met, rest⟩ := gives
  cases fault with
  | some fault => exact absurd met (checks path fault)
  | none => exact rest

theorem backup_of_gives_backupFile (checks : ChecksWork allowed)
    (gives : (backupFile path).Gives allowed files (.ok ()) after) {content : Content}
    (found : files path = some content) : after (backupPath path) = some content := by
  have tested := gives_pathExists_of_checks checks gives
  rw [found, Option.isSome_some, if_pos rfl] at tested
  obtain ⟨_, copied, ⟨fault, -, outcome, rfl⟩, pruned⟩ := gives_proceed_ok tested
  rw [leavesAlone_pruneBackupFiles _ _ _ pruned]
  cases fault with
  | some fault => cases outcome
  | none =>
      simp only [perform, found]
      exact Function.update_self _ _ _

/-- Whatever follows, a file that was backed up first keeps its version. -/
theorem keepsVersion_backupFile_bind {Value : Type} {next : Except ErrorKind Unit → Program Value}
    (checks : ChecksWork allowed) (own : path ≠ backupPath path)
    (failed : ∀ kind, (next (.error kind)).LeavesAlone allowed path)
    (later : (next (.ok ())).LeavesAlone allowed (backupPath path)) {result : Value}
    (gives : ((backupFile path).bind next).Gives allowed files result after) :
    KeepsVersion path files after := by
  obtain ⟨outcome, between, backed, rest⟩ := gives_bind.mp gives
  refine .inr fun content found => ?_
  cases outcome with
  | ok _ =>
      refine .inl ((later _ _ _ rest).trans ?_)
      exact backup_of_gives_backupFile checks backed found
  | error kind =>
      refine .inr ((failed kind _ _ _ rest).trans ?_)
      exact (leavesAlone_backupFile own _ _ _ backed).trans found

/-- What keeps the version may go on with what leaves the file and its backup alone. -/
theorem keepsVersion_proceed_first {Value Result : Type}
    {program : Program (Except ErrorKind Value)}
    {next : Value → Program (Except ErrorKind Result)}
    (first : ∀ outcome between, program.Gives allowed files outcome between →
      KeepsVersion path files between)
    (file : ∀ value, (next value).LeavesAlone allowed path)
    (backup : ∀ value, (next value).LeavesAlone allowed (backupPath path))
    {result : Except ErrorKind Result}
    (gives : (program.proceed next).Gives allowed files result after) :
    KeepsVersion path files after := by
  rcases gives_proceed gives with ⟨value, between, ran, rest⟩ | ⟨kind, failed, -⟩
  · exact (first _ _ ran).behind (untouched_of_leavesAlone (file value) (backup value) rest)
  · exact first _ _ failed

/-- What leaves the file and its backup alone may come before what keeps the version. -/
theorem keepsVersion_proceed_later {Value Result : Type}
    {program : Program (Except ErrorKind Value)}
    {next : Value → Program (Except ErrorKind Result)}
    (file : program.LeavesAlone allowed path)
    (backup : program.LeavesAlone allowed (backupPath path)) {result : Except ErrorKind Result}
    (later : ∀ value between, Untouched path files between →
      (next value).Gives allowed between result after → KeepsVersion path between after)
    (gives : (program.proceed next).Gives allowed files result after) :
    KeepsVersion path files after := by
  rcases gives_proceed gives with ⟨value, between, ran, rest⟩ | ⟨kind, failed, -⟩
  · have untouched := untouched_of_leavesAlone file backup ran
    exact (later value between untouched rest).before untouched
  · exact .inl (untouched_of_leavesAlone file backup failed)

theorem keepsVersion_of_missing (missing : files path = none) : KeepsVersion path files after :=
  .inr fun content found => absurd (missing.symm.trans found) (Option.some_ne_none content).symm

theorem keepsVersion_writeTextWithBackupIfChanged (checks : ChecksWork allowed)
    (own : path ≠ backupPath path) {content : Text} {result : Except ErrorKind Unit}
    (gives : (writeTextWithBackupIfChanged path content).Gives allowed files result after) :
    KeepsVersion path files after := by
  rcases gives_proceed gives with ⟨current, between, read, rest⟩ | ⟨kind, failed, -⟩
  · refine KeepsVersion.before ?_ (untouched_readTextOrDefault read)
    split at rest
    · exact .inl (untouched_of_leavesAlone (leavesAlone_done _) (leavesAlone_done _) rest)
    · have tested := gives_pathExists_of_checks checks rest
      cases found : between path with
      | none => exact keepsVersion_of_missing found
      | some old =>
          rw [found, Option.isSome_some, if_pos rfl] at tested
          apply keepsVersion_backupFile_bind checks own _ _ tested
          · exact fun kind => leavesAlone_done _
          · exact leavesAlone_writeTextAtomic own.symm (backupPath_ne_temporaryPath path path) _
  · exact .inl (untouched_readTextOrDefault failed)

theorem keepsVersion_updateSetFile (checks : ChecksWork allowed) (own : path ≠ backupPath path)
    {request : SaveRuleSetFileRequest} {result : Except SaveError Unit}
    (gives : (updateSetFile path request).Gives allowed files result after) :
    KeepsVersion path files after := by
  obtain ⟨outcome, between, read, rest⟩ := gives_bind.mp gives
  refine KeepsVersion.before ?_ (untouched_readTextOrDefault read)
  cases outcome with
  | error kind =>
      exact .inl (untouched_of_leavesAlone (leavesAlone_done _) (leavesAlone_done _) rest)
  | ok text =>
      apply keepsVersion_backupFile_bind checks own _ _ rest
      · exact fun kind => leavesAlone_done _
      · apply leavesAlone_inStage
        · exact leavesAlone_writeTextAtomic own.symm (backupPath_ne_temporaryPath path path) _
        · exact fun _ => leavesAlone_done _

theorem keepsVersion_writePages (checks : ChecksWork allowed) (own : path ≠ backupPath path)
    {rulesDir : Text} {pages : List (Text × Text)}
    (distinct : (pages.map fun page => managedPath rulesDir page.1).Nodup)
    (apart : ∀ page ∈ pages, path ≠ managedPath rulesDir page.1 →
      ApartFrom path (managedPath rulesDir page.1) ∧
        ApartFrom (backupPath path) (managedPath rulesDir page.1))
    {result : Except ErrorKind Unit}
    (gives : (writePages rulesDir pages).Gives allowed files result after) :
    KeepsVersion path files after := by
  induction pages generalizing files with
  | nil => exact .inl (untouched_of_leavesAlone (leavesAlone_done _) (leavesAlone_done _) gives)
  | cons page pages inductionHypothesis =>
      rw [List.map_cons, List.nodup_cons] at distinct
      rw [List.forall_mem_cons] at apart
      by_cases this : path = managedPath rulesDir page.1
      · -- the other pages are other files
        have others : ∀ page ∈ pages, ApartFrom path (managedPath rulesDir page.1) ∧
            ApartFrom (backupPath path) (managedPath rulesDir page.1) := by
          intro other listed
          apply apart.2 other listed
          intro same
          exact distinct.1 (List.mem_map.mpr ⟨other, listed, same.symm.trans this⟩)
        subst this
        apply keepsVersion_proceed_first _ _ _ gives
        · exact fun _ _ => keepsVersion_writeTextWithBackupIfChanged checks own
        · exact fun _ => leavesAlone_writePages fun page listed => (others page listed).1
        · exact fun _ => leavesAlone_writePages fun page listed => (others page listed).2
      · obtain ⟨file, backup⟩ := apart.1 this
        apply keepsVersion_proceed_later _ _ _ gives
        · exact leavesAlone_writeTextWithBackupIfChanged file _
        · exact leavesAlone_writeTextWithBackupIfChanged backup _
        · exact fun _ _ _ => inductionHypothesis distinct.2 apart.2

end

end SmartDnsPlusUi
