import SmartDnsPlusUi.Config.FileVersions
import SmartDnsPlusUi.Config.SavedPages

/-!
# Recoverable versions

The operations that write files, in any order and with any call failing.  A managed file or a
set file is copied to its backup before it is written, so that the version before its last
change can be recovered.  The main configuration is written without a backup.
-/

namespace SmartDnsPlusUi

open Files Text Program

/-! ### The operations -/

def assetPages (request : ManagedAssets) : List (Text × Text) :=
  [(routingFileName, renderRoutingItemsText request),
    (rulesFileName, renderRuleEntriesText request),
    (setsFileName, renderSetsText request)]

/-- `save_managed_assets`, whose last part is that of `apply_working_config`. -/
def saveManagedAssets (configFile rulesDir : Text) (request : ManagedAssets) :
    Program (Except ErrorKind ValidationResult) :=
  Program.proceed (.call (.createDirAll (managedConfDir rulesDir)) .done) fun _ =>
    let validation := validateManagedAssets request
    if validation.ok then
      (writePages rulesDir (assetPages request)).proceed fun _ =>
      (applyWorkingConfig configFile rulesDir).proceed fun _ => .done (.ok validation)
    else .done (.ok validation)

/-- `restore_backup`. -/
def restoreBackup (configFile backup : Text) : Program (Except ErrorKind Unit) :=
  Program.proceed (.call (.readToString backup) .done) fun backupText =>
    writeTextAtomic configFile backupText

/-- A call of one of the operations.  A save of a set goes on to the file that the
configuration names for the set, if the reads of the configuration give one. -/
inductive FileOperation where
  | saveBeginnerConfig (request : SaveConfigRequest)
  | saveManagedAssets (request : ManagedAssets)
  | saveSetFile (file : Option Text) (request : SaveRuleSetFileRequest)
  | applyWorkingConfig
  | restoreBackup (backup : Text)

def FileOperation.setFile : FileOperation → Option Text
  | .saveSetFile file _ => file
  | _ => none

section

variable (allowed : Call → Option Fault → Prop) (configFile rulesDir : Text)

/-- From the first file system the operation can leave the second one. -/
def FileOperation.Leaves : FileOperation → FileSystem → FileSystem → Prop
  | .saveBeginnerConfig request, files, after =>
      ∃ result, (SmartDnsPlusUi.saveBeginnerConfig configFile rulesDir request).Gives allowed
        files result after
  | .saveManagedAssets request, files, after =>
      ∃ result, (SmartDnsPlusUi.saveManagedAssets configFile rulesDir request).Gives allowed
        files result after
  | .saveSetFile none _, files, after => after = files
  | .saveSetFile (some file) request, files, after =>
      ∃ result, (updateSetFile file request).Gives allowed files result after
  | .applyWorkingConfig, files, after =>
      ∃ result, (SmartDnsPlusUi.applyWorkingConfig configFile rulesDir).Gives allowed files
        result after
  | .restoreBackup backup, files, after =>
      ∃ result, (SmartDnsPlusUi.restoreBackup configFile backup).Gives allowed files result after

end

/-- The files that the operations overwrite. -/
def Overwritten (configFile rulesDir : Text) (operations : List FileOperation) (path : Text) :
    Prop :=
  path = configFile ∨ (∃ name ∈ managedFileNames, path = managedPath rulesDir name) ∨
    ∃ operation ∈ operations, operation.setFile = some path

/-! ### Runs -/

/-- The files, and of each file the content that it had immediately before its last change. -/
structure VersionedFiles where
  files : FileSystem
  previous : Text → Option Content := fun _ => none

/-- An operation that fails between the backup and the write counts as a change. -/
def VersionedFiles.changedTo (state : VersionedFiles) (after : FileSystem) : VersionedFiles where
  files := after
  previous path :=
    if after path = state.files path ∧
        after (backupPath path) = state.files (backupPath path) then state.previous path
    else state.files path

/-- The operations can lead to the state, each of them meeting the condition where it
starts. -/
inductive Reaches (allowed : Call → Option Fault → Prop) (configFile rulesDir : Text)
    (condition : FileSystem → FileOperation → Prop) (start : FileSystem) :
    List FileOperation → VersionedFiles → Prop
  | start : Reaches allowed configFile rulesDir condition start [] { files := start }
  | step {operations state operation after} :
      Reaches allowed configFile rulesDir condition start operations state →
      condition state.files operation →
      operation.Leaves allowed configFile rulesDir state.files after →
      Reaches allowed configFile rulesDir condition start (operations ++ [operation])
        (state.changedTo after)

/-- The content before the last change is in the backup, or still in the file. -/
def VersionedFiles.Recoverable (state : VersionedFiles) (path : Text) : Prop :=
  ∀ content, state.previous path = some content →
    state.files (backupPath path) = some content ∨ state.files path = some content

theorem VersionedFiles.Recoverable.changedTo {state : VersionedFiles} {path : Text}
    (recoverable : state.Recoverable path) {after : FileSystem}
    (keeps : KeepsVersion path state.files after) : (state.changedTo after).Recoverable path := by
  intro content before
  change (if _ then _ else _) = some content at before
  change after (backupPath path) = some content ∨ after path = some content
  split at before
  · rename_i same
    rw [same.1, same.2]
    exact recoverable content before
  · rename_i changed
    rcases keeps with untouched | kept
    · exact absurd ⟨untouched.file, untouched.backup⟩ changed
    · exact kept content before

/-! ### The main configuration -/

/-- The main configuration has its managed block in place, or its text is in its backup. -/
def BlockSafe (configFile rulesDir : Text) (files : FileSystem) : Prop :=
  ∀ text, files configFile = some (.text text) →
    files (backupPath configFile) = some (.text text) ∨ ensureManagedBlock text rulesDir = text

/-- The operation does not replace the main configuration, or its content is in its backup. -/
def ConfigSafe (configFile rulesDir : Text) (files : FileSystem) : FileOperation → Prop
  | .saveBeginnerConfig request =>
      (validateBeginnerConfig request.beginner request.rulesText).ok = true →
        BlockSafe configFile rulesDir files
  | .saveManagedAssets request =>
      (validateManagedAssets request).ok = true → BlockSafe configFile rulesDir files
  | .saveSetFile _ _ => True
  | .applyWorkingConfig => BlockSafe configFile rulesDir files
  | .restoreBackup backup => ∀ content text, files configFile = some content →
      files backup = some (.text text) → files (backupPath configFile) = some content

/-- No overwritten file is the temporary file or the backup of another one or has the backup
of another one, and none is its own backup. -/
structure FilesApart (overwritten : Text → Prop) : Prop where
  own : ∀ path, overwritten path → path ≠ backupPath path
  apart : ∀ path other, overwritten path → overwritten other → path ≠ other →
    ApartFrom path other ∧ backupPath path ≠ backupPath other

theorem FilesApart.backup {overwritten : Text → Prop} (filesApart : FilesApart overwritten)
    {path other : Text} (writes : overwritten path) (writesOther : overwritten other)
    (different : path ≠ other) : ApartFrom (backupPath path) other where
  not_path := ((filesApart.apart other path writesOther writes different.symm).1.not_backup).symm
  not_temporary := backupPath_ne_temporaryPath path other
  not_backup := (filesApart.apart path other writes writesOther different).2

/-! ### One operation -/

section

variable {allowed : Call → Option Fault → Prop} {configFile rulesDir : Text}
variable {files after : FileSystem}

theorem text_of_gives_readTextOrDefault (honest : HonestReads allowed) {path text : Text}
    (gives : (readTextOrDefault path).Gives allowed files (.ok text) after) :
    files path = none ∨ files path = some (.text text) := by
  rw [readTextOrDefault_program] at gives
  obtain ⟨fault, met, outcome, -⟩ := gives
  cases fault with
  | none =>
      cases found : files path with
      | none => exact .inl rfl
      | some content =>
          simp only [perform, found] at outcome
          cases content with
          | text t => exact .inr (congrArg (some ∘ Content.text) (Except.ok.inj outcome))
          | binary bytes => cases outcome
  | some fault =>
      have notMissing := honest path fault met
      change orDefault (.error fault.kind) = .ok text at outcome
      generalize fault.kind = kind at notMissing outcome
      cases kind with
      | notFound => exact absurd rfl notMissing
      | permissionDenied | invalidData | other => cases outcome

theorem keepsVersion_applyWorkingConfig (honest : HonestReads allowed)
    (own : configFile ≠ backupPath configFile) (safe : BlockSafe configFile rulesDir files)
    {result : Except ErrorKind Unit}
    (gives : (SmartDnsPlusUi.applyWorkingConfig configFile rulesDir).Gives allowed files result
      after) : KeepsVersion configFile files after := by
  have apart := backupPath_ne_temporaryPath configFile configFile
  have backup := leavesAlone_applyWorkingConfig own.symm apart _ _ _ gives
  rcases gives_proceed gives with ⟨current, between, read, rest⟩ | ⟨kind, failed, -⟩
  · rcases text_of_gives_readTextOrDefault honest read with missing | found
    · exact keepsVersion_of_missing missing
    · rcases safe current found with kept | inPlace
      · refine .inr fun content same => .inl ?_
        rw [backup, kept, ← found, same]
      · rw [if_neg (not_not_intro inPlace)] at rest
        have unread : Untouched configFile files between := untouched_readTextOrDefault read
        exact .inl (unread.trans
          (untouched_of_leavesAlone (leavesAlone_done _) (leavesAlone_done _) rest))
  · exact .inl (untouched_readTextOrDefault failed)

theorem keepsVersion_restoreBackup (own : configFile ≠ backupPath configFile) {backup : Text}
    (safe : ConfigSafe configFile rulesDir files (.restoreBackup backup))
    {result : Except ErrorKind Unit}
    (gives : (SmartDnsPlusUi.restoreBackup configFile backup).Gives allowed files result after) :
    KeepsVersion configFile files after := by
  rcases gives_proceed gives with ⟨text, _, ⟨fault, -, read, rfl⟩, rest⟩ |
    ⟨kind, ⟨fault, -, -, rfl⟩, -⟩
  · cases fault with
    | some fault => cases read
    | none =>
        refine .inr fun content found => .inl ?_
        have apart := backupPath_ne_temporaryPath configFile configFile
        have kept := leavesAlone_writeTextAtomic own.symm apart _ _ _ _ rest
        refine kept.trans ?_
        cases stored : files backup with
        | none =>
            simp only [perform, stored] at read
            cases read
        | some old =>
            simp only [perform, stored] at read
            cases old with
            | text t => exact safe content t found stored
            | binary bytes => cases read
  · exact .inl (Untouched.refl _ _)

theorem AreManaged.nodup_paths {pages : List (Text × Text)} (areManaged : AreManaged pages) :
    (pages.map fun page => managedPath rulesDir page.1).Nodup := by
  refine List.pairwise_map.mpr ((List.pairwise_map.mp areManaged.distinct).imp_of_mem ?_)
  intro page other among amongOther different same
  exact different (managedPath_injective (areManaged.managed page among)
    (areManaged.managed other amongOther) same)

/-- The part that the two saves share: some pages, and then the main configuration. -/
theorem keepsVersion_savePages (checks : ChecksWork allowed) (honest : HonestReads allowed)
    {overwritten : Text → Prop} (filesApart : FilesApart overwritten)
    (main : overwritten configFile)
    (managed : ∀ name ∈ managedFileNames, overwritten (managedPath rulesDir name))
    (notManaged : ∀ name ∈ managedFileNames, configFile ≠ managedPath rulesDir name)
    (safe : BlockSafe configFile rulesDir files) {pages : List (Text × Text)}
    (areManaged : AreManaged pages)
    {validation : ValidationResult} {result : Except ErrorKind ValidationResult}
    (gives : ((writePages rulesDir pages).proceed fun _ =>
      (SmartDnsPlusUi.applyWorkingConfig configFile rulesDir).proceed fun _ =>
        .done (.ok validation)).Gives allowed files result after)
    {path : Text} (writes : overwritten path) : KeepsVersion path files after := by
  have own := filesApart.own path writes
  have apart : ∀ page ∈ pages, path ≠ managedPath rulesDir page.1 →
      ApartFrom path (managedPath rulesDir page.1) ∧
        ApartFrom (backupPath path) (managedPath rulesDir page.1) := by
    intro page among different
    have target := managed page.1 (areManaged.managed page among)
    exact ⟨(filesApart.apart path _ writes target different).1,
      filesApart.backup writes target different⟩
  by_cases isMain : path = configFile
  · subst isMain
    have others := fun page (among : page ∈ pages) =>
      apart page among (notManaged page.1 (areManaged.managed page among))
    apply keepsVersion_proceed_later _ _ _ gives
    · exact leavesAlone_writePages fun page among => (others page among).1
    · exact leavesAlone_writePages fun page among => (others page among).2
    · intro _ between untouched rest
      apply keepsVersion_proceed_first _ _ _ rest
      · intro outcome later applied
        refine keepsVersion_applyWorkingConfig honest own ?_ applied
        rw [BlockSafe, untouched.file, untouched.backup]
        exact safe
      · exact fun _ => leavesAlone_done _
      · exact fun _ => leavesAlone_done _
  · have mainApart := filesApart.apart path configFile writes main isMain
    have backupApart := filesApart.backup writes main isMain
    apply keepsVersion_proceed_first _ _ _ gives
    · exact fun _ _ => keepsVersion_writePages checks own areManaged.nodup_paths apart
    · intro _
      apply LeavesAlone.proceed
      · exact leavesAlone_applyWorkingConfig mainApart.1.not_path mainApart.1.not_temporary
      · exact fun _ => leavesAlone_done _
    · intro _
      apply LeavesAlone.proceed
      · exact leavesAlone_applyWorkingConfig backupApart.not_path backupApart.not_temporary
      · exact fun _ => leavesAlone_done _

theorem areManaged_assetPages (request : ManagedAssets) : AreManaged (assetPages request) := by
  have names : (assetPages request).map Prod.fst =
      [routingFileName, rulesFileName, setsFileName] := rfl
  constructor
  · intro page among
    have named : page.1 ∈ [routingFileName, rulesFileName, setsFileName] :=
      names ▸ List.mem_map_of_mem among
    revert named
    generalize page.1 = name
    revert name
    decide
  · rw [names]
    decide

/-- Whatever an operation overwrites, the version before is kept. -/
theorem keepsVersion_of_leaves (checks : ChecksWork allowed) (honest : HonestReads allowed)
    {overwritten : Text → Prop} (filesApart : FilesApart overwritten)
    (main : overwritten configFile)
    (managed : ∀ name ∈ managedFileNames, overwritten (managedPath rulesDir name))
    (notManaged : ∀ name ∈ managedFileNames, configFile ≠ managedPath rulesDir name)
    {operation : FileOperation} (setFile : ∀ file, operation.setFile = some file → overwritten file)
    (safe : ConfigSafe configFile rulesDir files operation)
    (leaves : operation.Leaves allowed configFile rulesDir files after)
    {path : Text} (writes : overwritten path) : KeepsVersion path files after := by
  have own := filesApart.own path writes
  cases operation with
  | saveBeginnerConfig request =>
      obtain ⟨result, gives⟩ := leaves
      unfold SmartDnsPlusUi.saveBeginnerConfig at gives
      dsimp only at gives
      split at gives
      · rename_i accepted
        exact keepsVersion_savePages checks honest filesApart main managed notManaged
          (safe accepted) (areManaged_renderedPages request) gives writes
      · exact .inl (untouched_of_leavesAlone (leavesAlone_done _) (leavesAlone_done _) gives)
  | saveManagedAssets request =>
      obtain ⟨result, gives⟩ := leaves
      rcases gives_proceed gives with ⟨_, _, ⟨fault, -, -, rfl⟩, rest⟩ |
        ⟨kind, ⟨fault, -, -, rfl⟩, -⟩
      · dsimp only at rest
        split at rest
        · rename_i accepted
          exact keepsVersion_savePages checks honest filesApart main managed notManaged
            (safe accepted) (areManaged_assetPages request) rest writes
        · exact .inl (untouched_of_leavesAlone (leavesAlone_done _) (leavesAlone_done _) rest)
      · exact .inl (Untouched.refl path files)
  | saveSetFile file request =>
      cases file with
      | none => exact .inl (leaves ▸ Untouched.refl path files)
      | some file =>
          obtain ⟨result, gives⟩ := leaves
          have target := setFile file rfl
          by_cases this : path = file
          · subst this
            exact keepsVersion_updateSetFile checks own gives
          · refine .inl (untouched_of_leavesAlone ?_ ?_ gives)
            · exact leavesAlone_updateSetFile (filesApart.apart path file writes target this).1 _
            · exact leavesAlone_updateSetFile (filesApart.backup writes target this) _
  | applyWorkingConfig =>
      obtain ⟨result, gives⟩ := leaves
      by_cases isMain : path = configFile
      · subst isMain
        exact keepsVersion_applyWorkingConfig honest own safe gives
      · have apart := (filesApart.apart path configFile writes main isMain).1
        have backup := filesApart.backup writes main isMain
        refine .inl (untouched_of_leavesAlone ?_ ?_ gives)
        · exact leavesAlone_applyWorkingConfig apart.not_path apart.not_temporary
        · exact leavesAlone_applyWorkingConfig backup.not_path backup.not_temporary
  | restoreBackup backup =>
      obtain ⟨result, gives⟩ := leaves
      by_cases isMain : path = configFile
      · subst isMain
        exact keepsVersion_restoreBackup own safe gives
      · have apart := (filesApart.apart path configFile writes main isMain).1
        have backupApart := filesApart.backup writes main isMain
        refine .inl (untouched_of_leavesAlone ?_ ?_ gives)
        · apply LeavesAlone.proceed (leavesAlone_single List.not_mem_nil)
          exact leavesAlone_writeTextAtomic apart.not_path apart.not_temporary
        · apply LeavesAlone.proceed (leavesAlone_single List.not_mem_nil)
          exact leavesAlone_writeTextAtomic backupApart.not_path backupApart.not_temporary

/-! ### All the operations -/

theorem recoverable_of_covers (checks : ChecksWork allowed) (honest : HonestReads allowed)
    (notManaged : ∀ name ∈ managedFileNames, configFile ≠ managedPath rulesDir name)
    {overwritten : Text → Prop} (filesApart : FilesApart overwritten) {start : FileSystem}
    {operations : List FileOperation} {state : VersionedFiles}
    (covers : ∀ path, Overwritten configFile rulesDir operations path → overwritten path)
    (reaches : Reaches allowed configFile rulesDir (ConfigSafe configFile rulesDir) start
      operations state) {path : Text} (writes : overwritten path) : state.Recoverable path := by
  induction reaches with
  | start => exact nofun
  | @step operations state operation after reached safe leaves inductionHypothesis =>
      have before := inductionHypothesis fun other earlier => covers other <|
        earlier.imp_right (Or.imp_right fun ⟨one, among, names⟩ =>
          ⟨one, List.mem_append_left _ among, names⟩)
      apply before.changedTo
      apply keepsVersion_of_leaves checks honest filesApart _ _ notManaged _ safe leaves writes
      · exact covers configFile (.inl rfl)
      · exact fun name among => covers _ (.inr (.inl ⟨name, among, rfl⟩))
      · intro file names
        exact covers file (.inr (.inr ⟨operation, List.mem_append_right _ List.mem_cons_self, names⟩))

/-- For every run of the operations, in any order and with any call but the checks whether a
file exists failing, where the overwritten files are apart and each operation meets a main
configuration that it need not replace or whose content is in its backup: in every state that
is reached, the content that an overwritten file had before its last change is whole in its
backup, or still in the file. -/
theorem recoverable_of_reaches (checks : ChecksWork allowed) (honest : HonestReads allowed)
    (notManaged : ∀ name ∈ managedFileNames, configFile ≠ managedPath rulesDir name)
    {start : FileSystem} {operations : List FileOperation} {state : VersionedFiles}
    (filesApart : FilesApart (Overwritten configFile rulesDir operations))
    (reaches : Reaches allowed configFile rulesDir (ConfigSafe configFile rulesDir) start
      operations state) :
    ∀ path, Overwritten configFile rulesDir operations path → state.Recoverable path :=
  fun _ => recoverable_of_covers checks honest notManaged filesApart (fun _ => id) reaches

end

/-! ### A set file, and a main configuration without block -/

def directSetPaths : List Text :=
  ("/c" : Text) :: ("/s" : Text) :: managedFileNames.map (managedPath "/r/rules")

theorem filesApart_directSet :
    FilesApart (Overwritten "/c" "/r/rules" [.saveSetFile (some "/s") directSetUpdate]) := by
  have covers : ∀ path,
      Overwritten "/c" "/r/rules" [.saveSetFile (some "/s") directSetUpdate] path →
        path ∈ directSetPaths := by
    rintro path (rfl | ⟨name, managed, rfl⟩ | ⟨operation, listed, names⟩)
    · exact List.mem_cons_self
    · exact List.mem_cons_of_mem _ (List.mem_cons_of_mem _ (List.mem_map_of_mem managed))
    · rw [List.mem_singleton.mp listed] at names
      cases names
      exact List.mem_cons_of_mem _ List.mem_cons_self
  have apart : ∀ path ∈ directSetPaths, path ≠ backupPath path ∧
      ∀ other ∈ directSetPaths, path ≠ other → path ≠ temporaryPath other ∧
        path ≠ backupPath other ∧ backupPath path ≠ backupPath other := by
    decide
  constructor
  · exact fun path writes => (apart path (covers path writes)).1
  · intro path other writes writesOther different
    obtain ⟨temporary, backup, backups⟩ :=
      (apart path (covers path writes)).2 other (covers other writesOther) different
    exact ⟨⟨different, temporary, backup⟩, backups⟩

theorem recoverable_of_reaches_example :
    (VersionedFiles.changedTo { files := directSetFiles } directSetUpdated).Recoverable "/s" := by
  have undisturbed : ∀ request, Undisturbed request none := fun _ => rfl
  have notManaged : ∀ name ∈ managedFileNames, "/c" ≠ managedPath "/r/rules" name := by decide
  apply @recoverable_of_reaches Undisturbed "/c" "/r/rules" _ _ notManaged
  · exact filesApart_directSet
  · exact .step .start trivial ⟨_, gives_execute undisturbed _ directSetFiles⟩
  · exact .inr (.inr ⟨_, List.mem_cons_self, rfl⟩)
  · exact fun path fault met => by cases met
  · exact fun path fault met => by cases met

/-- A main configuration that somebody wrote by hand. -/
def ownConfig : FileSystem := fun path =>
  if path = "/c" then some (.text "server 1.1.1.1") else none

theorem not_recoverable_of_reaches :
    ¬ ∀ (configFile rulesDir : Text) (start : FileSystem) (operations : List FileOperation)
        (state : VersionedFiles),
      Reaches (fun _ _ => True) configFile rulesDir (fun _ _ => True) start operations state →
      ∀ path, Overwritten configFile rulesDir operations path → state.Recoverable path := by
  intro all
  let after := ((applyWorkingConfig "/c" "/r/rules").execute ownConfig).2
  have reaches : Reaches (fun _ _ => True) "/c" "/r/rules" (fun _ _ => True) ownConfig
      ([] ++ [.applyWorkingConfig]) (VersionedFiles.changedTo { files := ownConfig } after) :=
    .step .start trivial ⟨_, gives_execute (fun _ => trivial) _ ownConfig⟩
  have replaced : (VersionedFiles.changedTo { files := ownConfig } after).previous "/c" =
      some (.text "server 1.1.1.1") := by decide
  have lost := all _ _ _ _ _ reaches "/c" (.inl rfl) _ replaced
  exact absurd lost (by decide)

end SmartDnsPlusUi
