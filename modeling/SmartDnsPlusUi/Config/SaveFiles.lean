import SmartDnsPlusUi.Config.AssetPages
import SmartDnsPlusUi.Config.Beginner
import SmartDnsPlusUi.Config.ManagedBlock
import SmartDnsPlusUi.Files.Basic

/-!
# Saving to files

How the service writes a file: the new text goes to a temporary file that is renamed
over the old one, after the old one was copied to its backup where a backup is made.
A save of the settings writes the eight managed files that have changed, and then the
main configuration file if its managed block is not in place.
-/

namespace SmartDnsPlusUi

open Files Text

/-! ### Writing one file -/

/-- `read_text_or_default`. -/
def readTextOrDefault (path : Text) : Program (Except ErrorKind Text) :=
  .call (.readToString path) fun outcome =>
    .done (match outcome with
      | .ok text => .ok text
      | .error .notFound => .ok []
      | .error kind => .error kind)

/-- `fs::create_dir_all` on the parent, if the path has one. -/
def createParent (path : Text) : Program (Except ErrorKind Unit) :=
  match parent path with
  | some directory => .call (.createDirAll directory) .done
  | none => .done (.ok ())

def temporaryPath (path : Text) : Text := path ++ (".tmp" : Text)

/-- `write_text_atomic`; where the file system rejects the rename, the text is written
directly. -/
def writeTextAtomic (path content : Text) : Program (Except ErrorKind Unit) :=
  (createParent path).proceed fun _ =>
  Program.proceed (.call (.write (temporaryPath path) content) .done) fun _ =>
  .call (.rename (temporaryPath path) path) fun outcome =>
    match outcome with
    | .ok _ => .done (.ok ())
    | .error .permissionDenied =>
        Program.proceed (.call (.write path content) .done) fun _ =>
          .call (.removeFile (temporaryPath path)) fun _ => .done (.ok ())
    | .error kind => .call (.removeFile (temporaryPath path)) fun _ => .done (.error kind)

def backupName (path : Text) : Text :=
  (fileName path).getD ("smartdns.conf" : Text) ++ (".backup" : Text)

def parentOrHere (path : Text) : Text := (parent path).getD "."

def backupPath (path : Text) : Text := pathJoin (parentOrHere path) (backupName path)

def removeFiles : List Text → Program (Except ErrorKind Unit)
  | [] => .done (.ok ())
  | path :: rest => .call (.removeFile path) fun _ => removeFiles rest

/-- `prune_backup_files`; a directory has at most one entry with the name, so that
there is nothing to sort. -/
def pruneBackupFiles (path : Text) (keep : Nat) : Program (Except ErrorKind Unit) :=
  Program.proceed (.call (.readDirNamed (parentOrHere path) (backupName path)) .done)
    fun backups => removeFiles (backups.drop keep)

/-- `backup_file`. -/
def backupFile (path : Text) : Program (Except ErrorKind Unit) :=
  .call (.pathExists path) fun found =>
    if found then
      Program.proceed (.call (.copy path (backupPath path)) .done) fun _ =>
        pruneBackupFiles path 1
    else .done (.ok ())

/-- `write_text_with_backup_if_changed`. -/
def writeTextWithBackupIfChanged (path content : Text) : Program (Except ErrorKind Unit) :=
  (readTextOrDefault path).proceed fun current =>
    if current = content then .done (.ok ())
    else
      .call (.pathExists path) fun found =>
        if found then (backupFile path).proceed fun _ => writeTextAtomic path content
        else writeTextAtomic path content

/-! ### Saving the settings -/

structure SaveConfigRequest where
  beginner : BeginnerConfig
  rulesText : Text

/-- The managed files of a save and their texts, in the order in which they are written. -/
def renderedPages (request : SaveConfigRequest) : List (Text × Text) :=
  let assets := parseManagedAssetsFromText (normalizeRulesText request.rulesText)
  [(serviceFileName, renderServiceConfig request.beginner),
    (upstreamsFileName, renderUpstreamsConfig request.beginner),
    (performanceFileName, renderPerformanceConfig request.beginner),
    (routingFileName, renderRoutingItemsText assets),
    (rulesFileName, renderRuleEntriesText assets),
    (setsFileName, renderSetsText assets),
    (loggingFileName, renderLoggingConfig request.beginner),
    (networkFileName, renderNetworkConfig request.beginner)]

def writePages (rulesDir : Text) : List (Text × Text) → Program (Except ErrorKind Unit)
  | [] => .done (.ok ())
  | (name, content) :: rest =>
      (writeTextWithBackupIfChanged (managedPath rulesDir name) content).proceed fun _ =>
        writePages rulesDir rest

/-- `apply_working_config`. -/
def applyWorkingConfig (configFile rulesDir : Text) : Program (Except ErrorKind Unit) :=
  (readTextOrDefault configFile).proceed fun current =>
    if ensureManagedBlock current rulesDir ≠ current then
      writeTextAtomic configFile (ensureManagedBlock current rulesDir)
    else .done (.ok ())

/-- `save_beginner_config`, whose last part is that of `apply_working_config`. -/
def saveBeginnerConfig (configFile rulesDir : Text) (request : SaveConfigRequest) :
    Program (Except ErrorKind ValidationResult) :=
  let validation := validateBeginnerConfig request.beginner request.rulesText
  if validation.ok then
    (writePages rulesDir (renderedPages request)).proceed fun _ =>
    (applyWorkingConfig configFile rulesDir).proceed fun _ => .done (.ok validation)
  else .done (.ok validation)

/-! ### What one file becomes -/

/-- The text at a path, empty when there is no file. -/
def textAt (files : FileSystem) (path : Text) : Text :=
  match files path with
  | some (.text t) => t
  | _ => []

/-- There is no file, or a text. -/
def IsReadableAt (files : FileSystem) (path : Text) : Prop :=
  ∀ bytes, files path ≠ some (.binary bytes)

theorem textAt_congr {files other : FileSystem} {path : Text} (same : files path = other path) :
    textAt files path = textAt other path := by
  unfold textAt
  rw [same]

theorem isReadableAt_congr {files other : FileSystem} {path : Text}
    (same : files path = other path) : IsReadableAt files path ↔ IsReadableAt other path := by
  unfold IsReadableAt
  rw [same]

/-- The file system after an undisturbed atomic write. -/
def written (path content : Text) (files : FileSystem) : FileSystem :=
  Function.update (Function.update files (temporaryPath path) none) path (some (.text content))

/-- The file system after an undisturbed backup. -/
def backedUp (path : Text) (files : FileSystem) : FileSystem :=
  match files path with
  | some content => Function.update files (backupPath path) (some content)
  | none => files

/-- The file system after an undisturbed write with backup. -/
def saved (path content : Text) (files : FileSystem) : FileSystem :=
  if textAt files path = content then files else written path content (backedUp path files)

theorem temporaryPath_ne (path : Text) : temporaryPath path ≠ path := by
  intro same
  have lengths := congrArg List.length same
  simp [temporaryPath] at lengths

section Undisturbed

variable {path content : Text} {files after : FileSystem}

theorem gives_readTextOrDefault {result : Except ErrorKind Text}
    (gives : (readTextOrDefault path).Gives Program.RejectsRenames files result after) :
    after = files ∧ ((IsReadableAt files path ∧ result = .ok (textAt files path)) ∨
      (¬ IsReadableAt files path ∧ result = .error .invalidData)) := by
  obtain ⟨outcome, rfl⟩ := Program.gives_call gives nofun
  refine ⟨rfl, ?_⟩
  subst outcome
  unfold IsReadableAt textAt
  dsimp only [perform]
  cases found : files path with
  | none => exact Or.inl ⟨nofun, rfl⟩
  | some file =>
      cases file with
      | text t => exact Or.inl ⟨nofun, rfl⟩
      | binary bytes => exact Or.inr ⟨fun readable => readable bytes rfl, rfl⟩

theorem gives_createParent {result : Except ErrorKind Unit}
    (gives : (createParent path).Gives Program.RejectsRenames files result after) :
    result = .ok () ∧ after = files := by
  unfold createParent at gives
  split at gives
  · obtain ⟨outcome, rfl⟩ := Program.gives_call gives nofun
    exact ⟨outcome.symm, rfl⟩
  · exact ⟨gives.1.symm, gives.2.symm⟩

/-- Whether the rename is rejected or not, the file is written and the temporary file is gone. -/
theorem gives_writeTextAtomic {result : Except ErrorKind Unit}
    (gives : (writeTextAtomic path content).Gives Program.RejectsRenames files result after) :
    result = .ok () ∧ after = written path content files := by
  have apart := temporaryPath_ne path
  unfold writeTextAtomic at gives
  have prepared := Program.gives_proceed_of (fun _ _ => gives_createParent) gives
  obtain ⟨fault, met, renamed⟩ :=
    Program.gives_proceed_of (fun _ _ first => Program.gives_single (by nofun) first) prepared
  unfold written
  rcases met with rfl | ⟨source, target, left, -, rfl⟩
  · simp only [perform, Function.update_self] at renamed
    obtain ⟨rfl, rfl⟩ := renamed
    simp
  · have removed :=
      Program.gives_proceed_of (fun _ _ first => Program.gives_single (by nofun) first) renamed
    have finished := Program.gives_call removed nofun
    simp only [perform, Function.update_self, Function.update_of_ne apart] at finished
    obtain ⟨rfl, rfl⟩ := finished
    rw [Function.update_comm apart.symm, Function.update_idem]
    exact ⟨rfl, rfl⟩

theorem gives_backupFile (located : parentOrHere path ≠ []) {result : Except ErrorKind Unit}
    (gives : (backupFile path).Gives Program.RejectsRenames files result after) :
    result = .ok () ∧ after = backedUp path files := by
  have tested := Program.gives_pathExists gives
  unfold backedUp
  cases found : files path with
  | none =>
      rw [found] at tested
      exact ⟨tested.1.symm, tested.2.symm⟩
  | some content =>
      rw [found] at tested
      have copied := Program.gives_proceed_of (fun outcome between first => by
        obtain ⟨reply, left⟩ := Program.gives_single (by nofun) first
        simp only [perform, found] at reply left
        exact ⟨reply, left⟩) tested
      unfold pruneBackupFiles at copied
      have pruned := Program.gives_proceed_of (fun outcome between first => by
        obtain ⟨reply, left⟩ := Program.gives_single (by nofun) first
        have here : pathJoin (parentOrHere path) (backupName path) = backupPath path := rfl
        simp only [perform, here, if_neg located, Function.update_self, Option.isSome_some,
          if_true] at reply left
        exact ⟨reply, left⟩) copied
      exact ⟨pruned.1.symm, pruned.2.symm⟩

theorem gives_writeTextWithBackupIfChanged (located : parentOrHere path ≠ [])
    {result : Except ErrorKind Unit}
    (gives : (writeTextWithBackupIfChanged path content).Gives Program.RejectsRenames files
      result after) :
    (IsReadableAt files path ∧ result = .ok () ∧ after = saved path content files) ∨
      (¬ IsReadableAt files path ∧ result = .error .invalidData ∧ after = files) := by
  unfold writeTextWithBackupIfChanged at gives
  rcases Program.gives_proceed gives with ⟨current, read, first, later⟩ | ⟨kind, failed, rfl⟩
  · obtain ⟨rfl, ⟨readable, same⟩ | ⟨-, impossible⟩⟩ := gives_readTextOrDefault first
    · cases same
      refine Or.inl ⟨readable, ?_⟩
      unfold saved
      split_ifs at later ⊢ with unchanged
      · exact ⟨later.1.symm, later.2.symm⟩
      · have tested := Program.gives_pathExists later
        cases found : read path with
        | none =>
            rw [found] at tested
            have same : backedUp path read = read := by rw [backedUp, found]
            rw [same]
            exact gives_writeTextAtomic tested
        | some file =>
            rw [found, Option.isSome_some, if_pos rfl] at tested
            have kept := Program.gives_proceed_of (fun _ _ => gives_backupFile located) tested
            exact gives_writeTextAtomic kept
    · cases impossible
  · obtain ⟨rfl, ⟨-, impossible⟩ | ⟨unreadable, same⟩⟩ := gives_readTextOrDefault failed
    · cases impossible
    · cases same
      exact Or.inr ⟨unreadable, rfl, rfl⟩

theorem written_other {other : Text} (notPath : other ≠ path)
    (notTemporary : other ≠ temporaryPath path) : written path content files other = files other :=
  (Function.update_of_ne notPath _ _).trans (Function.update_of_ne notTemporary _ _)

theorem backedUp_other {other : Text} (notBackup : other ≠ backupPath path) :
    backedUp path files other = files other := by
  unfold backedUp
  cases found : files path with
  | none => rfl
  | some content => exact Function.update_of_ne notBackup _ _

theorem textAt_written : textAt (written path content files) path = content := by
  unfold textAt written
  rw [Function.update_self]

theorem isReadableAt_written : IsReadableAt (written path content files) path := by
  unfold IsReadableAt written
  rw [Function.update_self]
  exact nofun

/-- A write with backup changes the file, its backup and its temporary file. -/
theorem saved_other {other : Text} (notPath : other ≠ path)
    (notTemporary : other ≠ temporaryPath path) (notBackup : other ≠ backupPath path) :
    saved path content files other = files other := by
  unfold saved
  split_ifs
  · rfl
  · exact (written_other notPath notTemporary).trans (backedUp_other notBackup)

/-- The temporary file is gone, or as it was. -/
theorem saved_other_or_none {other : Text} (notPath : other ≠ path)
    (notBackup : other ≠ backupPath path) :
    saved path content files other = files other ∨ saved path content files other = none := by
  by_cases temporary : other = temporaryPath path
  · subst temporary
    unfold saved
    split_ifs
    · exact Or.inl rfl
    · right
      exact (Function.update_of_ne notPath _ _).trans (Function.update_self _ _ _)
  · exact Or.inl (saved_other notPath temporary notBackup)

/-- A file that changes is in its backup. -/
theorem saved_backup {old : Content} (found : files path = some old)
    (changed : textAt files path ≠ content) (notPath : backupPath path ≠ path)
    (notTemporary : backupPath path ≠ temporaryPath path) :
    saved path content files (backupPath path) = some old := by
  unfold saved
  rw [if_neg changed, written_other notPath notTemporary, backedUp, found]
  exact Function.update_self _ _ _

theorem textAt_saved : textAt (saved path content files) path = content := by
  unfold saved
  split_ifs with unchanged
  · exact unchanged
  · exact textAt_written

theorem isReadableAt_saved (readable : IsReadableAt files path) :
    IsReadableAt (saved path content files) path := by
  unfold saved
  split_ifs with unchanged
  · exact readable
  · exact isReadableAt_written

theorem isReadableAt_update {other : Text} {content : Option Content}
    (text : ∀ bytes, content ≠ some (.binary bytes)) (readable : IsReadableAt files other) :
    IsReadableAt (Function.update files path content) other := by
  intro bytes
  by_cases same : other = path
  · rw [same, Function.update_self]
    exact text bytes
  · rw [Function.update_of_ne same]
    exact readable bytes

theorem isReadableAt_written_other {other : Text} (readable : IsReadableAt files other) :
    IsReadableAt (written path content files) other :=
  isReadableAt_update (by nofun) (isReadableAt_update (by nofun) readable)

/-- A write with backup leaves texts wherever there were texts. -/
theorem isReadableAt_saved_other {other : Text} (readable : IsReadableAt files path)
    (readableOther : IsReadableAt files other) :
    IsReadableAt (saved path content files) other := by
  unfold saved
  split_ifs
  · exact readableOther
  · refine isReadableAt_written_other ?_
    unfold backedUp
    cases found : files path with
    | none => exact readableOther
    | some old =>
        refine isReadableAt_update (fun bytes same => readable bytes ?_) readableOther
        rw [found, same]

theorem saved_of_text (same : textAt files path = content) : saved path content files = files :=
  if_pos same

/-- The file system after an undisturbed update of the main configuration. -/
def mainSaved (configFile rulesDir : Text) (files : FileSystem) : FileSystem :=
  if ensureManagedBlock (textAt files configFile) rulesDir ≠ textAt files configFile then
    written configFile (ensureManagedBlock (textAt files configFile) rulesDir) files
  else files

theorem gives_applyWorkingConfig {configFile rulesDir : Text} {result : Except ErrorKind Unit}
    (gives : (applyWorkingConfig configFile rulesDir).Gives Program.RejectsRenames files
      result after) :
    (IsReadableAt files configFile ∧ result = .ok () ∧
        after = mainSaved configFile rulesDir files) ∨
      (¬ IsReadableAt files configFile ∧ result = .error .invalidData ∧ after = files) := by
  unfold applyWorkingConfig at gives
  rcases Program.gives_proceed gives with ⟨current, read, first, later⟩ | ⟨kind, failed, rfl⟩
  · obtain ⟨rfl, ⟨readable, same⟩ | ⟨-, impossible⟩⟩ := gives_readTextOrDefault first
    · cases same
      refine Or.inl ⟨readable, ?_⟩
      unfold mainSaved
      split_ifs at later ⊢
      · exact gives_writeTextAtomic later
      · exact ⟨later.1.symm, later.2.symm⟩
    · cases impossible
  · obtain ⟨rfl, ⟨-, impossible⟩ | ⟨unreadable, same⟩⟩ := gives_readTextOrDefault failed
    · cases impossible
    · cases same
      exact Or.inr ⟨unreadable, rfl, rfl⟩

theorem mainSaved_other {configFile rulesDir other : Text} (notConfig : other ≠ configFile)
    (notTemporary : other ≠ temporaryPath configFile) :
    mainSaved configFile rulesDir files other = files other := by
  unfold mainSaved
  split_ifs
  · exact written_other notConfig notTemporary
  · rfl

theorem textAt_mainSaved {configFile rulesDir : Text} :
    textAt (mainSaved configFile rulesDir files) configFile =
      ensureManagedBlock (textAt files configFile) rulesDir := by
  unfold mainSaved
  split_ifs with changed
  · exact textAt_written
  · exact (not_not.mp changed).symm

theorem isReadableAt_mainSaved {configFile rulesDir : Text}
    (readable : IsReadableAt files configFile) :
    IsReadableAt (mainSaved configFile rulesDir files) configFile := by
  unfold mainSaved
  split_ifs
  · exact isReadableAt_written
  · exact readable

end Undisturbed

/-! ### The managed files -/

theorem getLast?_temporaryPath (path : Text) : (temporaryPath path).getLast? = some 'p' := by
  simp [temporaryPath]

theorem getLast?_backupPath (path : Text) : (backupPath path).getLast? = some 'p' := by
  obtain ⟨front, joined⟩ := pathJoin_eq_append (parentOrHere path) (backupName path)
  rw [backupPath, joined, backupName, ← List.append_assoc]
  simp

theorem getLast?_managedPath (rulesDir : Text) {name : Text} (managed : name ∈ managedFileNames) :
    (managedPath rulesDir name).getLast? = some 'f' := by
  have names : ∀ name ∈ managedFileNames, name.getLast? = some 'f' := by decide
  obtain ⟨front, joined⟩ := pathJoin_eq_append (managedConfDir rulesDir) name
  rw [managedPath, joined, List.getLast?_append, names name managed, Option.some_or]

theorem managedPath_injective {rulesDir name other : Text} (managed : name ∈ managedFileNames)
    (managedOther : other ∈ managedFileNames)
    (same : managedPath rulesDir name = managedPath rulesDir other) : name = other := by
  unfold managedPath pathJoin at same
  rw [if_neg (plain_managedFileNames name managed).2,
    if_neg (plain_managedFileNames other managedOther).2] at same
  split at same
  · exact List.append_cancel_left same
  · exact List.tail_eq_of_cons_eq (List.append_cancel_left same)

/-- A managed file is in the directory `conf.d`. -/
theorem parentOrHere_managedPath (rulesDir : Text) {name : Text}
    (managed : name ∈ managedFileNames) : parentOrHere (managedPath rulesDir name) ≠ [] := by
  have names : ∀ name ∈ managedFileNames, '/' ∉ name ∧ isSkipped name = false := by decide
  obtain ⟨free, visible⟩ := names name managed
  obtain ⟨front, joined⟩ := pathJoin_eq_append ((parent rulesDir).getD rulesDir) "conf.d"
  have ending : endsWith '/' (front ++ "conf.d") = false := by
    unfold endsWith
    rw [List.getLast?_append]
    rfl
  have whole : managedPath rulesDir name = front ++ "conf.d" ++ '/' :: name := by
    unfold managedPath managedConfDir
    rw [joined, pathJoin, if_neg (plain_managedFileNames name managed).2, ending, if_neg]
    simp
  have located : parent (front ++ "conf.d" ++ '/' :: name) ≠ some [] :=
    parent_ne_nil (by decide) (by decide) free visible
  rw [whole, parentOrHere]
  cases found : parent (front ++ "conf.d" ++ '/' :: name) with
  | none => decide
  | some directory =>
      rintro rfl
      exact located found

/-- Writing one managed file leaves the others alone. -/
structure ApartFrom (path other : Text) : Prop where
  not_path : path ≠ other
  not_temporary : path ≠ temporaryPath other
  not_backup : path ≠ backupPath other

theorem apartFrom_managedPath {rulesDir name other : Text} (managed : name ∈ managedFileNames)
    (managedOther : other ∈ managedFileNames) (different : name ≠ other) :
    ApartFrom (managedPath rulesDir name) (managedPath rulesDir other) := by
  have last := getLast?_managedPath rulesDir managed
  refine ⟨fun same => different (managedPath_injective managed managedOther same), ?_, ?_⟩
  · intro same
    rw [same, getLast?_temporaryPath] at last
    exact absurd last (by decide)
  · intro same
    rw [same, getLast?_backupPath] at last
    exact absurd last (by decide)

end SmartDnsPlusUi
