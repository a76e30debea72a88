import SmartDnsPlusUi.Config.Backups
import SmartDnsPlusUi.Config.RepeatedSave
import SmartDnsPlusUi.Files.Interrupted

/-!
# A save that stops halfway

The process can end after any call of a save, also in the middle of a write, and any call can
fail.  The pages are written one after another, each by a rename, and the main configuration
comes last: whatever stops the save, some first pages are new, the others are as they were, and
the main configuration is only ahead when no page is behind.  The same save then goes on from
there.
-/

namespace SmartDnsPlusUi

open Files Text Program

section

variable {allowed : Call → Option Fault → Prop} {path other : Text}
variable {files between after : FileSystem}

/-! ### What a write spares on its way -/

theorem spares_readTextOrDefault : (readTextOrDefault path).Spares allowed other :=
  spares_single List.not_mem_nil

theorem spares_createParent : (createParent path).Spares allowed other := by
  unfold createParent
  split
  · exact spares_single List.not_mem_nil
  · exact spares_done _

theorem spares_removeTemporary {Value : Type} (notTemporary : other ≠ temporaryPath path)
    (value : Value) :
    (call (.removeFile (temporaryPath path)) fun _ => done value).Spares allowed other :=
  spares_single (mt List.mem_singleton.mp notTemporary)

theorem spares_writeTextAtomic (notPath : other ≠ path) (notTemporary : other ≠ temporaryPath path)
    (content : Text) : (writeTextAtomic path content).Spares allowed other := by
  apply spares_createParent.proceed
  intro _
  apply Spares.proceed
  · exact spares_single (mt List.mem_singleton.mp notTemporary)
  intro _
  apply spares_call
  · simp [Call.targets, notPath, notTemporary]
  intro outcome
  cases outcome with
  | ok _ => exact spares_done _
  | error kind =>
      cases kind with
      | permissionDenied =>
          apply Spares.proceed
          · exact spares_single (mt List.mem_singleton.mp notPath)
          · exact fun _ => spares_removeTemporary notTemporary _
      | notFound | invalidData | other => exact spares_removeTemporary notTemporary _

theorem spares_pruneBackupFiles : (pruneBackupFiles path 1).Spares allowed other := by
  intro files between passes
  rcases passes_proceed passes with before | ⟨backups, middle, ⟨fault, -, listed, rfl⟩, rest⟩
  · exact spares_single List.not_mem_nil _ _ before
  · rw [drop_one_listed listed] at rest
    exact congrFun (rest : _ = between).symm other

theorem spares_backupFile (notBackup : other ≠ backupPath path) :
    (backupFile path).Spares allowed other := by
  apply spares_call List.not_mem_nil
  intro found
  cases found with
  | false => exact spares_done _
  | true =>
      apply Spares.proceed
      · exact spares_single (mt List.mem_singleton.mp notBackup)
      · exact fun _ => spares_pruneBackupFiles

theorem spares_writeTextWithBackupIfChanged (apart : ApartFrom other path) (content : Text) :
    (writeTextWithBackupIfChanged path content).Spares allowed other := by
  have written := @spares_writeTextAtomic allowed _ _ apart.not_path apart.not_temporary content
  apply spares_readTextOrDefault.proceed
  intro current
  split
  · exact spares_done _
  · apply spares_call List.not_mem_nil
    intro found
    cases found with
    | false => exact written
    | true => exact (spares_backupFile apart.not_backup).proceed fun _ => written

theorem spares_writePages {rulesDir : Text} {pages : List (Text × Text)}
    (apart : ∀ page ∈ pages, ApartFrom other (managedPath rulesDir page.1)) :
    (writePages rulesDir pages).Spares allowed other := by
  induction pages with
  | nil => exact spares_done _
  | cons page pages inductionHypothesis =>
      rw [List.forall_mem_cons] at apart
      apply (spares_writeTextWithBackupIfChanged apart.1 page.2).proceed
      exact fun _ => inductionHypothesis apart.2

theorem spares_applyWorkingConfig {configFile rulesDir : Text} (notConfig : other ≠ configFile)
    (notTemporary : other ≠ temporaryPath configFile) :
    (applyWorkingConfig configFile rulesDir).Spares allowed other := by
  apply spares_readTextOrDefault.proceed
  intro current
  split
  · exact spares_writeTextAtomic notConfig notTemporary _
  · exact spares_done _

/-! ### One file -/

/-- Nothing but the rename changes the file, and it puts the whole text there. -/
theorem passes_writeTextAtomic (renames : KeepsRenames allowed) {content : Text}
    (passes : (writeTextAtomic path content).Passes allowed files between) :
    between path = files path ∨ between path = some (.text content) := by
  have notTemporary := (temporaryPath_ne path).symm
  rcases passes_proceed passes with first | ⟨_, prepared, ran, rest⟩
  · exact .inl (spares_createParent _ _ first)
  rw [← spares_createParent.gives ran]
  rcases passes_proceed rest with first | ⟨_, _, ⟨fault, -, wrote, rfl⟩, renamed⟩
  · exact .inl (spares_single (mt List.mem_singleton.mp notTemporary) _ _ first)
  cases fault with
  | some fault => cases wrote
  | none =>
      have same : (perform none (.write (temporaryPath path) content) prepared).2 path =
          prepared path := Function.update_of_ne notTemporary _ _
      have temporary : (perform none (.write (temporaryPath path) content) prepared).2
          (temporaryPath path) = some (.text content) := Function.update_self _ _ _
      rcases renamed with rfl | ⟨fault, met, ends⟩
      · exact .inl same
      rw [← same]
      cases fault with
      | none =>
          dsimp only [perform] at ends temporary
          rw [temporary] at ends
          obtain rfl := ends
          exact .inr (Function.update_self _ _ _)
      | some fault =>
          -- the text is not written directly
          have kept := renames _ _ fault met
          obtain ⟨kind, left⟩ := fault
          cases kind with
          | permissionDenied => exact absurd rfl kept
          | notFound | invalidData | other =>
              exact .inl (spares_removeTemporary notTemporary _ _ _ ends)

theorem passes_writeTextWithBackupIfChanged (renames : KeepsRenames allowed)
    (own : path ≠ backupPath path) {content : Text}
    (passes : (writeTextWithBackupIfChanged path content).Passes allowed files between) :
    between path = files path ∨ between path = some (.text content) := by
  rcases passes_proceed passes with first | ⟨current, middle, read, rest⟩
  · exact .inl (spares_readTextOrDefault _ _ first)
  rw [← spares_readTextOrDefault.gives read]
  split at rest
  · exact .inl (spares_done _ _ _ rest)
  · rcases rest with rfl | ⟨fault, -, rest⟩
    · exact .inl rfl
    · dsimp only [perform] at rest
      split at rest
      · rcases passes_proceed rest with first | ⟨_, backed, ran, written⟩
        · exact .inl (spares_backupFile own _ _ first)
        · rw [← (spares_backupFile own).gives ran]
          exact passes_writeTextAtomic renames written
      · exact passes_writeTextAtomic renames rest

theorem holds_of_text {content : Text} (found : after path = some (.text content)) :
    textAt after path = content ∧ IsReadableAt after path := by
  rw [textAt, IsReadableAt, found]
  refine ⟨rfl, ?_⟩
  intro bytes same
  cases same

/-- What an honest read gives is the text at the path. -/
theorem holds_of_gives_readTextOrDefault (honest : HonestReads allowed) {text : Text}
    (gives : (readTextOrDefault path).Gives allowed files (.ok text) after) :
    textAt files path = text ∧ IsReadableAt files path := by
  rcases text_of_gives_readTextOrDefault honest gives with missing | found
  · have read := (gives_readTextOrDefault_ok honest gives fun _ _ => none).2
    rw [readTextOrDefault_tree] at read
    simp only [treeAt, perform, missing, orDefault] at read
    rw [textAt, IsReadableAt, missing]
    refine ⟨Except.ok.inj read, ?_⟩
    intro bytes same
    cases same
  · exact holds_of_text found

theorem holds_of_gives_writeTextWithBackupIfChanged (honest : HonestReads allowed)
    {content : Text}
    (gives : (writeTextWithBackupIfChanged path content).Gives allowed files (.ok ()) after) :
    textAt after path = content ∧ IsReadableAt after path := by
  obtain ⟨current, middle, read, rest⟩ := gives_proceed_ok gives
  split at rest
  · rename_i unchanged
    obtain ⟨-, rfl⟩ := rest
    have kept : middle path = files path := spares_readTextOrDefault.gives read
    rw [textAt_congr kept, isReadableAt_congr kept, ← unchanged]
    exact holds_of_gives_readTextOrDefault honest read
  · apply holds_of_text
    obtain ⟨fault, -, rest⟩ := rest
    dsimp only [perform] at rest
    split at rest
    · obtain ⟨_, backed, -, written⟩ := gives_proceed_ok rest
      exact gives_writeTextAtomic_ok written
    · exact gives_writeTextAtomic_ok rest

/-! ### The pages, and the main configuration -/

variable {configFile rulesDir : Text} {pages : List (Text × Text)}

/-- Some first pages are in their files, and the files of the others are as they were. -/
structure SavedUpTo (rulesDir : Text) (finished rest : List (Text × Text))
    (files between : FileSystem) : Prop where
  finished : HoldsPages rulesDir finished between
  rest : ∀ page ∈ rest,
    between (managedPath rulesDir page.1) = files (managedPath rulesDir page.1)

theorem own_managedPath {name : Text} (managed : name ∈ managedFileNames) :
    managedPath rulesDir name ≠ backupPath (managedPath rulesDir name) := by
  intro same
  have last := getLast?_managedPath rulesDir managed
  rw [same, getLast?_backupPath] at last
  exact absurd last (by decide)

theorem managedPath_ne_temporaryPath {name : Text} (managed : name ∈ managedFileNames) :
    managedPath rulesDir name ≠ temporaryPath other := by
  intro same
  have last := getLast?_managedPath rulesDir managed
  rw [same, getLast?_temporaryPath] at last
  exact absurd last (by decide)

theorem holdsPages_of_gives_writePages (honest : HonestReads allowed)
    (areManaged : AreManaged pages)
    (gives : (writePages rulesDir pages).Gives allowed files (.ok ()) after) :
    HoldsPages rulesDir pages after := by
  induction pages generalizing files with
  | nil => exact nofun
  | cons page pages inductionHypothesis =>
      obtain ⟨_, middle, first, later⟩ := gives_proceed_ok gives
      refine List.forall_mem_cons.mpr ⟨?_, inductionHypothesis areManaged.tail later⟩
      have others := areManaged.apart rulesDir
      have kept : after (managedPath rulesDir page.1) = middle (managedPath rulesDir page.1) :=
        (spares_writePages fun other among => (others other among).1).gives later
      rw [textAt_congr kept, isReadableAt_congr kept]
      exact holds_of_gives_writeTextWithBackupIfChanged honest first

theorem savedUpTo_of_passes_writePages (honest : HonestReads allowed)
    (renames : KeepsRenames allowed) (areManaged : AreManaged pages)
    (passes : (writePages rulesDir pages).Passes allowed files between) :
    ∃ finished rest, pages = finished ++ rest ∧ SavedUpTo rulesDir finished rest files between := by
  induction pages generalizing files with
  | nil => exact ⟨[], [], rfl, nofun, nofun⟩
  | cons page pages inductionHypothesis =>
      have others := areManaged.apart rulesDir
      have spares : ∀ other ∈ pages, (writeTextWithBackupIfChanged (managedPath rulesDir page.1)
          page.2).Spares allowed (managedPath rulesDir other.1) :=
        fun other among => spares_writeTextWithBackupIfChanged (others other among).2 _
      rcases passes_proceed passes with first | ⟨_, middle, wrote, later⟩
      · have behind := fun other among => spares other among _ _ first
        have own := @own_managedPath rulesDir _ (areManaged.managed page List.mem_cons_self)
        rcases passes_writeTextWithBackupIfChanged renames own first with before | whole
        · exact ⟨[], page :: pages, rfl, nofun, List.forall_mem_cons.mpr ⟨before, behind⟩⟩
        · refine ⟨[page], pages, rfl, ?_, behind⟩
          exact List.forall_mem_singleton.mpr (holds_of_text whole)
      · obtain ⟨finished, rest, rfl, holds, same⟩ := inductionHypothesis areManaged.tail later
        refine ⟨page :: finished, rest, rfl, ?_, ?_⟩
        · refine List.forall_mem_cons.mpr ⟨?_, holds⟩
          have kept : between (managedPath rulesDir page.1) = middle (managedPath rulesDir page.1) :=
            spares_writePages (fun other among => (others other among).1) _ _ later
          rw [textAt_congr kept, isReadableAt_congr kept]
          exact holds_of_gives_writeTextWithBackupIfChanged honest wrote
        · intro other among
          have listed := List.mem_append_right finished among
          exact (same other among).trans ((spares other listed).gives wrote)

theorem passes_applyWorkingConfig (honest : HonestReads allowed) (renames : KeepsRenames allowed)
    (passes : (applyWorkingConfig configFile rulesDir).Passes allowed files between) :
    between configFile = files configFile ∨ between configFile =
      some (.text (ensureManagedBlock (textAt files configFile) rulesDir)) := by
  rcases passes_proceed passes with first | ⟨current, middle, read, rest⟩
  · exact .inl (spares_readTextOrDefault _ _ first)
  obtain ⟨rfl, -⟩ := holds_of_gives_readTextOrDefault honest read
  rw [← spares_readTextOrDefault.gives read]
  split at rest
  · exact passes_writeTextAtomic renames rest
  · exact .inl (spares_done _ _ _ rest)

/-- Where a save of the pages can stop.  The block of the main configuration is only put in
place when every page is in its file. -/
def StopsAt (configFile rulesDir : Text) (pages : List (Text × Text))
    (files between : FileSystem) : Prop :=
  ∃ finished rest, pages = finished ++ rest ∧ SavedUpTo rulesDir finished rest files between ∧
    (between configFile = files configFile ∨ rest = [] ∧ between configFile =
      some (.text (ensureManagedBlock (textAt files configFile) rulesDir)))

/-- No managed file, backup of one or temporary file of one is the main configuration. -/
def ConfigApart (configFile rulesDir : Text) : Prop :=
  ∀ name ∈ managedFileNames, ApartFrom configFile (managedPath rulesDir name)

/-- The part that the two saves share. -/
theorem stopsAt_of_passes_savePages (honest : HonestReads allowed)
    (renames : KeepsRenames allowed) (apart : ConfigApart configFile rulesDir)
    (areManaged : AreManaged pages) {validation : ValidationResult}
    (passes : ((writePages rulesDir pages).proceed fun _ =>
      (applyWorkingConfig configFile rulesDir).proceed fun _ =>
        .done (.ok validation)).Passes allowed files between) :
    StopsAt configFile rulesDir pages files between := by
  have mainApart : (writePages rulesDir pages).Spares allowed configFile :=
    spares_writePages fun page among => apart page.1 (areManaged.managed page among)
  rcases passes_proceed passes with first | ⟨_, middle, wrote, later⟩
  · obtain ⟨finished, rest, joined, savedUpTo⟩ :=
      savedUpTo_of_passes_writePages honest renames areManaged first
    exact ⟨finished, rest, joined, savedUpTo, .inl (mainApart _ _ first)⟩
  · have applying : (applyWorkingConfig configFile rulesDir).Passes allowed middle between := by
      rcases passes_proceed later with first | ⟨_, _, ran, ended⟩
      · exact first
      · obtain rfl := ended
        exact passes_end ran
    refine ⟨pages, [], (List.append_nil pages).symm, ⟨?_, nofun⟩, ?_⟩
    · intro page among
      have managed := areManaged.managed page among
      have kept : between (managedPath rulesDir page.1) = middle (managedPath rulesDir page.1) :=
        spares_applyWorkingConfig (apart page.1 managed).not_path.symm
          (managedPath_ne_temporaryPath managed) _ _ applying
      rw [textAt_congr kept, isReadableAt_congr kept]
      exact holdsPages_of_gives_writePages honest areManaged wrote page among
    · have main := passes_applyWorkingConfig honest renames applying
      rw [mainApart.gives wrote, textAt_congr (mainApart.gives wrote)] at main
      exact main.imp_right fun replaced => ⟨rfl, replaced⟩

theorem stopsAt_start : StopsAt configFile rulesDir pages files files :=
  ⟨[], pages, rfl, ⟨nofun, fun _ _ => rfl⟩, .inl rfl⟩

end

/-! ### The two saves -/

section

variable {allowed : Call → Option Fault → Prop} {configFile rulesDir : Text}
variable {files between later : FileSystem} {pages : List (Text × Text)}

/-- A save that starts where the same save stopped stops further on. -/
theorem StopsAt.again (terminated : IsTerminated (textAt files configFile))
    (free : ¬ managedEnd <:+: managedConfDir rulesDir)
    (first : StopsAt configFile rulesDir pages files between)
    (second : StopsAt configFile rulesDir pages between later) :
    StopsAt configFile rulesDir pages files later := by
  obtain ⟨finished, rest, rfl, ⟨holds, same⟩, main⟩ := first
  obtain ⟨finishedAgain, restAgain, joined, ⟨holdsAgain, sameAgain⟩, mainAgain⟩ := second
  have both : later configFile = files configFile ∨ (rest = [] ∨ restAgain = []) ∧
      later configFile =
        some (.text (ensureManagedBlock (textAt files configFile) rulesDir)) := by
    rcases main with kept | ⟨nothing, replaced⟩
    · rw [kept, textAt_congr kept] at mainAgain
      exact mainAgain.imp_right fun ⟨nothing, replaced⟩ => ⟨.inr nothing, replaced⟩
    · refine .inr ⟨.inl nothing, ?_⟩
      rcases mainAgain with kept | ⟨-, replacedAgain⟩
      · exact kept.trans replaced
      · rw [replacedAgain, (holds_of_text replaced).1,
          ensureManagedBlock_of_isTerminated free terminated]
  rcases List.append_eq_append_iff.mp joined with ⟨more, rfl, rfl⟩ | ⟨more, rfl, rfl⟩
  · -- the second save got further
    refine ⟨_, restAgain, (List.append_assoc finished more restAgain).symm, ⟨holdsAgain, ?_⟩, ?_⟩
    · intro page among
      exact (sameAgain page among).trans (same page (List.mem_append_right more among))
    · refine both.imp_right fun ⟨nothing, replaced⟩ => ⟨?_, replaced⟩
      exact nothing.elim (fun both => (List.append_eq_nil_iff.mp both).2) id
  · refine ⟨_, rest, rfl, ⟨List.forall_mem_append.mpr ⟨holdsAgain, ?_⟩, ?_⟩, ?_⟩
    · intro page among
      have kept := sameAgain page (List.mem_append_left rest among)
      rw [textAt_congr kept, isReadableAt_congr kept]
      exact holds page (List.mem_append_right finishedAgain among)
    · intro page among
      exact (sameAgain page (List.mem_append_right more among)).trans (same page among)
    · refine both.imp_right fun ⟨nothing, replaced⟩ => ⟨?_, replaced⟩
      exact nothing.elim id fun both => (List.append_eq_nil_iff.mp both).2

/-- Where one stop is described, so is any number of them in a row. -/
theorem StopsAt.run (terminated : IsTerminated (textAt files configFile))
    (free : ¬ managedEnd <:+: managedConfDir rulesDir) {attempt : FileSystem → FileSystem → Prop}
    (stops : ∀ before after, attempt before after →
      StopsAt configFile rulesDir pages before after)
    (attempts : Relation.ReflTransGen attempt files between) :
    StopsAt configFile rulesDir pages files between := by
  induction attempts with
  | refl => exact stopsAt_start
  | tail _ last inductionHypothesis =>
      exact inductionHypothesis.again terminated free (stops _ _ last)

theorem stopsAt_of_saveBeginnerConfig (honest : HonestReads allowed)
    (renames : KeepsRenames allowed) (apart : ConfigApart configFile rulesDir)
    {request : SaveConfigRequest}
    (passes : (saveBeginnerConfig configFile rulesDir request).Passes allowed files between) :
    StopsAt configFile rulesDir (renderedPages request) files between := by
  unfold saveBeginnerConfig at passes
  dsimp only at passes
  split at passes
  · exact stopsAt_of_passes_savePages honest renames apart (areManaged_renderedPages request) passes
  · obtain rfl : files = between := passes
    exact stopsAt_start

theorem stopsAt_of_saveManagedAssets (honest : HonestReads allowed)
    (renames : KeepsRenames allowed) (apart : ConfigApart configFile rulesDir)
    {request : ManagedAssets}
    (passes : (saveManagedAssets configFile rulesDir request).Passes allowed files between) :
    StopsAt configFile rulesDir (assetPages request) files between := by
  rcases passes_proceed passes with (rfl | ⟨fault, -, ended⟩) | ⟨_, _, ⟨fault, -, -, rfl⟩, rest⟩
  · exact stopsAt_start
  · obtain rfl : files = between := ended
    exact stopsAt_start
  · dsimp only at rest
    split at rest
    · exact stopsAt_of_passes_savePages honest renames apart (areManaged_assetPages request) rest
    · obtain rfl : files = between := rest
      exact stopsAt_start

/-- However often a save of the settings or of the rules is tried, and wherever each try stops,
between two calls or in the middle of a write, and whichever of its calls have failed: some
first pages are whole in their files, the files of the others are as they were, and the main
configuration is as it was unless every page is in its file. -/
theorem stopsAt_of_attempts (honest : HonestReads allowed) (renames : KeepsRenames allowed)
    (apart : ConfigApart configFile rulesDir)
    (terminated : IsTerminated (textAt files configFile))
    (free : ¬ managedEnd <:+: managedConfDir rulesDir) :
    (∀ request, Relation.ReflTransGen
        ((saveBeginnerConfig configFile rulesDir request).Passes allowed) files between →
      StopsAt configFile rulesDir (renderedPages request) files between) ∧
    ∀ request, Relation.ReflTransGen
        ((saveManagedAssets configFile rulesDir request).Passes allowed) files between →
      StopsAt configFile rulesDir (assetPages request) files between := by
  constructor
  · intro request
    apply StopsAt.run terminated free
    exact fun _ _ => stopsAt_of_saveBeginnerConfig honest renames apart
  · intro request
    apply StopsAt.run terminated free
    exact fun _ _ => stopsAt_of_saveManagedAssets honest renames apart

/-- Any call can fail, and leave anything where it was writing. -/
def CanFail (_ : Call) (fault : Option Fault) : Prop := ∀ some, fault = .some some → some.kind = .other

theorem honestReads_canFail : HonestReads CanFail := by
  intro path fault met
  rw [met fault rfl]
  decide

theorem keepsRenames_canFail : KeepsRenames CanFail := by
  intro source target fault met
  rw [met fault rfl]
  decide

theorem canFail_none (request : Call) : CanFail request none := nofun

theorem configApart_example : ConfigApart "/etc/smartdns.conf" "/etc/smartdns/rules" := by
  have apart : ∀ name ∈ managedFileNames,
      ("/etc/smartdns.conf" : Text) ≠ managedPath "/etc/smartdns/rules" name ∧
        ("/etc/smartdns.conf" : Text) ≠ temporaryPath (managedPath "/etc/smartdns/rules" name) ∧
        ("/etc/smartdns.conf" : Text) ≠ backupPath (managedPath "/etc/smartdns/rules" name) := by
    decide
  exact fun name managed => ⟨(apart name managed).1, (apart name managed).2.1,
    (apart name managed).2.2⟩

theorem not_infix_managedConfDir : ¬ managedEnd <:+: managedConfDir "/etc/smartdns/rules" := by
  rw [← splitAtFirst_eq_none_iff]
  decide

/-- The files after a first save was stopped behind its tenth call. -/
def stoppedFiles : FileSystem :=
  (saveBeginnerConfig "/etc/smartdns.conf" "/etc/smartdns/rules" (plainRequest [])).stopped 10
    fun _ => none

theorem attempt_stoppedFiles :
    Relation.ReflTransGen ((saveBeginnerConfig "/etc/smartdns.conf" "/etc/smartdns/rules"
      (plainRequest [])).Passes CanFail) (fun _ => none) stoppedFiles :=
  .single (passes_stopped canFail_none 10 _ _)

theorem stopsAt_of_attempts_example :
    StopsAt "/etc/smartdns.conf" "/etc/smartdns/rules" (renderedPages (plainRequest []))
      (fun _ => none) stoppedFiles := by
  have saves := @stopsAt_of_attempts CanFail _ _ (fun _ => none) stoppedFiles honestReads_canFail
    keepsRenames_canFail configApart_example (isTerminated_none _) not_infix_managedConfDir
  exact saves.1 _ attempt_stoppedFiles

/-! ### The try that is not disturbed -/

theorem StopsAt.readable (stops : StopsAt configFile rulesDir pages files between)
    (readable : ReadablePages rulesDir pages files) : ReadablePages rulesDir pages between := by
  obtain ⟨finished, rest, rfl, ⟨holds, same⟩, -⟩ := stops
  intro page among
  rcases List.mem_append.mp among with done | left
  · exact holds.readable page done
  · rw [isReadableAt_congr (same page left)]
    exact readable page among

theorem StopsAt.main_readable (stops : StopsAt configFile rulesDir pages files between)
    (readable : IsReadableAt files configFile) : IsReadableAt between configFile := by
  obtain ⟨finished, rest, rfl, -, kept | ⟨-, replaced⟩⟩ := stops
  · rwa [isReadableAt_congr kept]
  · exact (holds_of_text replaced).2

theorem StopsAt.ensureManagedBlock (stops : StopsAt configFile rulesDir pages files between)
    (terminated : IsTerminated (textAt files configFile))
    (free : ¬ managedEnd <:+: managedConfDir rulesDir) :
    ensureManagedBlock (textAt between configFile) rulesDir =
      ensureManagedBlock (textAt files configFile) rulesDir := by
  obtain ⟨finished, rest, rfl, -, kept | ⟨-, replaced⟩⟩ := stops
  · rw [textAt_congr kept]
  · rw [(holds_of_text replaced).1, ensureManagedBlock_of_isTerminated free terminated]

/-- After any number of tries that stopped somewhere, an undisturbed try of the same save
succeeds, and leaves in the managed files and in the main configuration the texts that one
undisturbed save would have left. -/
theorem completes_after_attempts (honest : HonestReads allowed) (renames : KeepsRenames allowed)
    (apart : ConfigApart configFile rulesDir)
    (terminated : IsTerminated (textAt files configFile))
    (free : ¬ managedEnd <:+: managedConfDir rulesDir) {request : SaveConfigRequest}
    (accepted : (validateBeginnerConfig request.beginner request.rulesText).ok = true)
    (pages : ReadablePages rulesDir (renderedPages request) files)
    (main : IsReadableAt files configFile)
    (attempts : Relation.ReflTransGen
      ((saveBeginnerConfig configFile rulesDir request).Passes allowed) files between)
    {outcome : Except ErrorKind ValidationResult}
    (last : (saveBeginnerConfig configFile rulesDir request).Gives RejectsRenames between outcome
      later) :
    outcome = .ok (validateBeginnerConfig request.beginner request.rulesText) ∧
      (∀ page ∈ renderedPages request, textAt later (managedPath rulesDir page.1) = page.2) ∧
      textAt later configFile = ensureManagedBlock (textAt files configFile) rulesDir := by
  have stops := StopsAt.run terminated free
    (fun _ _ => stopsAt_of_saveBeginnerConfig honest renames apart) attempts
  have readable := stops.readable pages
  have distinct := fun name managed => (apart name managed).not_path
  rcases gives_saveBeginnerConfig accepted last with ⟨can, ok, rfl⟩ | ⟨cannot, -⟩
  · refine ⟨ok, fun page among => (can.holdsPages_savedBy distinct page among).1, ?_⟩
    rw [textAt_savedBy apart, stops.ensureManagedBlock terminated free]
  · refine absurd ⟨readable, ?_⟩ cannot
    exact isReadableAt_savedPages (areManaged_renderedPages request) readable
      (stops.main_readable main)

theorem completes_after_attempts_example :
    textAt ((saveBeginnerConfig "/etc/smartdns.conf" "/etc/smartdns/rules"
        (plainRequest [])).execute stoppedFiles).2 "/etc/smartdns.conf" =
      ensureManagedBlock [] "/etc/smartdns/rules" := by
  have undisturbed : ∀ request, RejectsRenames request none := fun _ => .inl rfl
  have completes := @completes_after_attempts CanFail _ _ (fun _ => none) stoppedFiles _
    honestReads_canFail keepsRenames_canFail configApart_example (isTerminated_none _)
    not_infix_managedConfDir (plainRequest []) (plainRequest_accepted [])
    (fun _ _ => isTextual_none _) (isTextual_none _) attempt_stoppedFiles _
    (gives_execute undisturbed _ stoppedFiles)
  exact completes.2.2

end

end SmartDnsPlusUi
