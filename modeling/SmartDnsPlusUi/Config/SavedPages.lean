import SmartDnsPlusUi.Config.SaveFiles

/-!
# What a save does

A save that meets unreadable files fails; any other save puts every page into its file
and the managed block into the main configuration, whether renames are rejected or not.
-/

namespace SmartDnsPlusUi

open Files Text

/-! ### The managed files of a save -/

/-- The file system after undisturbed writes of the pages. -/
def savedPages (rulesDir : Text) : List (Text × Text) → FileSystem → FileSystem
  | [], files => files
  | (name, content) :: rest, files =>
      savedPages rulesDir rest (saved (managedPath rulesDir name) content files)

def ReadablePages (rulesDir : Text) (pages : List (Text × Text)) (files : FileSystem) : Prop :=
  ∀ page ∈ pages, IsReadableAt files (managedPath rulesDir page.1)

/-- Every page is in its file. -/
def HoldsPages (rulesDir : Text) (pages : List (Text × Text)) (files : FileSystem) : Prop :=
  ∀ page ∈ pages, textAt files (managedPath rulesDir page.1) = page.2 ∧
    IsReadableAt files (managedPath rulesDir page.1)

/-- The pages are of different managed files. -/
structure AreManaged (pages : List (Text × Text)) : Prop where
  managed : ∀ page ∈ pages, page.1 ∈ managedFileNames
  distinct : (pages.map Prod.fst).Nodup

section Pages

variable {rulesDir : Text} {pages : List (Text × Text)} {files after : FileSystem}

theorem HoldsPages.readable (holds : HoldsPages rulesDir pages files) :
    ReadablePages rulesDir pages files :=
  fun page membership => (holds page membership).2

theorem AreManaged.tail {page : Text × Text} (areManaged : AreManaged (page :: pages)) :
    AreManaged pages :=
  ⟨(List.forall_mem_cons.mp areManaged.managed).2, (List.nodup_cons.mp areManaged.distinct).2⟩

theorem AreManaged.apart {page : Text × Text} (areManaged : AreManaged (page :: pages))
    (rulesDir : Text) : ∀ other ∈ pages,
      ApartFrom (managedPath rulesDir page.1) (managedPath rulesDir other.1) ∧
        ApartFrom (managedPath rulesDir other.1) (managedPath rulesDir page.1) := by
  intro other membership
  obtain ⟨managed, others⟩ := List.forall_mem_cons.mp areManaged.managed
  have different : page.1 ≠ other.1 := by
    intro same
    refine (List.nodup_cons.mp areManaged.distinct).1 ?_
    exact List.mem_map.mpr ⟨other, membership, same.symm⟩
  exact ⟨apartFrom_managedPath managed (others other membership) different,
    apartFrom_managedPath (others other membership) managed different.symm⟩

/-- Writing one page leaves the other pages as readable as they were. -/
theorem readablePages_saved {page : Text × Text} (areManaged : AreManaged (page :: pages)) :
    ReadablePages rulesDir pages (saved (managedPath rulesDir page.1) page.2 files) ↔
      ReadablePages rulesDir pages files := by
  refine forall₂_congr fun other membership => isReadableAt_congr ?_
  have apart := (areManaged.apart rulesDir other membership).2
  exact saved_other apart.not_path apart.not_temporary apart.not_backup

theorem gives_writePages (areManaged : AreManaged pages) {result : Except ErrorKind Unit}
    (gives : (writePages rulesDir pages).Gives Program.RejectsRenames files result after) :
    (ReadablePages rulesDir pages files ∧ result = .ok () ∧
        after = savedPages rulesDir pages files) ∨
      (¬ ReadablePages rulesDir pages files ∧ result = .error .invalidData) := by
  induction pages generalizing files with
  | nil => exact Or.inl ⟨nofun, gives.1.symm, gives.2.symm⟩
  | cons page rest inductionHypothesis =>
      have split : ReadablePages rulesDir (page :: rest) files ↔
          IsReadableAt files (managedPath rulesDir page.1) ∧ ReadablePages rulesDir rest files :=
        List.forall_mem_cons
      have located := parentOrHere_managedPath rulesDir
        (areManaged.managed page List.mem_cons_self)
      rcases Program.gives_proceed gives with ⟨_, between, first, later⟩ | ⟨kind, failed, rfl⟩
      · rcases gives_writeTextWithBackupIfChanged located first with
          ⟨readable, -, rfl⟩ | ⟨-, impossible, -⟩
        · rw [split, and_iff_right readable, ← readablePages_saved areManaged]
          exact inductionHypothesis areManaged.tail later
        · cases impossible
      · rcases gives_writeTextWithBackupIfChanged located failed with
          ⟨-, impossible, -⟩ | ⟨unreadable, same, -⟩
        · cases impossible
        · cases same
          exact Or.inr ⟨fun readable => unreadable (split.mp readable).1, rfl⟩

theorem savedPages_other {path : Text}
    (apart : ∀ page ∈ pages, ApartFrom path (managedPath rulesDir page.1)) :
    savedPages rulesDir pages files path = files path := by
  induction pages generalizing files with
  | nil => rfl
  | cons page rest inductionHypothesis =>
      obtain ⟨first, later⟩ := List.forall_mem_cons.mp apart
      refine (inductionHypothesis later).trans ?_
      exact saved_other first.not_path first.not_temporary first.not_backup

/-- A file that is no page and no backup of one stays, unless it is in the place of a
temporary file. -/
theorem savedPages_other_or_none {path : Text}
    (apart : ∀ page ∈ pages, path ≠ managedPath rulesDir page.1 ∧
      path ≠ backupPath (managedPath rulesDir page.1)) :
    savedPages rulesDir pages files path = files path ∨
      savedPages rulesDir pages files path = none := by
  induction pages generalizing files with
  | nil => exact Or.inl rfl
  | cons page rest inductionHypothesis =>
      obtain ⟨first, later⟩ := List.forall_mem_cons.mp apart
      rcases @inductionHypothesis (saved (managedPath rulesDir page.1) page.2 files) later
        with kept | gone
      · rcases saved_other_or_none first.1 first.2 with before | before
        · exact Or.inl (kept.trans before)
        · exact Or.inr (kept.trans before)
      · exact Or.inr gone

theorem holdsPages_savedPages (areManaged : AreManaged pages)
    (readable : ReadablePages rulesDir pages files) :
    HoldsPages rulesDir pages (savedPages rulesDir pages files) := by
  induction pages generalizing files with
  | nil => exact nofun
  | cons page rest inductionHypothesis =>
      obtain ⟨now, later⟩ := List.forall_mem_cons.mp readable
      refine List.forall_mem_cons.mpr ⟨?_, ?_⟩
      · have kept := @savedPages_other rulesDir rest
          (saved (managedPath rulesDir page.1) page.2 files) (managedPath rulesDir page.1)
          fun other membership => (areManaged.apart rulesDir other membership).1
        constructor
        · exact (textAt_congr kept).trans textAt_saved
        · exact (isReadableAt_congr kept).mpr (isReadableAt_saved now)
      · exact inductionHypothesis areManaged.tail ((readablePages_saved areManaged).mpr later)

/-- Pages that are in their files are not written again. -/
theorem savedPages_of_holdsPages (holds : HoldsPages rulesDir pages files) :
    savedPages rulesDir pages files = files := by
  induction pages with
  | nil => rfl
  | cons page rest inductionHypothesis =>
      obtain ⟨⟨same, -⟩, restHolds⟩ := List.forall_mem_cons.mp holds
      exact (congrArg _ (saved_of_text same)).trans (inductionHypothesis restHolds)

/-- A file that can be read stays so, for only texts come to be written or backed up. -/
theorem isReadableAt_savedPages (areManaged : AreManaged pages)
    (readablePages : ReadablePages rulesDir pages files) {path : Text}
    (readable : IsReadableAt files path) :
    IsReadableAt (savedPages rulesDir pages files) path := by
  induction pages generalizing files with
  | nil => exact readable
  | cons page rest inductionHypothesis =>
      obtain ⟨now, later⟩ := List.forall_mem_cons.mp readablePages
      exact inductionHypothesis areManaged.tail ((readablePages_saved areManaged).mpr later)
        (isReadableAt_saved_other now readable)

theorem map_fst_renderedPages (request : SaveConfigRequest) :
    ((renderedPages request).map Prod.fst).Perm managedFileNames := by
  simp only [renderedPages, List.map_cons, List.map_nil, managedFileNames]
  decide

theorem areManaged_renderedPages (request : SaveConfigRequest) :
    AreManaged (renderedPages request) := by
  constructor
  · intro page membership
    exact (map_fst_renderedPages request).subset (List.mem_map_of_mem membership)
  · exact (map_fst_renderedPages request).nodup_iff.mpr (by decide)

/-- Which pages there are does not depend on the request. -/
theorem readablePages_renderedPages (request : SaveConfigRequest) :
    ReadablePages rulesDir (renderedPages request) files ↔
      ∀ name ∈ managedFileNames, IsReadableAt files (managedPath rulesDir name) := by
  have names : ∀ name, name ∈ (renderedPages request).map Prod.fst ↔ name ∈ managedFileNames :=
    fun _ => (map_fst_renderedPages request).mem_iff
  simp only [← names, List.forall_mem_map]
  rfl

end Pages

/-! ### The whole save -/

section Save

variable {configFile rulesDir : Text} {request : SaveConfigRequest} {files after : FileSystem}

/-- The save meets no file that is not a text. -/
structure CanSave (configFile rulesDir : Text) (request : SaveConfigRequest)
    (files : FileSystem) : Prop where
  pages : ReadablePages rulesDir (renderedPages request) files
  main : IsReadableAt (savedPages rulesDir (renderedPages request) files) configFile

/-- The file system after an undisturbed save. -/
def savedBy (configFile rulesDir : Text) (request : SaveConfigRequest) (files : FileSystem) :
    FileSystem :=
  mainSaved configFile rulesDir (savedPages rulesDir (renderedPages request) files)

/-- An accepted save does all of its work, or fails for a file that it cannot read. -/
theorem gives_saveBeginnerConfig {outcome : Except ErrorKind ValidationResult}
    (accepted : (validateBeginnerConfig request.beginner request.rulesText).ok = true)
    (gives : (saveBeginnerConfig configFile rulesDir request).Gives Program.RejectsRenames files
      outcome after) :
    (CanSave configFile rulesDir request files ∧
        outcome = .ok (validateBeginnerConfig request.beginner request.rulesText) ∧
        after = savedBy configFile rulesDir request files) ∨
      (¬ CanSave configFile rulesDir request files ∧ outcome = .error .invalidData) := by
  have areManaged := areManaged_renderedPages request
  unfold saveBeginnerConfig at gives
  rw [if_pos accepted] at gives
  rcases Program.gives_proceed gives with ⟨_, between, first, later⟩ | ⟨kind, failed, rfl⟩
  · rcases gives_writePages areManaged first with ⟨pages, -, rfl⟩ | ⟨-, impossible⟩
    · rcases Program.gives_proceed later with ⟨_, last, main, finished⟩ | ⟨kind, failed, rfl⟩
      · rcases gives_applyWorkingConfig main with ⟨readable, -, rfl⟩ | ⟨-, impossible, -⟩
        · exact Or.inl ⟨⟨pages, readable⟩, finished.1.symm, finished.2.symm⟩
        · cases impossible
      · rcases gives_applyWorkingConfig failed with ⟨-, impossible, -⟩ | ⟨unreadable, same, -⟩
        · cases impossible
        · cases same
          exact Or.inr ⟨fun can => unreadable can.main, rfl⟩
    · cases impossible
  · rcases gives_writePages areManaged failed with ⟨-, impossible, -⟩ | ⟨unreadable, same⟩
    · cases impossible
    · cases same
      exact Or.inr ⟨fun can => unreadable can.pages, rfl⟩

/-- A rejected save does nothing. -/
theorem gives_saveBeginnerConfig_of_rejected {outcome : Except ErrorKind ValidationResult}
    (rejected : ¬ (validateBeginnerConfig request.beginner request.rulesText).ok = true)
    (gives : (saveBeginnerConfig configFile rulesDir request).Gives Program.RejectsRenames files
      outcome after) :
    outcome = .ok (validateBeginnerConfig request.beginner request.rulesText) ∧
      after = files := by
  unfold saveBeginnerConfig at gives
  rw [if_neg rejected] at gives
  exact ⟨gives.1.symm, gives.2.symm⟩

/-- The main configuration does not disturb the pages. -/
theorem HoldsPages.mainSaved (holds : HoldsPages rulesDir (renderedPages request) files)
    (distinct : ∀ name ∈ managedFileNames, configFile ≠ managedPath rulesDir name) :
    HoldsPages rulesDir (renderedPages request) (mainSaved configFile rulesDir files) := by
  intro page membership
  have managed := (areManaged_renderedPages request).managed page membership
  have kept : SmartDnsPlusUi.mainSaved configFile rulesDir files (managedPath rulesDir page.1) =
      files (managedPath rulesDir page.1) := by
    refine mainSaved_other (distinct page.1 managed).symm fun same => ?_
    have last := getLast?_managedPath rulesDir managed
    rw [same, getLast?_temporaryPath] at last
    exact absurd last (by decide)
  obtain ⟨text, readable⟩ := holds page membership
  exact ⟨(textAt_congr kept).trans text, (isReadableAt_congr kept).mpr readable⟩

theorem textAt_savedBy
    (apart : ∀ name ∈ managedFileNames, ApartFrom configFile (managedPath rulesDir name)) :
    textAt (savedBy configFile rulesDir request files) configFile =
      ensureManagedBlock (textAt files configFile) rulesDir := by
  have kept : savedPages rulesDir (renderedPages request) files configFile = files configFile := by
    apply savedPages_other
    intro page membership
    exact apart page.1 ((areManaged_renderedPages request).managed page membership)
  rw [savedBy, textAt_mainSaved, textAt_congr kept]

/-- After a save every page is in its file. -/
theorem CanSave.holdsPages_savedBy (can : CanSave configFile rulesDir request files)
    (distinct : ∀ name ∈ managedFileNames, configFile ≠ managedPath rulesDir name) :
    HoldsPages rulesDir (renderedPages request) (savedBy configFile rulesDir request files) :=
  (holdsPages_savedPages (areManaged_renderedPages request) can.pages).mainSaved distinct

/-- After a save another one finds readable files. -/
theorem CanSave.canSave_savedBy (can : CanSave configFile rulesDir request files)
    (distinct : ∀ name ∈ managedFileNames, configFile ≠ managedPath rulesDir name)
    (other : SaveConfigRequest) :
    CanSave configFile rulesDir other (savedBy configFile rulesDir request files) := by
  have readable := (readablePages_renderedPages request).mp (can.holdsPages_savedBy distinct).readable
  have pages := (readablePages_renderedPages other).mpr readable
  exact ⟨pages, isReadableAt_savedPages (areManaged_renderedPages other) pages
    (isReadableAt_mainSaved can.main)⟩

/-! ### File systems of texts -/

/-- Every file is a text. -/
def IsTextual (files : FileSystem) : Prop := ∀ path, IsReadableAt files path

theorem IsTextual.canSave (textual : IsTextual files) (configFile rulesDir : Text)
    (request : SaveConfigRequest) : CanSave configFile rulesDir request files := by
  have pages : ReadablePages rulesDir (renderedPages request) files := fun _ _ => textual _
  exact ⟨pages, isReadableAt_savedPages (areManaged_renderedPages request) pages (textual _)⟩

end Save

end SmartDnsPlusUi
