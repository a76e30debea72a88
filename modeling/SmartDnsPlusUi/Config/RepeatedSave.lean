import SmartDnsPlusUi.Config.SavedPages

/-!
# Saving twice

After a save every managed file holds what the save wrote, and the main configuration
has the managed block in place, so that the same save again finds nothing to write.
-/

namespace SmartDnsPlusUi

open Files Text

section Save

variable {configFile rulesDir : Text} {request : SaveConfigRequest} {files after : FileSystem}

/-- The main configuration is apart from the managed files and their backups. -/
def IsApartConfig (configFile rulesDir : Text) : Prop :=
  ∀ name ∈ managedFileNames, configFile ≠ managedPath rulesDir name ∧
    configFile ≠ backupPath (managedPath rulesDir name)

theorem isTerminated_nil : IsTerminated [] := by
  intro before rest opened
  simp [splitAtFirst, managedBegin_ne_nil] at opened

theorem savedPages_configFile (apart : IsApartConfig configFile rulesDir) :
    savedPages rulesDir (renderedPages request) files configFile = files configFile ∨
      savedPages rulesDir (renderedPages request) files configFile = none :=
  savedPages_other_or_none fun page membership =>
    apart page.1 ((areManaged_renderedPages request).managed page membership)

theorem textAt_savedPages_of_none (apart : IsApartConfig configFile rulesDir)
    (none : files configFile = none) :
    textAt (savedPages rulesDir (renderedPages request) files) configFile = [] := by
  have gone : savedPages rulesDir (renderedPages request) files configFile = Option.none := by
    rcases savedPages_configFile apart with kept | gone
    · exact kept.trans none
    · exact gone
  unfold textAt
  rw [gone]

theorem isTerminated_savedPages (apart : IsApartConfig configFile rulesDir)
    (terminated : IsTerminated (textAt files configFile)) :
    IsTerminated (textAt (savedPages rulesDir (renderedPages request) files) configFile) := by
  rcases savedPages_configFile apart with kept | gone
  · rwa [textAt_congr kept]
  · unfold textAt
    rw [gone]
    exact isTerminated_nil

theorem mainSaved_of_inPlace
    (inPlace : ensureManagedBlock (textAt files configFile) rulesDir = textAt files configFile) :
    mainSaved configFile rulesDir files = files :=
  if_neg (not_not.mpr inPlace)

/-- A second save writes no page; it can only change the main configuration. -/
theorem savedBy_savedBy (can : CanSave configFile rulesDir request files)
    (distinct : ∀ name ∈ managedFileNames, configFile ≠ managedPath rulesDir name) :
    savedBy configFile rulesDir request (savedBy configFile rulesDir request files) =
      mainSaved configFile rulesDir (savedBy configFile rulesDir request files) := by
  rw [savedBy, savedPages_of_holdsPages (can.holdsPages_savedBy distinct)]

/-- Saving the same settings again succeeds and changes no file, where the managed
directory has no end marker in its path: such a marker would end the block at the first
of its lines. -/
theorem saveBeginnerConfig_repeated {validation : ValidationResult} {again : FileSystem}
    {outcome : Except ErrorKind ValidationResult}
    (terminated : IsTerminated (textAt files configFile))
    (free : ¬ managedEnd <:+: managedConfDir rulesDir)
    (apart : IsApartConfig configFile rulesDir)
    (first : (saveBeginnerConfig configFile rulesDir request).Gives Program.RejectsRenames files
      (.ok validation) after)
    (second : (saveBeginnerConfig configFile rulesDir request).Gives Program.RejectsRenames after
      outcome again) :
    outcome = .ok validation ∧ again = after := by
  have distinct := fun name managed => (apart name managed).1
  by_cases accepted : (validateBeginnerConfig request.beginner request.rulesText).ok = true
  · rcases gives_saveBeginnerConfig accepted first with ⟨can, same, rfl⟩ | ⟨-, impossible⟩
    · cases same
      rcases gives_saveBeginnerConfig accepted second with ⟨-, ok, rfl⟩ | ⟨cannot, -⟩
      · refine ⟨ok, (savedBy_savedBy can distinct).trans (mainSaved_of_inPlace ?_)⟩
        unfold savedBy
        rw [textAt_mainSaved]
        exact ensureManagedBlock_of_isTerminated free (isTerminated_savedPages apart terminated)
      · exact absurd (can.canSave_savedBy distinct request) cannot
    · cases impossible
  · obtain ⟨same, rfl⟩ := gives_saveBeginnerConfig_of_rejected accepted first
    cases same
    exact gives_saveBeginnerConfig_of_rejected accepted second

theorem gives_savedBy (can : CanSave configFile rulesDir request files)
    (accepted : (validateBeginnerConfig request.beginner request.rulesText).ok = true) :
    (saveBeginnerConfig configFile rulesDir request).Gives Program.RejectsRenames files
      (.ok (validateBeginnerConfig request.beginner request.rulesText))
      (savedBy configFile rulesDir request files) := by
  have undisturbed : ∀ request, Program.RejectsRenames request none := fun _ => Or.inl rfl
  have gives := Program.gives_execute undisturbed
    (saveBeginnerConfig configFile rulesDir request) files
  rcases gives_saveBeginnerConfig accepted gives with ⟨-, ok, saves⟩ | ⟨cannot, -⟩
  · rwa [ok, saves] at gives
  · exact absurd can cannot

/-- Whatever the files and the settings are, a second save leaves the main configuration as
the first one left it. -/
def RepeatsAlike (configFile rulesDir : Text) : Prop :=
  ∀ (files once twice : FileSystem) (request : SaveConfigRequest) (validation : ValidationResult)
      (outcome : Except ErrorKind ValidationResult),
    IsTerminated (textAt files configFile) →
    (validateBeginnerConfig request.beginner request.rulesText).ok = true →
    (saveBeginnerConfig configFile rulesDir request).Gives Program.RejectsRenames files
      (.ok validation) once →
    (saveBeginnerConfig configFile rulesDir request).Gives Program.RejectsRenames once
      outcome twice →
    textAt twice configFile = textAt once configFile

/-- The second save changes a main configuration in which the block is not in place. -/
theorem not_repeatsAlike (textual : IsTextual files)
    (accepted : (validateBeginnerConfig request.beginner request.rulesText).ok = true)
    (distinct : ∀ name ∈ managedFileNames, configFile ≠ managedPath rulesDir name)
    (terminated : IsTerminated (textAt files configFile)) {text : Text}
    (before : textAt (savedPages rulesDir (renderedPages request) files) configFile = text)
    (changes : ensureManagedBlock (ensureManagedBlock text rulesDir) rulesDir ≠
      ensureManagedBlock text rulesDir) : ¬ RepeatsAlike configFile rulesDir := by
  intro alike
  have can := textual.canSave configFile rulesDir request
  have same := alike files _ _ request _ _ terminated accepted (gives_savedBy can accepted)
    (gives_savedBy (can.canSave_savedBy distinct request) accepted)
  have main : textAt (savedBy configFile rulesDir request files) configFile =
      ensureManagedBlock text rulesDir := by
    rw [savedBy, textAt_mainSaved, before]
  rw [savedBy_savedBy can distinct, textAt_mainSaved, main] at same
  exact changes same

end Save

/-- One upstream server and nothing else, with a name. -/
def plainRequest (serverName : Text) : SaveConfigRequest where
  beginner := { serverName, responseMode := "first-ping", upstreams := [{ value := "1.1.1.1" }] }
  rulesText := []

theorem plainRequest_accepted (serverName : Text) :
    (validateBeginnerConfig (plainRequest serverName).beginner
      (plainRequest serverName).rulesText).ok = true := by
  rfl

theorem isTextual_none : IsTextual fun _ => none := nofun

theorem isTerminated_none (path : Text) : IsTerminated (textAt (fun _ => none) path) :=
  isTerminated_nil

theorem saveBeginnerConfig_repeated_example :
    ∃ once twice validation outcome,
      (saveBeginnerConfig "/etc/smartdns.conf" "/etc/smartdns/rules" (plainRequest [])).Gives
          Program.RejectsRenames (fun _ => none) (.ok validation) once ∧
        (saveBeginnerConfig "/etc/smartdns.conf" "/etc/smartdns/rules" (plainRequest [])).Gives
          Program.RejectsRenames once outcome twice ∧
        outcome = .ok validation ∧ twice = once := by
  have free : ¬ managedEnd <:+: managedConfDir "/etc/smartdns/rules" := by
    rw [← splitAtFirst_eq_none_iff]
    decide
  have apart : IsApartConfig "/etc/smartdns.conf" "/etc/smartdns/rules" := by
    unfold IsApartConfig
    decide
  have can := isTextual_none.canSave "/etc/smartdns.conf" "/etc/smartdns/rules" (plainRequest [])
  have first := gives_savedBy can (plainRequest_accepted [])
  have second := gives_savedBy
    (can.canSave_savedBy (fun name managed => (apart name managed).1) (plainRequest []))
    (plainRequest_accepted [])
  exact ⟨_, _, _, _, first, second,
    saveBeginnerConfig_repeated (isTerminated_none _) free apart first second⟩

/-- The main configuration is the backup of the service page, and that page was an
unterminated begin marker. -/
theorem not_repeatsAlike_of_backup :
    ¬ RepeatsAlike (backupPath (managedPath "/etc/smartdns/rules" serviceFileName))
      "/etc/smartdns/rules" := by
  let page := managedPath "/etc/smartdns/rules" serviceFileName
  have elsewhere : ∀ name ∈ managedFileNames, name ≠ serviceFileName →
      backupPath page ≠ managedPath "/etc/smartdns/rules" name ∧
        backupPath page ≠ temporaryPath (managedPath "/etc/smartdns/rules" name) ∧
        backupPath page ≠ backupPath (managedPath "/etc/smartdns/rules" name) := by
    decide
  have different : backupPath page ≠ page := by decide
  refine @not_repeatsAlike _ _ (plainRequest [])
    (Function.update (fun _ => none) page (some (.text managedBegin)))
    (fun _ => isReadableAt_update (by nofun) (isTextual_none _)) (plainRequest_accepted [])
    (by decide) ?_ managedBegin ?_ (by decide +kernel)
  · have none : Function.update (fun _ => none) page (some (Content.text managedBegin))
        (backupPath page) = none := Function.update_of_ne different _ _
    unfold textAt
    rw [none]
    exact isTerminated_nil
  · have areManaged := areManaged_renderedPages (plainRequest [])
    have shape : renderedPages (plainRequest []) =
        (serviceFileName, renderServiceConfig (plainRequest []).beginner) ::
          (renderedPages (plainRequest [])).tail := rfl
    rw [shape] at areManaged
    rw [shape, savedPages]
    refine (textAt_congr (savedPages_other fun other membership => ?_)).trans ?_
    · have different := (areManaged.apart "/etc/smartdns/rules" other membership).1.not_path
      have apart := elsewhere other.1 (areManaged.tail.managed other membership)
        fun same => different (congrArg _ same.symm)
      exact ⟨apart.1, apart.2.1, apart.2.2⟩
    · have kept := @saved_backup page (renderServiceConfig (plainRequest []).beginner)
        (Function.update (fun _ => none) page (some (.text managedBegin))) (.text managedBegin)
        (Function.update_self _ _ _)
        (by rw [textAt, Function.update_self]; decide +kernel) different (by decide)
      unfold textAt
      rw [kept]

/-- An end marker in the path of the rules directory, for which the second save takes the
first include line, and a main configuration that is the backup of a managed file. -/
theorem not_saveBeginnerConfig_repeated :
    ¬ RepeatsAlike "/etc/smartdns.conf" "/# END smartdns-plus-ui managed/rules" ∧
      ¬ RepeatsAlike (backupPath (managedPath "/etc/smartdns/rules" serviceFileName))
        "/etc/smartdns/rules" := by
  have apart : IsApartConfig "/etc/smartdns.conf" "/# END smartdns-plus-ui managed/rules" := by
    unfold IsApartConfig
    decide
  refine ⟨?_, not_repeatsAlike_of_backup⟩
  refine not_repeatsAlike isTextual_none (plainRequest_accepted [])
    (fun name managed => (apart name managed).1) (isTerminated_none _)
    (textAt_savedPages_of_none apart rfl) ?_
  decide +kernel

end SmartDnsPlusUi
