import SmartDnsPlusUi.Config.RepeatedSave
import SmartDnsPlusUi.Files.Interleaving

/-!
# Two saves at once

Nothing keeps two saves apart.  They share the name of the temporary file of each page, so
that the rename of one save can find the temporary file gone or with the text of the other
save in it, and the pages can come from different saves.  Where one save stays behind the
other, on the files that the other one is through with, the pages are all of one save.
-/

namespace SmartDnsPlusUi

open Files Run Text

section Saves

variable {configFile rulesDir : Text} {requests : Party → SaveConfigRequest} {files : FileSystem}

/-- Two saves about to start. -/
def saves (configFile rulesDir : Text) (requests : Party → SaveConfigRequest)
    (files : FileSystem) : Interleaving (Except ErrorKind ValidationResult) where
  program := fun party => saveBeginnerConfig configFile rulesDir (requests party)
  files

/-- Both saves succeed and the pages are all of one of them. -/
structure Serialised (rulesDir : Text) (requests : Party → SaveConfigRequest)
    (final : Interleaving (Except ErrorKind ValidationResult)) : Prop where
  succeed : ∀ party, ∃ validation, final.program party = .done (.ok validation)
  pages : ∃ party, HoldsPages rulesDir (renderedPages (requests party)) final.files

theorem execute_of_canSave {request : SaveConfigRequest}
    (accepted : (validateBeginnerConfig request.beginner request.rulesText).ok = true)
    (can : CanSave configFile rulesDir request files) :
    ((saveBeginnerConfig configFile rulesDir request).execute files).1 =
      .ok (validateBeginnerConfig request.beginner request.rulesText) := by
  have undisturbed : ∀ request, Program.RejectsRenames request none := fun _ => Or.inl rfl
  rcases gives_saveBeginnerConfig accepted (Program.gives_execute undisturbed _ files) with
    ⟨-, ok, -⟩ | ⟨cannot, -⟩
  · exact ok
  · exact absurd can cannot

theorem canSave_of_execute {request : SaveConfigRequest} {validation : ValidationResult}
    (accepted : (validateBeginnerConfig request.beginner request.rulesText).ok = true)
    (succeeds : ((saveBeginnerConfig configFile rulesDir request).execute files).1 =
      .ok validation) : CanSave configFile rulesDir request files := by
  have undisturbed : ∀ request, Program.RejectsRenames request none := fun _ => Or.inl rfl
  have gives := Program.gives_execute undisturbed
    (saveBeginnerConfig configFile rulesDir request) files
  rcases gives_saveBeginnerConfig accepted gives with ⟨can, -, -⟩ | ⟨-, fails⟩
  · exact can
  · rw [succeeds] at fails
    cases fails

/-- Two accepted saves, each of which would succeed alone, of which one stays behind the
other: both succeed, and the pages are those of the one behind. -/
theorem saves_serialised {turns : List Turn}
    {final : Interleaving (Except ErrorKind ValidationResult)} {leader : Party}
    (accepted : ∀ party, (validateBeginnerConfig (requests party).beginner
      (requests party).rulesText).ok = true)
    (alone : ∀ party, ∃ validation,
      ((saveBeginnerConfig configFile rulesDir (requests party)).execute files).1 =
        .ok validation)
    (runs : run interleave (saves configFile rulesDir requests files) turns = some final)
    (finished : ∀ party, ∃ outcome, final.program party = .done outcome)
    (met : Throughout interleave (Meets Program.RejectsRenames)
      (saves configFile rulesDir requests files) turns)
    (distinct : ∀ name ∈ managedFileNames, configFile ≠ managedPath rulesDir name)
    (follows : Throughout interleave (Follows leader)
      (saves configFile rulesDir requests files) turns) :
    Serialised rulesDir requests final := by
  obtain ⟨lead, led⟩ := finished leader
  obtain ⟨follow, followed⟩ := finished leader.other
  obtain ⟨between, leads, later⟩ := interleaving_serial runs met follows led followed
  obtain ⟨validation, succeeds⟩ := alone leader
  have can := canSave_of_execute (accepted leader) succeeds
  rcases gives_saveBeginnerConfig (accepted leader) leads with ⟨-, leadOk, rfl⟩ | ⟨cannot, -⟩
  · have canFollow := can.canSave_savedBy distinct (requests leader.other)
    rcases gives_saveBeginnerConfig (accepted leader.other) later with
      ⟨-, followOk, same⟩ | ⟨cannot, -⟩
    · constructor
      · intro party
        by_cases leading : party = leader
        · subst leading
          exact ⟨_, led.trans (congrArg _ leadOk)⟩
        · have following : party = leader.other := by
            revert leading
            cases party <;> cases leader <;> decide
          subst following
          exact ⟨_, followed.trans (congrArg _ followOk)⟩
      · refine ⟨leader.other, ?_⟩
        rw [same]
        exact canFollow.holdsPages_savedBy distinct
    · exact absurd canFollow cannot
  · exact absurd can cannot

end Saves

/-! ### Saves that overlap -/

/-- The first save has written its temporary file when the second one writes the same file
and renames it. -/
def overlappingTurns : List Turn :=
  List.replicate 4 { party := .first } ++ (List.replicate 5 { party := .second } ++
    List.replicate 2 { party := .first })

/-- Whatever the two texts of the page are, the rename of the first save finds nothing. -/
theorem overlapping_fails {Value : Type} {path directory : Text} {content : Party → Text}
    {next : Party → Unit → Program (Except ErrorKind Value)}
    {state : Interleaving (Except ErrorKind Value)}
    (opens : ∀ party, state.program party =
      (writeTextWithBackupIfChanged path (content party)).proceed (next party))
    (inDirectory : parent path = some directory) (missing : state.files path = none)
    (nonempty : ∀ party, content party ≠ []) :
    ∃ middle, run interleave state overlappingTurns = some middle ∧
      middle.program .first = .done (.error .notFound) := by
  obtain ⟨program, files⟩ := state
  cases funext opens
  replace missing : files path = none := missing
  have apart := temporaryPath_ne path
  have fresh := fun party => (nonempty party).symm
  unfold overlappingTurns
  rw [run_append, run_replicate (by
    simp [writeTextWithBackupIfChanged, readTextOrDefault, writeTextAtomic, createParent,
      Program.proceed, Program.bind, Program.advance, perform, missing, fresh, inDirectory]
    exact ⟨rfl, rfl⟩), Option.bind_some]
  rw [run_append, run_replicate (by
    simp [Interleaving.moved, writeTextWithBackupIfChanged, readTextOrDefault, writeTextAtomic,
      createParent, Program.proceed, Program.bind, Program.advance, perform, missing, fresh,
      inDirectory, apart.symm]
    exact ⟨rfl, rfl⟩), Option.bind_some]
  rw [run_replicate (by
    simp [Interleaving.moved, Program.proceed, Program.bind, Program.advance, perform, apart]
    exact ⟨rfl, rfl⟩)]
  exact ⟨_, rfl, rfl⟩

/-- A save begins with the service page. -/
theorem saveBeginnerConfig_eq (configFile rulesDir : Text) {request : SaveConfigRequest}
    (accepted : (validateBeginnerConfig request.beginner request.rulesText).ok = true) :
    ∃ next, saveBeginnerConfig configFile rulesDir request =
      (writeTextWithBackupIfChanged (managedPath rulesDir serviceFileName)
        (renderServiceConfig request.beginner)).proceed next := by
  unfold saveBeginnerConfig
  rw [if_pos accepted]
  exact ⟨_, Program.proceed_assoc _ _ _⟩

/-- Two saves with different server names, as when a change is saved automatically and at
once by hand. -/
def namedRequests : Party → SaveConfigRequest
  | .first => plainRequest "a"
  | .second => plainRequest "b"

theorem namedRequests_accepted (party : Party) :
    (validateBeginnerConfig (namedRequests party).beginner
      (namedRequests party).rulesText).ok = true := by
  cases party with
  | first => exact plainRequest_accepted "a"
  | second => exact plainRequest_accepted "b"

theorem namedRequests_alone (party : Party) :
    ∃ validation, ((saveBeginnerConfig "/etc/smartdns.conf" "/etc/smartdns/rules"
      (namedRequests party)).execute fun _ => none).1 = .ok validation :=
  ⟨_, execute_of_canSave (namedRequests_accepted party) (isTextual_none.canSave _ _ _)⟩

theorem distinct_smartdns : ∀ name ∈ managedFileNames,
    ("/etc/smartdns.conf" : Text) ≠ managedPath "/etc/smartdns/rules" name := by
  decide

/-- One save after the other. -/
theorem saves_serialised_example :
    ∃ turns final,
      run interleave (saves "/etc/smartdns.conf" "/etc/smartdns/rules" namedRequests
        fun _ => none) turns = some final ∧
      Serialised "/etc/smartdns/rules" namedRequests final := by
  obtain ⟨turns, middle, first, runs, ⟨lead, led⟩, -⟩ :=
    exists_finish (saves "/etc/smartdns.conf" "/etc/smartdns/rules" namedRequests
      fun _ => none) .first
  obtain ⟨later, final, second, ends, followed, kept⟩ := exists_finish middle .second
  have runsOn : run interleave (saves "/etc/smartdns.conf" "/etc/smartdns/rules" namedRequests
      fun _ => none) (turns ++ later) = some final := by
    rw [run_append, runs]
    exact ends
  have quiet : ∀ turn ∈ turns ++ later, turn.fault = none := by
    intro turn membership
    rcases List.mem_append.mp membership with inFirst | inSecond
    · rw [first turn inFirst]
    · rw [second turn inSecond]
  refine ⟨_, final, runsOn, ?_⟩
  refine saves_serialised namedRequests_accepted namedRequests_alone runsOn ?_
    (meets_of_undisturbed (fun _ => Or.inl rfl) quiet _) distinct_smartdns
    (throughout_append runs (follows_of_leading (fun turn inFirst => by rw [first turn inFirst]) _)
      (follows_of_done led))
  rintro (_ | _)
  · exact ⟨lead, kept.trans led⟩
  · exact followed

/-- Saves that overlap on the first page of a new directory: one of them fails. -/
theorem not_saves_serialised :
    ¬ ∀ (configFile rulesDir : Text) (requests : Party → SaveConfigRequest) (files : FileSystem)
        (turns : List Turn) (final : Interleaving (Except ErrorKind ValidationResult)),
      (∀ party, (validateBeginnerConfig (requests party).beginner
        (requests party).rulesText).ok = true) →
      (∀ party, ∃ validation,
        ((saveBeginnerConfig configFile rulesDir (requests party)).execute files).1 =
          .ok validation) →
      run interleave (saves configFile rulesDir requests files) turns = some final →
      (∀ party, ∃ outcome, final.program party = .done outcome) →
      Throughout interleave (Meets Program.RejectsRenames)
        (saves configFile rulesDir requests files) turns →
      (∀ name ∈ managedFileNames, configFile ≠ managedPath rulesDir name) →
      Serialised rulesDir requests final := by
  intro serialised
  have opens := fun party => saveBeginnerConfig_eq "/etc/smartdns.conf" "/etc/smartdns/rules"
    (namedRequests_accepted party)
  choose next opens using opens
  have nonempty : ∀ party, renderServiceConfig (namedRequests party).beginner ≠ [] := by
    rintro (_ | _) <;> decide +kernel
  obtain ⟨middle, runs, failed⟩ := @overlapping_fails _ _ "/etc/smartdns/conf.d" _ next
    (saves "/etc/smartdns.conf" "/etc/smartdns/rules" namedRequests fun _ => none) opens
    (by decide) rfl nonempty
  obtain ⟨later, final, second, ends, followed, kept⟩ := exists_finish middle .second
  have quiet : ∀ turn ∈ overlappingTurns ++ later, turn.fault = none := by
    intro turn membership
    rcases List.mem_append.mp membership with inFirst | inSecond
    · revert inFirst
      simp only [overlappingTurns, List.mem_append, List.mem_replicate]
      rintro (⟨-, rfl⟩ | ⟨-, rfl⟩ | ⟨-, rfl⟩) <;> rfl
    · rw [second turn inSecond]
  have failedStill : final.program .first = .done (.error .notFound) := kept.trans failed
  have all := serialised _ _ namedRequests _ (overlappingTurns ++ later) final
    namedRequests_accepted namedRequests_alone (by rw [run_append, runs]; exact ends)
    (by rintro (_ | _); exacts [⟨_, failedStill⟩, followed])
    (meets_of_undisturbed (fun _ => Or.inl rfl) quiet _) distinct_smartdns
  obtain ⟨validation, succeeded⟩ := all.succeed .first
  rw [failedStill] at succeeded
  cases succeeded

end SmartDnsPlusUi
