import SmartDnsPlusUi.Config.Overview
import SmartDnsPlusUi.Config.RepeatedSave
import SmartDnsPlusUi.Config.SteadySettings

/-!
# Loading and saving again and again

A cycle loads the overview and saves the settings and the rules in it as they
are.  The next overview has the same settings when the user's own text adds
nothing to the lists and the pages write every value as it was read; otherwise
entries are repeated, dropped or changed.
-/

namespace SmartDnsPlusUi

open Files Text

/-! ### One cycle -/

/-- The settings and the rules as they were loaded. -/
def ConfigOverview.request (overview : ConfigOverview) : SaveConfigRequest :=
  ⟨overview.beginner, overview.managedRulesText⟩

/-- The overview is valid, and saving it back succeeds. -/
def Cycle (configFile rulesDir : Text) (files after : FileSystem) : Prop :=
  let overview := readOverview (textAt files) configFile rulesDir
  overview.validation.ok = true ∧
    (saveBeginnerConfig configFile rulesDir overview.request).Gives Program.RejectsRenames files
      (.ok overview.validation) after

/-- The user's own directives, before and after the managed block. -/
def ownDirectives (files : FileSystem) (configFile : Text) : List Directive × List Directive :=
  let parts := userParts (textAt files configFile)
  (directives parts.1, directives parts.2)

/-- The settings of the user's own text, before and after the managed block. -/
def ownSettings (files : FileSystem) (configFile : Text) : BeginnerConfig × BeginnerConfig :=
  let parts := userParts (textAt files configFile)
  (parseBeginnerConfig parts.1, parseBeginnerConfig parts.2)

/-- The main configuration is a file of its own, whose markers are those of one block; the
pages write the loaded settings as they were read, and the rules in the form in which they
stay. -/
structure IsSteady (configFile rulesDir : Text) (files : FileSystem) : Prop where
  one_line : '\n' ∉ rulesDir
  no_end : ¬ managedEnd <:+: managedConfDir rulesDir
  apart : ∀ name ∈ managedFileNames, ApartFrom configFile (managedPath rulesDir name)
  terminated : IsTerminated (textAt files configFile)
  no_marker_after : managedBegin ∉ visibleLines (userParts (textAt files configFile)).2
  rules :
    let assets := parseManagedAssetsFromText
      (readOverview (textAt files) configFile rulesDir).managedRulesText
    Reloads assets (parseManagedAssetsFromText (reloadedRulesText assets))
  keeps : ∃ managed,
    loadedDirectives (textAt files) configFile rulesDir =
      (ownDirectives files configFile).1 ++ managed ++ (ownDirectives files configFile).2 ∧
    KeepsSettings (ownDirectives files configFile).1 managed (ownDirectives files configFile).2
      (savedRules (readOverview (textAt files) configFile rulesDir).managedRulesText)

/-- The main configuration is a file of its own, whose markers are those of one block. -/
structure IsOwnConfig (configFile rulesDir : Text) (files : FileSystem) : Prop where
  one_line : '\n' ∉ rulesDir
  no_end : ¬ managedEnd <:+: managedConfDir rulesDir
  apart : ∀ name ∈ managedFileNames, ApartFrom configFile (managedPath rulesDir name)
  terminated : IsTerminated (textAt files configFile)
  no_marker_after : managedBegin ∉ visibleLines (userParts (textAt files configFile)).2

/-! ### What is loaded after a save -/

section

variable {configFile rulesDir : Text} {request : SaveConfigRequest} {files : FileSystem}

theorem readManagedPageTexts_savedBy (can : CanSave configFile rulesDir request files)
    (apart : ∀ name ∈ managedFileNames, ApartFrom configFile (managedPath rulesDir name)) :
    readManagedPageTexts (textAt (savedBy configFile rulesDir request files)) rulesDir =
      savedPageTexts request := by
  have holds := can.holdsPages_savedBy fun name membership => (apart name membership).not_path
  simp only [HoldsPages, renderedPages, List.forall_mem_cons] at holds
  obtain ⟨⟨service, -⟩, ⟨upstreams, -⟩, ⟨performance, -⟩, ⟨routing, -⟩, ⟨rules, -⟩, ⟨sets, -⟩,
    ⟨logging, -⟩, ⟨network, -⟩, -⟩ := holds
  simp only [readManagedPageTexts, savedPageTexts, service, upstreams, performance, routing, rules,
    sets, logging, network]

theorem directives_preview_savedBy (can : CanSave configFile rulesDir request files)
    (oneLine : '\n' ∉ rulesDir)
    (apart : ∀ name ∈ managedFileNames, ApartFrom configFile (managedPath rulesDir name))
    (noMarker : managedBegin ∉ visibleLines (userParts (textAt files configFile)).1)
    (noMarker' : managedBegin ∉ visibleLines (userParts (textAt files configFile)).2) :
    directives (renderEffectiveConfigPreview
        (textAt (savedBy configFile rulesDir request files))
        (textAt (savedBy configFile rulesDir request files) configFile) rulesDir) =
      (ownDirectives files configFile).1 ++ savedDirectives request ++
        (ownDirectives files configFile).2 := by
  obtain ⟨rest, closing, shape, shown, visible⟩ :=
    exists_textAfterBlock (userParts (textAt files configFile)).2
  have preview := logicalLines_preview_surrounded
    (textAt (savedBy configFile rulesDir request files)) noMarker (visible ▸ noMarker') shape oneLine
  rw [textAt_savedBy apart, ensureManagedBlock_eq, closing, directives_eq_map, preview,
    readManagedPageTexts_savedBy can apart, shown]
  have pages : ((previewTexts (savedPageTexts request)).flatMap logicalLines).map splitDirective =
      savedDirectives request := by
    rw [List.map_flatMap, savedDirectives]
    exact List.flatMap_congr fun text _ => (directives_eq_map text).symm
  rw [List.map_append, List.map_append, pages, ownDirectives, directives_eq_map, directives_eq_map]

/-- Whatever else a save writes, it writes the size of the cache. -/
theorem savedDirectives_ne_nil (fits : RowsFit request.beginner) : savedDirectives request ≠ [] := by
  have written : (SettingRow.field .cacheSize "cache-size").directives request.beginner ≠ [] :=
    List.cons_ne_nil _ _
  rw [savedDirectives_eq fits, performanceRows, List.flatMap_cons]
  simp [written]

theorem loadedDirectives_savedBy (can : CanSave configFile rulesDir request files)
    (fits : RowsFit request.beginner) (oneLine : '\n' ∉ rulesDir)
    (apart : ∀ name ∈ managedFileNames, ApartFrom configFile (managedPath rulesDir name))
    (noMarker : managedBegin ∉ visibleLines (userParts (textAt files configFile)).1)
    (noMarker' : managedBegin ∉ visibleLines (userParts (textAt files configFile)).2) :
    loadedDirectives (textAt (savedBy configFile rulesDir request files)) configFile rulesDir =
      (ownDirectives files configFile).1 ++ savedDirectives request ++
        (ownDirectives files configFile).2 := by
  have preview := directives_preview_savedBy can oneLine apart noMarker noMarker'
  rw [← preview, loadedDirectives]
  dsimp only [readOverview]
  rw [aggregateText, if_pos]
  intro blank
  have none := logicalLines_of_blank ((trim_eq_nil_iff _).mp blank)
  rw [directives_eq_map, none, List.map_nil] at preview
  have empty := preview.symm
  simp only [List.append_eq_nil_iff] at empty
  exact savedDirectives_ne_nil fits empty.1.2

end

/-! ### Many cycles -/

section

variable {configFile rulesDir : Text} {files after : FileSystem}

theorem validation_readOverview (contents : Text → Text) (configFile rulesDir : Text) :
    (readOverview contents configFile rulesDir).validation = validateBeginnerConfig
      (readOverview contents configFile rulesDir).request.beginner
      (readOverview contents configFile rulesDir).request.rulesText := by
  dsimp only [readOverview, ConfigOverview.request]

theorem managedRulesText_readOverview (contents : Text → Text) (configFile rulesDir : Text) :
    (readOverview contents configFile rulesDir).managedRulesText = joinNonemptySections
      [(readManagedPageTexts contents rulesDir).routing,
        (readManagedPageTexts contents rulesDir).rules,
        (readManagedPageTexts contents rulesDir).sets] := by
  dsimp only [readOverview]

theorem Cycle.savedBy (cycle : Cycle configFile rulesDir files after) :
    (validateBeginnerConfig (readOverview (textAt files) configFile rulesDir).request.beginner
      (readOverview (textAt files) configFile rulesDir).request.rulesText).ok = true ∧
    CanSave configFile rulesDir (readOverview (textAt files) configFile rulesDir).request files ∧
      after = savedBy configFile rulesDir
        (readOverview (textAt files) configFile rulesDir).request files := by
  have validation := validation_readOverview (textAt files) configFile rulesDir
  unfold Cycle at cycle
  generalize readOverview (textAt files) configFile rulesDir = overview at *
  dsimp only at cycle
  obtain ⟨accepted, gives⟩ := cycle
  rw [validation] at accepted gives
  refine ⟨accepted, ?_⟩
  rcases gives_saveBeginnerConfig accepted gives with ⟨can, -, done⟩ | ⟨-, failed⟩
  · exact ⟨can, done⟩
  · cases failed

theorem IsSteady.isOwnConfig (steady : IsSteady configFile rulesDir files) :
    IsOwnConfig configFile rulesDir files :=
  ⟨steady.one_line, steady.no_end, steady.apart, steady.terminated, steady.no_marker_after⟩

theorem IsOwnConfig.no_marker_before (own : IsOwnConfig configFile rulesDir files) :
    managedBegin ∉ visibleLines (userParts (textAt files configFile)).1 := fun membership =>
  not_infix_userParts own.terminated (infix_of_mem_visibleLines membership)

/-- A save leaves the user's own text. -/
theorem IsOwnConfig.ownDirectives_savedBy (own : IsOwnConfig configFile rulesDir files)
    (request : SaveConfigRequest) :
    ownDirectives (savedBy configFile rulesDir request files) configFile =
      ownDirectives files configFile := by
  rw [ownDirectives, textAt_savedBy own.apart,
    userParts_ensureManagedBlock own.no_end own.terminated]
  simp only [ownDirectives, directives_eq_map, logicalLines_textBeforeBlock,
    logicalLines_textAfterBlock]

theorem IsOwnConfig.savedBy (own : IsOwnConfig configFile rulesDir files)
    (request : SaveConfigRequest) :
    IsOwnConfig configFile rulesDir (savedBy configFile rulesDir request files) := by
  have main : textAt (SmartDnsPlusUi.savedBy configFile rulesDir request files) configFile =
      ensureManagedBlock (textAt files configFile) rulesDir := textAt_savedBy own.apart
  refine ⟨own.one_line, own.no_end, own.apart, ?_, ?_⟩
  · rw [main]
    exact isTerminated_ensureManagedBlock own.no_end own.terminated
  · have visible := visibleLines_append_textAfterBlock []
      (userParts (textAt files configFile)).2
    rw [List.nil_append, visibleLines_nil, List.nil_append] at visible
    rw [main, userParts_ensureManagedBlock own.no_end own.terminated, visible]
    exact own.no_marker_after

/-- The rules that a save leaves are those that it read, written once more. -/
theorem managedRulesText_savedBy {request : SaveConfigRequest}
    (can : CanSave configFile rulesDir request files)
    (apart : ∀ name ∈ managedFileNames, ApartFrom configFile (managedPath rulesDir name)) :
    (readOverview (textAt (savedBy configFile rulesDir request files)) configFile
        rulesDir).managedRulesText =
      reloadedRulesText (parseManagedAssetsFromText request.rulesText) := by
  rw [managedRulesText_readOverview, readManagedPageTexts_savedBy can apart,
    ← parse_normalizeRulesText]
  dsimp only [savedPageTexts, reloadedRulesText]

theorem savedRules_reloaded {assets : ManagedAssets}
    (reloads : Reloads assets (parseManagedAssetsFromText (reloadedRulesText assets))) :
    savedRules (reloadedRulesText assets) = directives (reloadedRulesText assets) := by
  rw [savedRules, parse_normalizeRulesText, reloadedRulesText_of_reloads reloads]

theorem Cycle.managedRulesText (cycle : Cycle configFile rulesDir files after)
    (apart : ∀ name ∈ managedFileNames, ApartFrom configFile (managedPath rulesDir name)) :
    (readOverview (textAt after) configFile rulesDir).managedRulesText =
      reloadedRulesText (parseManagedAssetsFromText
        (readOverview (textAt files) configFile rulesDir).managedRulesText) := by
  obtain ⟨-, can, rfl⟩ := cycle.savedBy
  generalize readOverview (textAt files) configFile rulesDir = overview at *
  exact managedRulesText_savedBy can apart

/-- What a cycle from a steady state reads, it can read and write again. -/
theorem IsSteady.next (steady : IsSteady configFile rulesDir files)
    (cycle : Cycle configFile rulesDir files after) :
    IsSteady configFile rulesDir after ∧
      ownDirectives after configFile = ownDirectives files configFile ∧
      DriftsBy 1 (settingsOf (ownDirectives files configFile).1)
        (settingsOf (ownDirectives files configFile).2)
        (readOverview (textAt files) configFile rulesDir).beginner
        (readOverview (textAt after) configFile rulesDir).beginner := by
  have before := steady.isOwnConfig.no_marker_before
  obtain ⟨accepted, can, rfl⟩ := cycle.savedBy
  have own := steady.isOwnConfig.ownDirectives_savedBy
    (readOverview (textAt files) configFile rulesDir).request
  have next := steady.isOwnConfig.savedBy (readOverview (textAt files) configFile rulesDir).request
  obtain ⟨oneLine, noEnd, apart, terminated, noMarker, rules, managed, loaded, keeps⟩ := steady
  have beginner := beginner_readOverview (textAt files) configFile rulesDir
  have fitting : ∀ directive ∈ loadedDirectives (textAt files) configFile rulesDir,
      FitsDirective directive := fitsDirective_of_mem
  generalize readOverview (textAt files) configFile rulesDir = overview at *
  rw [loaded] at beginner fitting
  have request : overview.request = ⟨overview.beginner, overview.managedRulesText⟩ := rfl
  have fits : RowsFit overview.beginner := by
    rw [beginner]
    exact rowsFit_settingsOf fitting keeps.continued
  have again := loadedDirectives_savedBy can fits oneLine apart before noMarker
  have rulesText : overview.request.rulesText = overview.managedRulesText := rfl
  have written := managedRulesText_savedBy can apart
  rw [rulesText] at written
  have sameRules : savedRules (reloadedRulesText
      (parseManagedAssetsFromText overview.managedRulesText)) =
        savedRules overview.managedRulesText := by
    rw [savedRules_reloaded rules, savedRules, parse_normalizeRulesText]
  have beginnerAgain := beginner_readOverview
    (textAt (savedBy configFile rulesDir overview.request files)) configFile rulesDir
  rw [again] at beginnerAgain
  rw [request, beginner] at accepted
  have reads := keeps.readsSaved fitting accepted
  rw [← beginner, ← request] at reads
  refine ⟨⟨oneLine, noEnd, apart, next.terminated, next.no_marker_after, ?_,
    savedDirectives overview.request, ?_, ?_⟩, own, ?_⟩
  · dsimp only
    rw [written, reloadedRulesText_of_reloads rules]
    exact rules.again
  · rw [again, own]
  · rw [own, written, sameRules]
    exact keeps.again fitting reads
  · rw [beginnerAgain, beginner]
    exact keeps.drifts fitting reads

theorem ownSettings_eq (files : FileSystem) (configFile : Text) :
    ownSettings files configFile = (settingsOf (ownDirectives files configFile).1,
      settingsOf (ownDirectives files configFile).2) := by
  rw [ownSettings, parseBeginnerConfig_eq, parseBeginnerConfig_eq]
  rfl

theorem IsSteady.listsAsRead (steady : IsSteady configFile rulesDir files) :
    ListsAsRead (readOverview (textAt files) configFile rulesDir).beginner := by
  obtain ⟨managed, loaded, keeps⟩ := steady.keeps
  have fitting : ∀ directive ∈ loadedDirectives (textAt files) configFile rulesDir,
      FitsDirective directive := fitsDirective_of_mem
  rw [beginner_readOverview]
  rw [loaded] at fitting ⊢
  exact keeps.listsAsRead fitting

end

/-! ### A listener of the user's own -/

theorem cycle_savedBy {configFile rulesDir : Text} {files : FileSystem} (textual : IsTextual files)
    (accepted : (readOverview (textAt files) configFile rulesDir).validation.ok = true) :
    Cycle configFile rulesDir files
      (savedBy configFile rulesDir (readOverview (textAt files) configFile rulesDir).request files) := by
  have validation := validation_readOverview (textAt files) configFile rulesDir
  unfold Cycle
  generalize readOverview (textAt files) configFile rulesDir = overview at *
  dsimp only
  rw [validation] at accepted ⊢
  exact ⟨accepted, gives_savedBy (textual.canSave configFile rulesDir overview.request) accepted⟩

/-- A main configuration with a listener and an upstream server, before the first save. -/
def ownListener : FileSystem := fun path =>
  if path = "/etc/smartdns.conf" then some (.text "bind [::]:53\nserver 1.1.1.1") else none

theorem keepsSettings_ownListener : KeepsSettings
    [⟨"bind", "[::]:53"⟩, ⟨"server", "1.1.1.1"⟩] [] [] [] where
  binds := by decide
  some_bind := by decide
  upstreams := by decide
  lists := by decide
  scalars := by decide
  server_name := by decide
  switches := by
    intro key listed _ value found
    have extra : beginnerKeyword key = .extra := beginnerKeyword_of_mem_settingRows _ listed
    have known : ∀ directive ∈ ([⟨"bind", "[::]:53"⟩, ⟨"server", "1.1.1.1"⟩] : List Directive),
        beginnerKeyword directive.key ≠ .extra := by decide
    have none : argumentsOf key [⟨"bind", "[::]:53"⟩, ⟨"server", "1.1.1.1"⟩] = [] := by
      apply argumentsOf_eq_nil
      rintro directive membership rfl
      exact known directive membership extra
    rw [List.append_nil, lastExtra_eq_getLast? extra, none] at found
    cases found
  certificates := by
    intro _ key _
    rw [List.append_nil, List.append_nil]
  unwritten := by
    intro key _ _
    rw [List.append_nil, List.append_nil]
  last_rules := by
    intro key _
    rfl
  continued := by decide

theorem isSteady_ownListener : IsSteady "/etc/smartdns.conf" "/etc/smartdns/rules" ownListener := by
  have parts : userParts (textAt ownListener "/etc/smartdns.conf") =
      (("bind [::]:53\nserver 1.1.1.1" : Text), ([] : Text)) := by decide
  have rules : (readOverview (textAt ownListener) "/etc/smartdns.conf"
      "/etc/smartdns/rules").managedRulesText = [] := by decide
  have own : ownDirectives ownListener "/etc/smartdns.conf" =
      ([⟨"bind", "[::]:53"⟩, ⟨"server", "1.1.1.1"⟩], []) := by
    rw [ownDirectives, parts]
    decide
  have none : splitAtFirst managedBegin (textAt ownListener "/etc/smartdns.conf") = none := by
    decide
  constructor
  case one_line => decide
  case no_end =>
    rw [← splitAtFirst_eq_none_iff]
    decide
  case apart =>
    have different : ∀ name ∈ managedFileNames,
        ("/etc/smartdns.conf" : Text) ≠ managedPath "/etc/smartdns/rules" name ∧
          ("/etc/smartdns.conf" : Text) ≠ temporaryPath (managedPath "/etc/smartdns/rules" name) ∧
          ("/etc/smartdns.conf" : Text) ≠ backupPath (managedPath "/etc/smartdns/rules" name) := by
      decide
    intro name membership
    obtain ⟨path, temporary, backup⟩ := different name membership
    exact ⟨path, temporary, backup⟩
  case terminated =>
    intro before rest opened
    rw [none] at opened
    cases opened
  case no_marker_after =>
    rw [parts]
    decide
  case rules =>
    rw [rules]
    have regular : RegularRules [] := by constructor <;> exact List.forall_mem_nil _
    exact regular.reloads_of_plain (List.forall_mem_nil _)
  case keeps =>
    refine ⟨[], ?_, ?_⟩
    · rw [own]
      decide
    · have empty : savedRules [] = [] := by
        rw [savedRules, parse_normalizeRulesText, directives_eq_map,
          logicalLines_reloaded (isSingleLine_parse [])]
        · rfl
        · exact List.forall_mem_nil _
      rw [own, rules, empty]
      exact keepsSettings_ownListener

theorem cycle_ownListener : Cycle "/etc/smartdns.conf" "/etc/smartdns/rules" ownListener
    (savedBy "/etc/smartdns.conf" "/etc/smartdns/rules"
      (readOverview (textAt ownListener) "/etc/smartdns.conf" "/etc/smartdns/rules").request
      ownListener) := by
  apply cycle_savedBy
  · intro path bytes
    unfold ownListener
    split <;> simp
  · decide

/-- The states before and after a cycle. -/
def oneCycle (files after : FileSystem) : Nat → FileSystem
  | 0 => files
  | _ + 1 => after

theorem cycles_oneCycle {configFile rulesDir : Text} {files after : FileSystem}
    (cycle : Cycle configFile rulesDir files after) : ∀ i < 1,
      Cycle configFile rulesDir (oneCycle files after i) (oneCycle files after (i + 1)) := by
  intro i less
  obtain rfl : i = 0 := by omega
  exact cycle

/-! ### A run of cycles -/

section

variable {configFile rulesDir : Text} {states : Nat → FileSystem} {n : Nat}

theorem isSteady_of_cycles (steady : IsSteady configFile rulesDir (states 0))
    (cycles : ∀ i < n, Cycle configFile rulesDir (states i) (states (i + 1))) :
    IsSteady configFile rulesDir (states n) ∧
      ownDirectives (states n) configFile = ownDirectives (states 0) configFile ∧
      DriftsBy n (ownSettings (states 0) configFile).1 (ownSettings (states 0) configFile).2
        (readOverview (textAt (states 0)) configFile rulesDir).beginner
        (readOverview (textAt (states n)) configFile rulesDir).beginner := by
  induction n with
  | zero => exact ⟨steady, rfl, DriftsBy.refl _ _ _⟩
  | succ n inductionHypothesis =>
      obtain ⟨still, own, drifts⟩ := inductionHypothesis fun i less =>
        cycles i (Nat.lt_succ_of_lt less)
      obtain ⟨next, own', step⟩ := still.next (cycles n n.lt_succ_self)
      rw [own] at own' step
      rw [ownSettings_eq] at drifts ⊢
      exact ⟨next, own', drifts.next step⟩

/-- Cycle after cycle adds the listeners, the upstream servers and the list entries of the
user's own text once more, and changes nothing else. -/
theorem driftsBy_of_cycles (steady : IsSteady configFile rulesDir (states 0))
    (cycles : ∀ i < n, Cycle configFile rulesDir (states i) (states (i + 1))) :
    DriftsBy n (ownSettings (states 0) configFile).1 (ownSettings (states 0) configFile).2
      (readOverview (textAt (states 0)) configFile rulesDir).beginner
      (readOverview (textAt (states n)) configFile rulesDir).beginner :=
  (isSteady_of_cycles steady cycles).2.2

theorem driftsBy_of_cycles_example :
    ∃ after, Cycle "/etc/smartdns.conf" "/etc/smartdns/rules" ownListener after ∧
      (readOverview (textAt after) "/etc/smartdns.conf" "/etc/smartdns/rules").beginner.binds =
        [("[::]:53" : Text), ("[::]:53" : Text)] := by
  obtain ⟨after, cycle⟩ : ∃ after, Cycle "/etc/smartdns.conf" "/etc/smartdns/rules" ownListener after :=
    ⟨_, cycle_ownListener⟩
  have drifts := @driftsBy_of_cycles _ _ (oneCycle ownListener after) 1 isSteady_ownListener
    (cycles_oneCycle cycle)
  have own : (ownSettings ownListener "/etc/smartdns.conf").1.binds = [("[::]:53" : Text)] ∧
      (ownSettings ownListener "/etc/smartdns.conf").2.binds = [] ∧
      (readOverview (textAt ownListener) "/etc/smartdns.conf"
        "/etc/smartdns/rules").beginner.binds = [("[::]:53" : Text)] := by decide
  have binds := drifts.binds
  simp only [oneCycle, own, repeated_one] at binds
  exact ⟨after, cycle, binds⟩

/-- The settings are a fixpoint exactly when the user's own text adds nothing to them. -/
theorem sameSettings_of_cycles_iff (some : 0 < n) (steady : IsSteady configFile rulesDir (states 0))
    (cycles : ∀ i < n, Cycle configFile rulesDir (states i) (states (i + 1))) :
    SameSettings (readOverview (textAt (states n)) configFile rulesDir).beginner
        (readOverview (textAt (states 0)) configFile rulesDir).beginner ↔
      AddsNothing (ownSettings (states 0) configFile).1 ∧
        AddsNothing (ownSettings (states 0) configFile).2 := by
  obtain ⟨still, -, drifts⟩ := isSteady_of_cycles steady cycles
  exact drifts.sameSettings_iff some steady.listsAsRead still.listsAsRead

theorem sameSettings_of_cycles_iff_example :
    ∃ after, Cycle "/etc/smartdns.conf" "/etc/smartdns/rules" ownListener after ∧
      ¬ SameSettings
        (readOverview (textAt after) "/etc/smartdns.conf" "/etc/smartdns/rules").beginner
        (readOverview (textAt ownListener) "/etc/smartdns.conf" "/etc/smartdns/rules").beginner := by
  obtain ⟨after, cycle⟩ : ∃ after, Cycle "/etc/smartdns.conf" "/etc/smartdns/rules" ownListener after :=
    ⟨_, cycle_ownListener⟩
  have same := @sameSettings_of_cycles_iff _ _ (oneCycle ownListener after) 1 Nat.zero_lt_one
    isSteady_ownListener (cycles_oneCycle cycle)
  have binds : (ownSettings ownListener "/etc/smartdns.conf").1.binds ≠ [] := by decide
  exact ⟨after, cycle, fun kept => binds (same.mp kept).1.binds⟩

/-! ### The managed rules -/

/-- Every cycle after the first reads the pages that the one before wrote. -/
theorem managedRulesText_succ
    (apart : ∀ name ∈ managedFileNames, ApartFrom configFile (managedPath rulesDir name))
    (cycles : ∀ i < n, Cycle configFile rulesDir (states i) (states (i + 1))) {i : Nat}
    (less : i < n) :
    (readOverview (textAt (states (i + 1))) configFile rulesDir).managedRulesText =
      reloadedRulesText (parseManagedAssetsFromText
        (readOverview (textAt (states i)) configFile rulesDir).managedRulesText) :=
  (cycles i less).managedRulesText apart

/-- No cycle brings a backslash back. -/
theorem backslashes_of_cycles
    (apart : ∀ name ∈ managedFileNames, ApartFrom configFile (managedPath rulesDir name))
    (cycles : ∀ i < n, Cycle configFile rulesDir (states i) (states (i + 1))) {i j : Nat}
    (order : i ≤ j) (less : j ≤ n) :
    (parseManagedAssetsFromText
        (readOverview (textAt (states j)) configFile rulesDir).managedRulesText).backslashes ≤
      (parseManagedAssetsFromText
        (readOverview (textAt (states i)) configFile rulesDir).managedRulesText).backslashes := by
  induction j, order using Nat.le_induction with
  | base => exact le_rfl
  | succ j _ inductionHypothesis =>
      rw [managedRulesText_succ apart cycles less]
      exact (backslashes_reloaded_le _).trans (inductionHypothesis (Nat.le_of_lt less))

/-- Rules that one reload keeps are in the form in which they stay from the first save on. -/
theorem managedRulesText_of_reloads (some : 0 < n)
    (apart : ∀ name ∈ managedFileNames, ApartFrom configFile (managedPath rulesDir name))
    (cycles : ∀ i < n, Cycle configFile rulesDir (states i) (states (i + 1)))
    {assets : ManagedAssets} (read : assets = parseManagedAssetsFromText
      (readOverview (textAt (states 0)) configFile rulesDir).managedRulesText)
    (reloads : Reloads assets (parseManagedAssetsFromText (reloadedRulesText assets))) :
    (readOverview (textAt (states n)) configFile rulesDir).managedRulesText =
      reloadedRulesText assets := by
  obtain ⟨n, rfl⟩ := Nat.exists_eq_succ_of_ne_zero some.ne'
  induction n with
  | zero =>
      rw [managedRulesText_succ apart cycles Nat.zero_lt_one, read]
  | succ n inductionHypothesis =>
      have before := inductionHypothesis n.succ_pos fun i less => cycles i (Nat.lt_succ_of_lt less)
      rw [managedRulesText_succ apart cycles (Nat.lt_succ_self _), before,
        reloadedRulesText_of_reloads reloads]

end

/-- A main configuration and a page with two managed rules. -/
def ownRules : FileSystem := fun path =>
  if path = "/etc/smartdns.conf" then some (.text "bind [::]:53\nserver 1.1.1.1")
  else if path = managedPath "/etc/smartdns/rules" "40-nameserver.conf" then
    some (.text "nameserver /a/g\nip-rules 1.1.1.1 -x")
  else none

theorem cycle_ownRules : Cycle "/etc/smartdns.conf" "/etc/smartdns/rules" ownRules
    (savedBy "/etc/smartdns.conf" "/etc/smartdns/rules"
      (readOverview (textAt ownRules) "/etc/smartdns.conf" "/etc/smartdns/rules").request
      ownRules) := by
  apply cycle_savedBy
  · intro path bytes
    unfold ownRules
    split
    · simp
    · split <;> simp
  · decide

end SmartDnsPlusUi
