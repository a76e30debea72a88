import SmartDnsPlusUi.Config.KeptSettings
import SmartDnsPlusUi.Config.Preview
import SmartDnsPlusUi.Config.SavedPages

/-!
# The overview

`readOverview` is what the UI loads.  The settings in it come from the preview,
in which the managed files stand between the user's own lines; without a
preview they come from the managed files alone.
-/

namespace SmartDnsPlusUi

open Files Text

/-- The overview, without what is read of the included files one by one. -/
structure ConfigOverview where
  configFile : Text
  rulesDir : Text
  managedBlockPresent : Bool
  beginner : BeginnerConfig
  mainConfigText : Text
  managedBasicText : Text
  managedUpstreamsText : Text
  managedRulesText : Text
  validation : ValidationResult
  managedAssets : ManagedAssets
  workingConfigText : Text

/-- The text that the settings are read from. -/
def aggregateText (workingConfigText managedBasicText managedUpstreamsText managedRulesText
    mainConfigText : Text) : Text :=
  if trim workingConfigText ≠ [] then workingConfigText
  else if trim managedBasicText ≠ [] ∨ trim managedUpstreamsText ≠ [] ∨
      trim managedRulesText ≠ [] then
    joinNonemptySections [managedBasicText, managedUpstreamsText, managedRulesText]
  else mainConfigText

/-- `read_overview` where every file can be read; `contents` gives the text at a path, empty
when there is no file. -/
def readOverview (contents : Text → Text) (configFile rulesDir : Text) : ConfigOverview :=
  let mainConfigText := contents configFile
  let pageTexts := readManagedPageTexts contents rulesDir
  let managedBasicText := joinNonemptySections
    [pageTexts.service, pageTexts.performance, pageTexts.logging, pageTexts.network]
  let managedUpstreamsText := pageTexts.upstreams
  let managedRulesText :=
    joinNonemptySections [pageTexts.routing, pageTexts.rules, pageTexts.sets]
  let workingConfigText := renderEffectiveConfigPreview contents mainConfigText rulesDir
  let aggregate := aggregateText workingConfigText managedBasicText managedUpstreamsText
    managedRulesText mainConfigText
  let beginner := parseBeginnerConfig aggregate
  { configFile
    rulesDir
    managedBlockPresent := contains managedBegin mainConfigText
    beginner
    mainConfigText
    managedBasicText
    managedUpstreamsText
    managedRulesText
    validation := validateBeginnerConfig beginner managedRulesText
    managedAssets := parseManagedAssetsFromText managedRulesText
    workingConfigText }

/-- The directives that the settings are read from. -/
def loadedDirectives (contents : Text → Text) (configFile rulesDir : Text) : List Directive :=
  let overview := readOverview contents configFile rulesDir
  directives (aggregateText overview.workingConfigText overview.managedBasicText
    overview.managedUpstreamsText overview.managedRulesText overview.mainConfigText)

theorem beginner_readOverview (contents : Text → Text) (configFile rulesDir : Text) :
    (readOverview contents configFile rulesDir).beginner =
      settingsOf (loadedDirectives contents configFile rulesDir) := by
  dsimp only [loadedDirectives, readOverview]
  rw [parseBeginnerConfig_eq]

/-! ### The text around the managed block -/

theorem ensureManagedBlock_eq (text rulesDir : Text) :
    ensureManagedBlock text rulesDir = textBeforeBlock (userParts text).1 ++
      managedBlock rulesDir ++ textAfterBlock (userParts text).2 := by
  rw [← findManagedBlock_getD]
  cases found : findManagedBlock text with
  | some parts => exact ensureManagedBlock_of_found found
  | none => exact ensureManagedBlock_of_none found

theorem not_infix_userParts {text : Text} (terminated : IsTerminated text) :
    ¬ managedBegin <:+: (userParts text).1 := by
  rw [← findManagedBlock_getD]
  cases found : findManagedBlock text with
  | some parts => exact not_infix_of_findManagedBlock found
  | none => exact not_infix_of_isTerminated terminated found

/-- The user's text stays around the block. -/
theorem userParts_ensureManagedBlock {text rulesDir : Text}
    (free : ¬ managedEnd <:+: managedConfDir rulesDir) (terminated : IsTerminated text) :
    userParts (ensureManagedBlock text rulesDir) =
      (textBeforeBlock (userParts text).1, textAfterBlock (userParts text).2) := by
  rw [ensureManagedBlock_eq, ← findManagedBlock_getD,
    findManagedBlock_inserted free (not_infix_userParts terminated)]
  rfl

theorem isTerminated_ensureManagedBlock {text rulesDir : Text}
    (free : ¬ managedEnd <:+: managedConfDir rulesDir) (terminated : IsTerminated text) :
    IsTerminated (ensureManagedBlock text rulesDir) := by
  intro before rest opened
  by_contra missing
  have found := findManagedBlock_inserted free (not_infix_userParts terminated)
    (textAfterBlock (userParts text).2)
  rw [← ensureManagedBlock_eq] at found
  unfold findManagedBlock at found
  rw [opened] at found
  simp only [splitAtFirst_managedBegin_append, (splitAtFirst_eq_none_iff _).mpr missing] at found
  cases found

theorem logicalLines_textBeforeBlock (text : Text) :
    logicalLines (textBeforeBlock text) = logicalLines text := by
  rw [← logicalLines_trim, trim_textBeforeBlock, logicalLines_trim]

/-- What follows the block is read as the text that was there. -/
theorem exists_textAfterBlock (after : Text) : ∃ rest, textAfterBlock after = '\n' :: rest ∧
    (rest = [] ∨ ∃ shown, rest = '\n' :: shown) ∧ logicalLines rest = logicalLines after ∧
      visibleLines rest = visibleLines after := by
  have visible := visibleLines_append_textAfterBlock [] after
  have breaks : Blank (after.takeWhile isLineBreak) := by
    intro c membership
    have lineBreak := List.mem_takeWhile_imp membership
    rcases (by simpa [isLineBreak] using lineBreak : c = '\r' ∨ c = '\n') with rfl | rfl <;> rfl
  have shown : logicalLines (after.dropWhile isLineBreak) = logicalLines after := by
    have trims : trim (after.dropWhile isLineBreak) = trim after := by
      conv_rhs => rw [← List.takeWhile_append_dropWhile (p := isLineBreak) (l := after)]
      exact (trim_append_blank_left breaks _).symm
    rw [← logicalLines_trim, trims, logicalLines_trim]
  unfold textAfterBlock at visible ⊢
  dsimp only at visible ⊢
  split_ifs at visible ⊢ with nonempty
  · refine ⟨_, rfl, .inr ⟨_, rfl⟩, ?_, ?_⟩
    · rw [logicalLines_cons_of_space rfl, shown]
    · have newline := visibleLines_append_newline [] ('\n' :: after.dropWhile isLineBreak)
      exact newline.symm.trans visible
  · refine ⟨[], rfl, .inl rfl, ?_, visible⟩
    rw [← shown, logicalLines_of_blank ((trim_eq_nil_iff _).mp (not_not.mp nonempty))]
    rfl

theorem logicalLines_textAfterBlock (after : Text) :
    logicalLines (textAfterBlock after) = logicalLines after := by
  obtain ⟨rest, closing, -, shown, -⟩ := exists_textAfterBlock after
  rw [closing, logicalLines_cons_of_space rfl, shown]

end SmartDnsPlusUi
