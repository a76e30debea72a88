import SmartDnsPlusUi.Config.RuleSets
import SmartDnsPlusUi.Table.FirstOccurrences

/-!
# Updating a set file

A save removes items from the file of a set and adds others.  Reading the file afterwards
gives the items that are left, in their old order and each once, and then the new ones.
-/

namespace SmartDnsPlusUi

open Files Text Table

/-! ### Items of a file -/

/-- A line that reads back as itself. -/
structure IsItem (item : Text) : Prop where
  trimmed : Trimmed item
  isItem : isRuleSetItem item = true
  oneLine : '\n' ∉ item

theorem isItem_of_mem_ruleSetItems {text item : Text} (member : item ∈ ruleSetItems text) :
    IsItem item := by
  obtain ⟨inLines, isItem⟩ := List.mem_filter.mp member
  obtain ⟨line, inText, rfl⟩ := List.mem_map.mp inLines
  refine ⟨trimmed_trim line, isItem, fun present => ?_⟩
  exact not_mem_of_mem_lines inText (mem_of_mem_trim present)

theorem isItem_of_mem_normalize {items : List Text} (free : ∀ item ∈ items, '\n' ∉ item)
    {item : Text} (member : item ∈ normalizeRuleSetItems items) : IsItem item := by
  obtain ⟨inItems, isItem⟩ := List.mem_filter.mp member
  obtain ⟨requested, inRequest, rfl⟩ := List.mem_map.mp inItems
  refine ⟨trimmed_trim requested, isItem, fun present => ?_⟩
  exact free requested inRequest (mem_of_mem_trim present)

theorem renderRuleSetItems_eq (items : List Text) : renderRuleSetItems items = unlines items := by
  unfold renderRuleSetItems
  rcases List.eq_nil_or_concat' items with rfl | ⟨front, last, rfl⟩
  · rfl
  · rw [if_neg (by simp), join_append_singleton]
    simp

/-- What is rendered reads back. -/
theorem ruleSetItems_renderRuleSetItems {items : List Text} (all : ∀ item ∈ items, IsItem item) :
    ruleSetItems (renderRuleSetItems items) = items := by
  rw [ruleSetItems, renderRuleSetItems_eq, lines_unlines fun item member => (all item member).oneLine,
    List.map_map]
  have same : items.map (trim ∘ dropReturn) = items := by
    refine (List.map_congr_left fun item member => ?_).trans (List.map_id items)
    rw [Function.comp_apply, dropReturn_of_trimmed (all item member).trimmed]
    exact trim_eq_self (all item member).trimmed
  rw [same, List.filter_eq_self]
  exact fun item member => (all item member).isItem

theorem dedupeRuleSetItems_eq (items : List Text) :
    dedupeRuleSetItems items = items.eraseDups := by
  have states : items.foldl dedupeStep ([], []) = (items.eraseDups.reverse, items.eraseDups) := by
    induction items using List.reverseRecOn with
    | nil => rfl
    | append_singleton items item inductionHypothesis =>
        rw [List.foldl_concat, inductionHypothesis, eraseDups_concat]
        unfold dedupeStep
        simp only [List.mem_reverse, List.mem_eraseDups]
        split_ifs
        · rfl
        · simp
  rw [dedupeRuleSetItems, states]

/-! ### The save -/

structure SaveRuleSetFileRequest where
  addItems : List Text
  removeItems : List Text

def updatedItems (request : SaveRuleSetFileRequest) (items : List Text) : List Text :=
  let removeItems := normalizeRuleSetItems request.removeItems
  let addItems := normalizeRuleSetItems request.addItems
  let items := if removeItems = [] then items else items.filter (· ∉ removeItems)
  dedupeRuleSetItems (items ++ addItems)

inductive SaveStage where
  | read
  | backup
  | write
  deriving DecidableEq

/-- Why a set file is not saved; `config` when the detail of the set cannot be read. -/
inductive SaveError where
  | config
  | notFound
  | noBackingFile
  | failed (stage : SaveStage) (kind : ErrorKind)
  | disappeared
  deriving DecidableEq

inductive SetKind where
  | domainSet
  | ipSet
  deriving DecidableEq

def SetKind.noun : SetKind → Text
  | .domainSet => "rule set"
  | .ipSet => "ip set"

def SaveStage.verb : SaveStage → Text
  | .read => "read"
  | .backup => "backup"
  | .write => "write"

/-- The message of an error that the save makes itself, where the system describes the
failed call. -/
def SaveError.message (setKind : SetKind) (name file : Text) (describe : ErrorKind → Text) :
    SaveError → Option Text
  | .config => none
  | .notFound => some (setKind.noun ++ (" `" : Text) ++ name ++ ("` not found" : Text))
  | .noBackingFile => some (setKind.noun ++ (" `" : Text) ++ name ++ ("` has no backing file" : Text))
  | .failed stage kind =>
      some (stage.verb ++ (" " : Text) ++ setKind.noun ++ (" file " : Text) ++ file ++
        (" failed: " : Text) ++ describe kind)
  | .disappeared =>
      some (setKind.noun ++ (" `" : Text) ++ name ++ ("` disappeared after save" : Text))

/-- Go on with the value, unless the stage fails. -/
def inStage {Value Result : Type} (stage : SaveStage)
    (program : Program (Except ErrorKind Value))
    (next : Value → Program (Except SaveError Result)) : Program (Except SaveError Result) :=
  program.bind fun outcome =>
    match outcome with
    | .ok value => next value
    | .error kind => .done (.error (.failed stage kind))

/-- The part of a save that works on the file. -/
def updateSetFile (file : Text) (request : SaveRuleSetFileRequest) :
    Program (Except SaveError Unit) :=
  inStage .read (readTextOrDefault file) fun text =>
  inStage .backup (backupFile file) fun _ =>
  inStage .write
    (writeTextAtomic file (renderRuleSetItems (updatedItems request (ruleSetItems text))))
    fun _ => .done (.ok ())

def SetKind.readDetail : SetKind → Platform → ConfigTree → Nat → Text → Text → Option Text →
    Nat → Nat → Option (Option RuleSetFileDetail)
  | .domainSet => readRuleSetDetail
  | .ipSet => readIpSetDetail

/-- The configuration in a file system, whose links are resolved by the system. -/
def treeAt (canonicalize : FileSystem → Text → Option Text) (files : FileSystem) :
    ConfigTree where
  canonicalize := canonicalize files
  pathExists path := (files path).isSome
  readToString path := (perform none (.readToString path) files).1

section

variable (setKind : SetKind) (platform : Platform)
  (canonicalize : FileSystem → Text → Option Text) (fuel : Nat)
  (allowed : Call → Option Fault → Prop) (configFile name : Text)

/-- The detail that a save reads first, and once more at its end. -/
def detailAt (files : FileSystem) : Option (Option RuleSetFileDetail) :=
  setKind.readDetail platform (treeAt canonicalize files) fuel configFile name none 0 200

/-- `save_rule_set_file` and `save_ip_set_file`: from the file system, a save can give the
outcome and leave the second file system. -/
inductive SavesSetFile (request : SaveRuleSetFileRequest) :
    FileSystem → Except SaveError RuleSetFileDetail → FileSystem → Prop where
  | unread {files} :
      detailAt setKind platform canonicalize fuel configFile name files = none →
      SavesSetFile request files (.error .config) files
  | notFound {files} :
      detailAt setKind platform canonicalize fuel configFile name files = some none →
      SavesSetFile request files (.error .notFound) files
  | noBackingFile {files detail} :
      detailAt setKind platform canonicalize fuel configFile name files = some (some detail) →
      trim detail.file = [] → SavesSetFile request files (.error .noBackingFile) files
  | failed {files after detail error} :
      detailAt setKind platform canonicalize fuel configFile name files = some (some detail) →
      trim detail.file ≠ [] →
      (updateSetFile detail.file request).Gives allowed files (.error error) after →
      SavesSetFile request files (.error error) after
  | disappeared {files after detail} :
      detailAt setKind platform canonicalize fuel configFile name files = some (some detail) →
      trim detail.file ≠ [] →
      (updateSetFile detail.file request).Gives allowed files (.ok ()) after →
      detailAt setKind platform canonicalize fuel configFile name after = some none →
      SavesSetFile request files (.error .disappeared) after
  | unreadAfter {files after detail} :
      detailAt setKind platform canonicalize fuel configFile name files = some (some detail) →
      trim detail.file ≠ [] →
      (updateSetFile detail.file request).Gives allowed files (.ok ()) after →
      detailAt setKind platform canonicalize fuel configFile name after = none →
      SavesSetFile request files (.error .config) after
  | saved {files after detail saved} :
      detailAt setKind platform canonicalize fuel configFile name files = some (some detail) →
      trim detail.file ≠ [] →
      (updateSetFile detail.file request).Gives allowed files (.ok ()) after →
      detailAt setKind platform canonicalize fuel configFile name after = some (some saved) →
      SavesSetFile request files (.ok saved) after

end

/-! ### What a save does to the file -/

/-- A read says that there is no file only when there is none. -/
def HonestReads (allowed : Call → Option Fault → Prop) : Prop :=
  ∀ path fault, allowed (.readToString path) (some fault) → fault.kind ≠ .notFound

section

variable {allowed : Call → Option Fault → Prop} {files after : FileSystem}

theorem gives_inStage_ok {Value Result : Type} {stage : SaveStage}
    {program : Program (Except ErrorKind Value)}
    {next : Value → Program (Except SaveError Result)} {result : Result}
    (gives : (inStage stage program next).Gives allowed files (.ok result) after) :
    ∃ value between, program.Gives allowed files (.ok value) between ∧
      (next value).Gives allowed between (.ok result) after := by
  obtain ⟨outcome, between, first, later⟩ := Program.gives_bind.mp gives
  cases outcome with
  | ok value => exact ⟨value, between, first, later⟩
  | error kind => cases later.1

theorem gives_proceed_ok {Value Result : Type} {program : Program (Except ErrorKind Value)}
    {next : Value → Program (Except ErrorKind Result)} {result : Result}
    (gives : (program.proceed next).Gives allowed files (.ok result) after) :
    ∃ value between, program.Gives allowed files (.ok value) between ∧
      (next value).Gives allowed between (.ok result) after := by
  rcases Program.gives_proceed gives with found | ⟨kind, -, impossible⟩
  · exact found
  · cases impossible

/-- What both readers of a text make of the reply. -/
def orDefault : Except ErrorKind Text → Except ErrorKind Text
  | .ok text => .ok text
  | .error .notFound => .ok []
  | .error kind => .error kind

theorem readTextOrDefault_tree (tree : ConfigTree) (path : Text) :
    tree.readTextOrDefault path = orDefault (tree.readToString path) := by
  unfold ConfigTree.readTextOrDefault
  cases tree.readToString path with
  | ok text => rfl
  | error kind => cases kind <;> rfl

theorem readTextOrDefault_program (path : Text) :
    readTextOrDefault path = .call (.readToString path) fun reply => .done (orDefault reply) := by
  refine congrArg (Program.call (.readToString path)) (funext fun reply => ?_)
  cases reply with
  | ok text => rfl
  | error kind => cases kind <;> rfl

theorem gives_readTextOrDefault_ok (honest : HonestReads allowed) {path text : Text}
    (gives : (readTextOrDefault path).Gives allowed files (.ok text) after)
    (canonicalize : FileSystem → Text → Option Text) :
    after = files ∧ (treeAt canonicalize files).readTextOrDefault path = .ok text := by
  rw [readTextOrDefault_program] at gives
  obtain ⟨fault, met, outcome, rfl⟩ := gives
  refine ⟨rfl, ?_⟩
  rw [readTextOrDefault_tree]
  cases fault with
  | none => exact outcome
  | some fault =>
      have notMissing := honest path fault met
      change orDefault (.error fault.kind) = .ok text at outcome
      generalize fault.kind = kind at notMissing outcome
      cases kind with
      | notFound => exact absurd rfl notMissing
      | permissionDenied | invalidData | other => cases outcome

theorem gives_writeTextAtomic_ok {path content : Text}
    (gives : (writeTextAtomic path content).Gives allowed files (.ok ()) after) :
    after path = some (.text content) := by
  have apart := temporaryPath_ne path
  unfold writeTextAtomic at gives
  obtain ⟨_, prepared, -, rest⟩ := gives_proceed_ok gives
  obtain ⟨_, between, ⟨fault, -, wrote, rfl⟩, renamed⟩ := gives_proceed_ok rest
  cases fault with
  | some fault => cases wrote
  | none =>
      obtain ⟨fault, -, ends⟩ := renamed
      have temporary : (perform none (.write (temporaryPath path) content) prepared).2
          (temporaryPath path) = some (.text content) := Function.update_self _ _ _
      cases fault with
      | none =>
          dsimp only [perform] at ends temporary
          rw [temporary] at ends
          obtain ⟨-, rfl⟩ := ends
          exact Function.update_self _ _ _
      | some fault =>
          dsimp only [perform] at ends
          split at ends
          · rename_i impossible
            cases impossible
          · -- the rename is rejected, and the text written directly
            obtain ⟨_, direct, ⟨fault, -, wrote, rfl⟩, removed⟩ := gives_proceed_ok ends
            obtain ⟨removal, -, -, rfl⟩ := removed
            cases fault with
            | some fault => cases wrote
            | none =>
                refine (perform_other ?_ _).trans (Function.update_self _ _ _)
                simpa [Call.targets] using apart.symm
          · obtain ⟨_, -, impossible, -⟩ := ends
            cases impossible

/-- After a successful update the file holds the updated items. -/
theorem gives_updateSetFile_ok (honest : HonestReads allowed)
    (canonicalize : FileSystem → Text → Option Text) {file : Text}
    {request : SaveRuleSetFileRequest}
    (gives : (updateSetFile file request).Gives allowed files (.ok ()) after) :
    ∃ old, readRuleSetItems (treeAt canonicalize files) file = .ok old ∧
      after file = some (.text (renderRuleSetItems (updatedItems request old))) := by
  obtain ⟨text, _, read, rest⟩ := gives_inStage_ok gives
  obtain ⟨rfl, found⟩ := gives_readTextOrDefault_ok honest read canonicalize
  obtain ⟨_, backed, -, last⟩ := gives_inStage_ok rest
  obtain ⟨_, _, wrote, -, rfl⟩ := gives_inStage_ok last
  refine ⟨ruleSetItems text, ?_, gives_writeTextAtomic_ok wrote⟩
  rw [readRuleSetItems, found]
  rfl

theorem updatedItems_eq (request : SaveRuleSetFileRequest) (items : List Text) :
    updatedItems request items =
      (items.filter (· ∉ normalizeRuleSetItems request.removeItems) ++
        normalizeRuleSetItems request.addItems).eraseDups := by
  unfold updatedItems
  rw [dedupeRuleSetItems_eq]
  split_ifs with nothing
  · rw [nothing]
    simp
  · rfl

/-- Reading after a successful update gives the updated items. -/
theorem readRuleSetItems_updateSetFile (honest : HonestReads allowed)
    (canonicalize : FileSystem → Text → Option Text) {file : Text}
    {request : SaveRuleSetFileRequest} (free : ∀ item ∈ request.addItems, '\n' ∉ item)
    (gives : (updateSetFile file request).Gives allowed files (.ok ()) after) :
    ∃ old new, readRuleSetItems (treeAt canonicalize files) file = .ok old ∧
      readRuleSetItems (treeAt canonicalize after) file = .ok new ∧
      IsUpdate old (normalizeRuleSetItems request.removeItems)
        (normalizeRuleSetItems request.addItems) new := by
  obtain ⟨old, read, written⟩ := gives_updateSetFile_ok honest canonicalize gives
  refine ⟨old, updatedItems request old, read, ?_, ?_⟩
  · have items : ∀ item ∈ updatedItems request old, IsItem item := by
      intro item member
      rw [updatedItems_eq, List.mem_eraseDups, List.mem_append, List.mem_filter] at member
      rcases member with ⟨inFile, -⟩ | added
      · rw [readRuleSetItems] at read
        cases found : (treeAt canonicalize files).readTextOrDefault file with
        | error kind =>
            rw [found] at read
            cases read
        | ok text =>
            rw [found] at read
            cases read
            exact isItem_of_mem_ruleSetItems inFile
      · exact isItem_of_mem_normalize free added
    have text : (treeAt canonicalize after).readToString file =
        .ok (renderRuleSetItems (updatedItems request old)) := by
      simp only [treeAt, perform, written]
    rw [readRuleSetItems, readTextOrDefault_tree, text]
    exact congrArg Except.ok (ruleSetItems_renderRuleSetItems items)
  · rw [updatedItems_eq]
    exact isUpdate_eraseDups _ _ _

variable {setKind : SetKind} {platform : Platform}
  {canonicalize : FileSystem → Text → Option Text} {fuel : Nat} {configFile name : Text}

theorem savesSetFile_ok {request : SaveRuleSetFileRequest} {saved : RuleSetFileDetail}
    (saves : SavesSetFile setKind platform canonicalize fuel allowed configFile name request
      files (.ok saved) after) :
    ∃ detail, detailAt setKind platform canonicalize fuel configFile name files =
        some (some detail) ∧
      (updateSetFile detail.file request).Gives allowed files (.ok ()) after ∧
      detailAt setKind platform canonicalize fuel configFile name after = some (some saved) := by
  cases saves with
  | saved found _ gives again => exact ⟨_, found, gives, again⟩

/-- After a successful save the file of the set reads as the update of its old items by the
trimmed items of the request, and the same save again, of a set that still has that file,
leaves the same items. -/
theorem savesSetFile_exact (honest : HonestReads allowed) {request : SaveRuleSetFileRequest}
    (free : ∀ item ∈ request.addItems ++ request.removeItems, '\n' ∉ item)
    {saved : RuleSetFileDetail}
    (saves : SavesSetFile setKind platform canonicalize fuel allowed configFile name request
      files (.ok saved) after) :
    ∃ detail old new,
      detailAt setKind platform canonicalize fuel configFile name files = some (some detail) ∧
      readRuleSetItems (treeAt canonicalize files) detail.file = .ok old ∧
      readRuleSetItems (treeAt canonicalize after) detail.file = .ok new ∧
      IsUpdate old (normalizeRuleSetItems request.removeItems)
        (normalizeRuleSetItems request.addItems) new ∧
      ∀ savedAgain last, saved.file = detail.file →
        SavesSetFile setKind platform canonicalize fuel allowed configFile name request after
          (.ok savedAgain) last →
        ∃ newer, readRuleSetItems (treeAt canonicalize last) detail.file = .ok newer ∧
          ∀ item, item ∈ newer ↔ item ∈ new := by
  have addFree : ∀ item ∈ request.addItems, '\n' ∉ item :=
    fun item member => free item (List.mem_append_left _ member)
  obtain ⟨detail, found, gives, again⟩ := savesSetFile_ok saves
  obtain ⟨old, new, readOld, readNew, update⟩ :=
    readRuleSetItems_updateSetFile honest canonicalize addFree gives
  refine ⟨detail, old, new, found, readOld, readNew, update, ?_⟩
  intro savedAgain last sameFile savesAgain
  obtain ⟨other, foundOther, givesAgain, -⟩ := savesSetFile_ok savesAgain
  rw [again] at foundOther
  cases foundOther
  rw [sameFile] at givesAgain
  obtain ⟨middle, newer, readMiddle, readNewer, updateAgain⟩ :=
    readRuleSetItems_updateSetFile honest canonicalize addFree givesAgain
  rw [readNew] at readMiddle
  cases readMiddle
  exact ⟨newer, readNewer, update.again updateAgain⟩

end

/-! ### A set file with one item -/

/-- A configuration that defines one set, and the file of the set. -/
def directSetFiles : FileSystem := fun path =>
  if path = "/c" then some (.text "domain-set -name direct -file /s")
  else if path = "/s" then some (.text "# comment\nexample.com\nexample.org\n")
  else none

def asciiPlatform : Platform where
  usizeMax := 2 ^ 64 - 1
  toLowercase t := t.map Char.toLower

def directSetUpdate : SaveRuleSetFileRequest where
  addItems := ["example.net", " ", "example.edu"]
  removeItems := [" example.com"]

def directSetUpdated : FileSystem :=
  ((updateSetFile "/s" directSetUpdate).execute directSetFiles).2

/-- No call meets a fault. -/
def Undisturbed (_ : Call) (fault : Option Fault) : Prop := fault = none

/-- The update of the set, with items that are padded or blank. -/
theorem savesSetFile_direct :
    ∃ saved : RuleSetFileDetail, saved.file = ("/s" : Text) ∧
      SavesSetFile .domainSet asciiPlatform (fun _ => some) 2 Undisturbed "/c"
        "direct" directSetUpdate directSetFiles (.ok saved) directSetUpdated := by
  have before : (detailAt .domainSet asciiPlatform (fun _ => some) 2 "/c" "direct"
      directSetFiles).map (·.map (·.file)) = some (some "/s".toList) := by decide
  have later : (detailAt .domainSet asciiPlatform (fun _ => some) 2 "/c" "direct"
      directSetUpdated).map (·.map (·.file)) = some (some "/s".toList) := by decide
  have written : ((updateSetFile "/s" directSetUpdate).execute directSetFiles).1 = .ok () := by
    decide
  obtain ⟨found, foundEq, sameFile⟩ := Option.map_eq_some_iff.mp before
  obtain ⟨detail, rfl, file⟩ := Option.map_eq_some_iff.mp sameFile
  obtain ⟨again, againEq, stillFile⟩ := Option.map_eq_some_iff.mp later
  obtain ⟨saved, rfl, savedFile⟩ := Option.map_eq_some_iff.mp stillFile
  have gives : (updateSetFile "/s" directSetUpdate).Gives Undisturbed
      directSetFiles (.ok ()) directSetUpdated := by
    have executes := @Program.gives_execute _ Undisturbed (fun _ => rfl)
      (updateSetFile "/s" directSetUpdate) directSetFiles
    rwa [written] at executes
  refine ⟨saved, savedFile, .saved foundEq ?_ ?_ againEq⟩
  · rw [file]
    decide
  · rw [file]
    exact gives

theorem savesSetFile_exact_example :
    ∃ detail old new,
      detailAt .domainSet asciiPlatform (fun _ => some) 2 "/c" "direct" directSetFiles =
        some (some detail) ∧
      readRuleSetItems (treeAt (fun _ => some) directSetFiles) detail.file = .ok old ∧
      readRuleSetItems (treeAt (fun _ => some) directSetUpdated) detail.file = .ok new ∧
      IsUpdate old (normalizeRuleSetItems directSetUpdate.removeItems)
        (normalizeRuleSetItems directSetUpdate.addItems) new := by
  obtain ⟨saved, -, saves⟩ := savesSetFile_direct
  have honest : HonestReads Undisturbed := by
    intro path fault met
    cases met
  obtain ⟨detail, old, new, found, readOld, readNew, update, -⟩ :=
    savesSetFile_exact honest (by decide) saves
  exact ⟨detail, old, new, found, readOld, readNew, update⟩

/-- An item is removed also where the request pads it. -/
theorem not_savesSetFile_exact :
    ¬ ∀ (setKind : SetKind) (platform : Platform)
        (canonicalize : FileSystem → Text → Option Text) (fuel : Nat)
        (allowed : Call → Option Fault → Prop) (configFile name : Text)
        (request : SaveRuleSetFileRequest) (files after : FileSystem)
        (saved : RuleSetFileDetail),
      HonestReads allowed →
      (∀ item ∈ request.addItems ++ request.removeItems, '\n' ∉ item) →
      SavesSetFile setKind platform canonicalize fuel allowed configFile name request files
        (.ok saved) after →
      ∃ detail old new,
        detailAt setKind platform canonicalize fuel configFile name files = some (some detail) ∧
        readRuleSetItems (treeAt canonicalize files) detail.file = .ok old ∧
        readRuleSetItems (treeAt canonicalize after) detail.file = .ok new ∧
        IsUpdate old request.removeItems (normalizeRuleSetItems request.addItems) new := by
  intro all
  obtain ⟨saved, -, saves⟩ := savesSetFile_direct
  have honest : HonestReads Undisturbed := by
    intro path fault met
    cases met
  obtain ⟨detail, old, new, found, readOld, readNew, update⟩ :=
    all _ _ _ _ _ _ _ _ _ _ _ honest (by decide) saves
  have file : (detailAt .domainSet asciiPlatform (fun _ => some) 2 "/c" "direct"
      directSetFiles).map (·.map (·.file)) = some (some "/s".toList) := by decide
  rw [found] at file
  have isFile : detail.file = "/s".toList := Option.some.inj (Option.some.inj file)
  rw [isFile] at readOld readNew
  have old_eq : readRuleSetItems (treeAt (fun _ => some) directSetFiles) "/s" =
      .ok ["example.com".toList, "example.org".toList] := by decide
  have new_eq : readRuleSetItems (treeAt (fun _ => some) directSetUpdated) "/s" =
      .ok ["example.org".toList, "example.net".toList, "example.edu".toList] := by decide
  obtain rfl := Except.ok.inj (old_eq.symm.trans readOld)
  obtain rfl := Except.ok.inj (new_eq.symm.trans readNew)
  have kept := (update.mem_iff "example.com").mpr (.inl (by decide))
  exact absurd kept (by decide)

end SmartDnsPlusUi
