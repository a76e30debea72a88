import SmartDnsPlusUi.Config.LoadSave
import SmartDnsPlusUi.Ui.ReloadedCards
import SmartDnsPlusUi.Ui.SettingsForm

/-!
# Saving from the page again and again

Whatever is edited on the page, it sends all settings as its form holds them.  The form has one
line for the ports of the listeners, and the overview shows the listener that was saved beside
those of the user's own text.
-/

namespace SmartDnsPlusUi

open Files Text

/-! ### The files that are included -/

/-- `MANAGED_CONF_FILES`. -/
def managedConfFiles : List Text := [
  "/10-basic.conf",
  "/20-upstreams.conf",
  "/30-cache.conf",
  "/40-nameserver.conf",
  "/50-rules.conf",
  "/60-sets.conf",
  "/70-logging.conf",
  "/80-network.conf",
  "/plus-ui-basic.conf",
  "/plus-ui-upstreams.conf",
  "/plus-ui-rules.conf"]

/-- `split(/\s+/)` of a trimmed text. -/
def scriptWords (t : Text) : List Text := (t.splitOnP isScriptSpace).filter (· ≠ [])

/-- The word behind the first `-group` that is not the last word. -/
def confFileGroup : List Text → Text
  | option :: group :: rest => if option = "-group" then group else confFileGroup (group :: rest)
  | _ => []

def parseConfFile (raw : Text) : Option ConfFile :=
  let line := scriptTrim raw
  if line = [] ∨ line.head? = some '#' ∨ ¬ ("conf-file " : Text) <+: line then none
  else
    match scriptWords (scriptTrim (line.drop 10)) with
    | [] => none
    | path :: options =>
        some ⟨path, confFileGroup options, managedConfFiles.any (contains · path)⟩

def parseConfFilesFromText (text : Text) : List ConfFile :=
  (text.splitOn '\n').filterMap parseConfFile

/-- The key of an entry, with bars between its parts. -/
def ConfFile.key (file : ConfFile) : Text :=
  join ['|'] [file.path, file.group, if file.managed then "managed" else "custom"]

/-- The entries of the texts, each key once. -/
def collectConfFiles (texts : List Text) : List ConfFile :=
  (texts.flatMap parseConfFilesFromText).foldl (fun files file =>
    if file.key ∈ files.map ConfFile.key then files else files ++ [file]) []

/-! ### One save -/

section

variable (configFile rulesDir : Text) (files : Files.FileSystem)

def pageUpstreams : List UpstreamConfig :=
  parseManagedUpstreamsText (readOverview (textAt files) configFile rulesDir).managedUpstreamsText

/-- What the element for the ports of the listeners holds. -/
def pagePort : Text :=
  shownPort (readOverview (textAt files) configFile rulesDir).beginner.binds

/-- The settings that the page sends. -/
def pageBeginner : BeginnerConfig :=
  let overview := readOverview (textAt files) configFile rulesDir
  resentBasic overview.beginner (pageUpstreams configFile rulesDir files)
    ((collectConfFiles [overview.mainConfigText, overview.managedBasicText]).filter (!·.managed))

/-- The page is loaded, and a save of its settings, with whatever rules, is accepted. -/
def PageSave (after : Files.FileSystem) : Prop :=
  ∃ rulesText validation, validation.ok = true ∧
    (saveBeginnerConfig configFile rulesDir ⟨pageBeginner configFile rulesDir files, rulesText⟩).Gives
      Program.RejectsRenames files (.ok validation) after

end

/-- The ports of the listeners, run together. -/
def ports (binds : List Text) : Text := (binds.map portOf).flatten

theorem ports_append (binds rest : List Text) : ports (binds ++ rest) = ports binds ++ ports rest := by
  rw [ports, List.map_append, List.flatten_append, ← ports, ← ports]

theorem ports_onPort (binds : List Text) : ports [onPort (shownPort binds)] = shownPort binds := by
  rw [ports, List.map_singleton, List.flatten_singleton,
    portOf_onPort (isPort_shownPort binds).2]

theorem filled_onPort (binds : List Text) :
    filled [onPort (shownPort binds)] = [onPort (shownPort binds)] := by
  have trimmed := trim_eq_self (solid_onPort (isPort_shownPort binds).2).trimmed
  have nonempty : onPort (shownPort binds) ≠ [] := List.cons_ne_nil _ _
  simp [filled, trimmed, nonempty]

/-- The listener that was saved keeps the element from being empty. -/
theorem shownPort_between (before binds after : List Text) :
    shownPort (before ++ [onPort (shownPort binds)] ++ after) =
      ports before ++ shownPort binds ++ ports after := by
  have together : ports (before ++ [onPort (shownPort binds)] ++ after) =
      ports before ++ shownPort binds ++ ports after := by
    rw [ports_append, ports_append, ports_onPort]
  have nonempty := (isPort_shownPort binds).1
  rw [shownPort, ← ports, together, orElse, if_neg]
  simp [nonempty]

section

variable {configFile rulesDir : Text} {files after : Files.FileSystem}

theorem stableSort_stableSort {Key Element : Type} [LinearOrder Key] (key : Element → Option Key)
    (elements : List Element) : stableSort key (stableSort key elements) = stableSort key elements := by
  apply List.mergeSort_of_pairwise
  exact (pairwise_stableSort key elements).imp fun le => decide_eq_true le

/-- What the page shows after it has saved. -/
theorem IsOwnConfig.pageSave (own : IsOwnConfig configFile rulesDir files)
    (plain : ∀ u ∈ pageUpstreams configFile rulesDir files, IsPlainUpstream u)
    (fits : RowsFit (pageBeginner configFile rulesDir files))
    (save : PageSave configFile rulesDir files after) :
    IsOwnConfig configFile rulesDir after ∧
      ownDirectives after configFile = ownDirectives files configFile ∧
      pageUpstreams configFile rulesDir after =
        stableSort firstGroup (pageUpstreams configFile rulesDir files) ∧
      pagePort configFile rulesDir after =
        ports (settingsOf (ownDirectives files configFile).1).binds ++
          pagePort configFile rulesDir files ++
          ports (settingsOf (ownDirectives files configFile).2).binds := by
  obtain ⟨rulesText, validation, accepted, gives⟩ := save
  have sent : (pageBeginner configFile rulesDir files).upstreams =
      pageUpstreams configFile rulesDir files := rfl
  have port : (pageBeginner configFile rulesDir files).binds =
      [onPort (pagePort configFile rulesDir files)] := binds_resentBasic _ _ _
  generalize pageBeginner configFile rulesDir files = config at *
  obtain ⟨⟨u, listed, -⟩, can, rfl⟩ := savedBy_of_valid gives accepted
  have nonempty : config.upstreams ≠ [] := List.ne_nil_of_mem listed
  rw [← sent] at plain
  have servers : ∀ directive ∈ directives (renderUpstreamsConfig config),
      beginnerKeyword directive.key = .upstream := by
    rw [directives_renderUpstreamsConfig nonempty (fun u listed => (plain u listed).readable)
      fun u listed => (plain u listed).no_backslash]
    intro directive among
    obtain ⟨u, -, rfl⟩ := List.mem_map.mp among
    exact beginnerKeyword_upstreamLine u
  have saved : valuesOf .bind (savedDirectives ⟨config, rulesText⟩) = config.binds := by
    have lists := @listsRows_savedDirectives ⟨config, rulesText⟩ fits servers
    have written : writtenBinds config = config.binds := by simp [writtenBinds, port]
    rw [lists.valuesOf (by decide), fieldValues, written, port, pagePort, filled_onPort]
  have loaded := loadedDirectives_savedBy can fits own.one_line own.apart own.no_marker_before
    own.no_marker_after
  refine ⟨own.savedBy _, own.ownDirectives_savedBy _, ?_, ?_⟩
  · rw [pageUpstreams, managedUpstreamsText_savedBy can fun name managed => (own.apart name managed).not_path,
      parseManagedUpstreamsText_renderUpstreamsConfig nonempty plain, sent]
  · have binds : (settingsOf ((ownDirectives files configFile).1 ++
        savedDirectives ⟨config, rulesText⟩ ++ (ownDirectives files configFile).2)).binds =
          (settingsOf (ownDirectives files configFile).1).binds ++ config.binds ++
            (settingsOf (ownDirectives files configFile).2).binds := by
      rw [← saved]
      dsimp only [settingsOf]
      rw [valuesOf_append, valuesOf_append]
    rw [pagePort, beginner_readOverview, loaded, binds, port]
    exact shownPort_between _ _ _

/-! ### A run of saves -/

variable {states : Nat → Files.FileSystem} {n : Nat}

theorem isOwnConfig_of_pageSaves (own : IsOwnConfig configFile rulesDir (states 0))
    (plain : ∀ u ∈ pageUpstreams configFile rulesDir (states 0), IsPlainUpstream u)
    (fits : ∀ i < n, RowsFit (pageBeginner configFile rulesDir (states i)))
    (saves : ∀ i < n, PageSave configFile rulesDir (states i) (states (i + 1))) :
    IsOwnConfig configFile rulesDir (states n) ∧
      ownDirectives (states n) configFile = ownDirectives (states 0) configFile ∧
      (pageUpstreams configFile rulesDir (states n) =
        if n = 0 then pageUpstreams configFile rulesDir (states 0)
        else stableSort firstGroup (pageUpstreams configFile rulesDir (states 0))) ∧
      pagePort configFile rulesDir (states n) =
        repeated n (ports (ownSettings (states 0) configFile).1.binds) ++
          pagePort configFile rulesDir (states 0) ++
          repeated n (ports (ownSettings (states 0) configFile).2.binds) := by
  induction n with
  | zero => exact ⟨own, rfl, rfl, by simp [repeated]⟩
  | succ n inductionHypothesis =>
      obtain ⟨still, same, upstreams, port⟩ := inductionHypothesis
        (fun i less => fits i (Nat.lt_succ_of_lt less))
        fun i less => saves i (Nat.lt_succ_of_lt less)
      have still' : ∀ u ∈ pageUpstreams configFile rulesDir (states n), IsPlainUpstream u := by
        rw [upstreams]
        split_ifs
        · exact plain
        · exact fun u listed => plain u ((perm_stableSort firstGroup _).mem_iff.mp listed)
      obtain ⟨next, same', upstreams', port'⟩ :=
        still.pageSave still' (fits n n.lt_succ_self) (saves n n.lt_succ_self)
      refine ⟨next, same'.trans same, ?_, ?_⟩
      · rw [upstreams', upstreams, if_neg n.succ_ne_zero]
        split_ifs
        · rfl
        · exact stableSort_stableSort firstGroup _
      · have last := @repeated_append_self _
          (ports (settingsOf (ownDirectives (states 0) configFile).2).binds) n
        rw [port', port, same, ownSettings_eq, repeated_succ, repeated_succ, ← last]
        simp only [List.append_assoc]

end

/-- A main configuration with a listener, and an upstream server in the managed page. -/
def oneListener : Files.FileSystem := fun path =>
  if path = "/etc/smartdns.conf" then some (.text "bind [::]:53")
  else if path = managedPath "/etc/smartdns/rules" upstreamsFileName then
    some (.text "server 1.1.1.1")
  else none

theorem isOwnConfig_oneListener :
    IsOwnConfig "/etc/smartdns.conf" "/etc/smartdns/rules" oneListener := by
  have parts : userParts (textAt oneListener "/etc/smartdns.conf") =
      (("bind [::]:53" : Text), ([] : Text)) := by decide
  have none : splitAtFirst managedBegin (textAt oneListener "/etc/smartdns.conf") = none := by
    decide
  refine ⟨isSteady_ownListener.one_line, isSteady_ownListener.no_end, isSteady_ownListener.apart,
    ?_, ?_⟩
  · intro before rest opened
    rw [none] at opened
    cases opened
  · rw [parts]
    decide

theorem pageUpstreams_oneListener : pageUpstreams "/etc/smartdns.conf" "/etc/smartdns/rules"
    oneListener = [{ kind := "server", value := "1.1.1.1" }] := by decide

theorem isPlainUpstream_server : IsPlainUpstream { kind := "server", value := "1.1.1.1" } where
  readable := by
    constructor
    case options => exact ⟨[], isPassthrough_nil, rfl⟩
    all_goals decide
  value := by decide
  groups := by decide
  proxy := isPlainEntry_nil
  bootstrap := isPlainEntry_nil
  host_ip := isPlainEntry_nil
  subnet := isPlainEntry_nil
  options := ⟨[], isPassthrough_nil, rfl, by decide⟩
  kind := by decide

end SmartDnsPlusUi
