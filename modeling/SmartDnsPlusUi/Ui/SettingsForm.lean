import SmartDnsPlusUi.Config.SettingsScan
import SmartDnsPlusUi.Ui.OptionsText

/-!
# The form of the settings

The page shows the settings in the elements of a form.  With every save it sends what the
elements hold, also of the settings that were not edited.
-/

namespace SmartDnsPlusUi

open Text

/-! ### Elements -/

/-- What an input element of one line holds of a text. -/
def lineValue (t : Text) : Text := t.filter fun c => c ≠ '\n' && c ≠ '\r'

/-- What a `textarea` holds of a text. -/
def areaValue : Text → Text
  | [] => []
  | '\r' :: '\n' :: t => '\n' :: areaValue t
  | '\r' :: t => '\n' :: areaValue t
  | c :: t => c :: areaValue t

/-- What a `select` holds: the choice, if it is offered. -/
def selectValue (choices : List Text) (t : Text) : Text := if t ∈ choices then t else []

/-- The text, or another one if it is empty. -/
def orElse (t other : Text) : Text := if t = [] then other else t

/-- The digits behind the last colon, or nothing. -/
def portOf (address : Text) : Text :=
  match splitAtLast ':' address with
  | some (_, port) => if port.all Char.isDigit then port else []
  | none => []

def onPort (port : Text) : Text := ("[::]:" : Text) ++ port

inductive ExtraElement
  | input
  | area
  | select (choices : List Text)
  | check

/-- The extras with an element of their own, read and written under the same key. -/
def extraElements : List (String × ExtraElement) := [
  ("bind-tls", .area),
  ("bind-https", .area),
  ("bind-cert-file", .input),
  ("bind-cert-key-file", .input),
  ("bind-cert-generate", .select ["", "auto", "yes", "no"]),
  ("bind-cert-san", .input),
  ("bind-cert-key-pass", .input),
  ("bind-cert-root-key-file", .input),
  ("bind-cert-validity-days", .input),
  ("user", .input),
  ("socket-buff-size", .input),
  ("no-daemon", .check),
  ("restart-on-crash", .check),
  ("expand-ptr-from-address", .check),
  ("rr-ttl-min", .input),
  ("rr-ttl-max", .input),
  ("rr-ttl-reply-max", .input),
  ("local-ttl", .input),
  ("max-reply-ip-num", .input),
  ("max-query-limit", .input),
  ("tcp-idle-time", .input),
  ("serve-expired-reply-ttl", .input),
  ("serve-expired-prefetch-time", .input),
  ("dualstack-ip-selection-threshold", .input),
  ("cache-persist", .select ["", "yes", "no"]),
  ("cache-file", .input),
  ("hosts-file", .input),
  ("ca-file", .input),
  ("ca-path", .input),
  ("log-file", .input),
  ("log-size", .input),
  ("log-num", .input),
  ("log-console", .check),
  ("log-syslog", .check),
  ("audit-file", .input),
  ("audit-size", .input),
  ("audit-num", .input),
  ("audit-console", .check),
  ("force-qtype-SOA", .input),
  ("force-AAAA-SOA", .check),
  ("force-no-CNAME", .check),
  ("edns-client-subnet", .input),
  ("dns64", .input),
  ("ddns-domain", .input),
  ("local-domain", .input),
  ("dnsmasq-lease-file", .input)]

def extraElement (key : String) : Option ExtraElement := extraElements.lookup key

/-- The elements of the form; those of the extras by their keys. -/
structure SettingsForm where
  serverName : Text := []
  bind : Text := []
  mdnsLookup : Bool := false
  cacheSize : Text := []
  serveExpiredTtl : Text := []
  responseMode : Text := []
  speedCheckMode : Text := []
  prefetchDomain : Bool := false
  serveExpired : Bool := false
  dualstack : Bool := false
  logLevel : Text := []
  auditEnable : Bool := false
  bindTcp : Text := []
  proxyAddr : Text := []
  proxyName : Text := []
  contents : String → Text := fun _ => []
  checked : String → Bool := fun _ => false

/-! ### Filling the form -/

def responseModes : List Text := ["first-ping", "fastest-ip", "fastest-response"]

def logLevels : List Text := ["error", "warn", "notice", "info", "debug"]

/-- The element for the ports has a single line. -/
def fillBasic (b : BeginnerConfig) (form : SettingsForm) : SettingsForm :=
  let bindPort := join ['\n'] ((b.binds.map portOf).filter (· ≠ []))
  { form with
    serverName := lineValue b.serverName
    bind := lineValue (orElse bindPort "11153")
    mdnsLookup := b.mdnsLookup
    cacheSize := lineValue b.cacheSize
    serveExpiredTtl := lineValue b.serveExpiredTtl
    responseMode := selectValue responseModes (orElse b.responseMode "first-ping")
    speedCheckMode := lineValue b.speedCheckMode
    prefetchDomain := b.prefetchDomain
    serveExpired := b.serveExpired
    dualstack := b.dualstackIpSelection
    logLevel := selectValue logLevels (orElse b.logLevel "info")
    auditEnable := b.auditEnable }

/-- `\s+(.+)$`: if nothing follows the white space, its last character is left for the group. -/
def matchRest (t : Text) : Option Text :=
  let spaces := t.takeWhile isScriptSpace
  let rest := t.dropWhile isScriptSpace
  let group := if rest = [] then spaces.getLast?.toList else rest
  if spaces ≠ group ∧ spaces ≠ [] ∧ IsOneLine group then some group else none

/-- `\s+-name\s+(.+)$`. -/
def matchName (t : Text) : Option Text :=
  let option := t.dropWhile isScriptSpace
  if option ≠ t ∧ ("-name" : Text) <+: option then matchRest (option.drop 5) else none

/-- `match(/^(.+?)\s+-name\s+(.+)$/)`, where `before` is the part of the first group that was read. -/
def matchProxy (before : Text) : Text → Option (Text × Text)
  | [] => none
  | c :: t =>
      if isLineTerminator c then none
      else
        match matchName t with
        | some name => some (before ++ [c], name)
        | none => matchProxy (before ++ [c]) t

def ExtraElement.value : ExtraElement → Text → Text
  | input, t => lineValue t
  | area, t => areaValue t
  | select choices, t => selectValue choices t
  | check, _ => []

def fillExtras (extras : String → Option Text) (form : SettingsForm) : SettingsForm :=
  let proxyServer := (extras "proxy-server").getD []
  let proxy := matchProxy [] proxyServer
  { form with
    bindTcp := portOf ((extras "bind-tcp").getD [])
    proxyAddr := lineValue (proxy.elim proxyServer Prod.fst)
    proxyName := lineValue (proxy.elim [] Prod.snd)
    contents := fun key =>
      (extraElement key).elim [] fun element => element.value ((extras key).getD [])
    checked := fun key => extras key = some ("yes" : Text) ∨ extras key = some [] }

/-! ### Reading the form -/

structure ConfFile where
  path : Text
  group : Text
  managed : Bool
  deriving DecidableEq

namespace SettingsForm

def kv (value : Text) : Option Text :=
  if scriptTrim value = [] then none else some (scriptTrim value)

def visiblePieces (value : Text) : List Text :=
  ((value.splitOn '\n').map scriptTrim).filter (· ≠ [])

def km (value : Text) : Option Text :=
  let text := join ['\n'] (visiblePieces value)
  if text = [] then none else some text

def kp (value : Text) : Option Text :=
  if scriptTrim value = [] then none else some (onPort (scriptTrim value))

def cb (checked : Bool) : Option Text := if checked then some "yes" else none

end SettingsForm

open SettingsForm

def ExtraElement.collect : ExtraElement → Text → Bool → Option Text
  | input, content, _ => kv content
  | area, content, _ => km content
  | select _, content, _ => kv content
  | check, _, checked => cb checked

def collectProxy (form : SettingsForm) : Option Text :=
  let name := scriptTrim form.proxyName
  let addr := scriptTrim form.proxyAddr
  if addr = [] then none
  else kv (if name = [] then addr else addr ++ (" -name " : Text) ++ name)

def ConfFile.entry (file : ConfFile) : Text :=
  file.path ++ if file.group = [] then [] else (" -group " : Text) ++ file.group

def listConfFiles (files : List ConfFile) : Option Text :=
  files.foldl (fun listed file =>
    let before := listed.getD []
    some (before ++ (if before = [] then [] else ", ") ++ file.entry)) none

def collectExtras (form : SettingsForm) (confFiles : List ConfFile) (key : String) : Option Text :=
  match extraElement key with
  | some element => element.collect (form.contents key) (form.checked key)
  | none =>
      if key = "bind-tcp" then kp form.bindTcp
      else if key = "proxy-server" then collectProxy form
      else if key = "conf-file" then listConfFiles confFiles
      else none

def collectBasic (form : SettingsForm) (upstreams : List UpstreamConfig)
    (confFiles : List ConfFile) : BeginnerConfig where
  serverName := scriptTrim form.serverName
  binds := (visiblePieces form.bind).map onPort
  cacheSize := scriptTrim form.cacheSize
  prefetchDomain := form.prefetchDomain
  serveExpired := form.serveExpired
  serveExpiredTtl := scriptTrim form.serveExpiredTtl
  responseMode := form.responseMode
  speedCheckMode := scriptTrim form.speedCheckMode
  dualstackIpSelection := form.dualstack
  logLevel := form.logLevel
  mdnsLookup := form.mdnsLookup
  auditEnable := form.auditEnable
  upstreams := upstreams
  extras := collectExtras form confFiles

/-- The settings that are sent when nothing was edited. -/
def resentBasic (b : BeginnerConfig) (upstreams : List UpstreamConfig) (confFiles : List ConfFile) :
    BeginnerConfig :=
  collectBasic (fillExtras b.extras (fillBasic b {})) upstreams confFiles

/-! ### What an element keeps -/

/-- A text that an element of one line keeps. -/
structure IsLine (t : Text) : Prop where
  trimmed : scriptTrim t = t
  no_newline : '\n' ∉ t
  no_return : '\r' ∉ t

theorem lineValue_eq_self {t : Text} (noNewline : '\n' ∉ t) (noReturn : '\r' ∉ t) :
    lineValue t = t := by
  apply List.filter_eq_self.mpr
  intro c listed
  have newline : c ≠ '\n' := fun same => noNewline (same ▸ listed)
  have carriage : c ≠ '\r' := fun same => noReturn (same ▸ listed)
  simp [newline, carriage]

theorem isLine_lineValue (t : Text) : IsLine (scriptTrim (lineValue t)) := by
  have inside := (scriptTrim_isInfix (lineValue t)).subset
  refine ⟨scriptTrim_scriptTrim _, ?_, ?_⟩
  · intro newline
    simpa using (List.mem_filter.mp (inside newline)).2
  · intro carriage
    simpa using (List.mem_filter.mp (inside carriage)).2

theorem IsLine.lineValue_eq {t : Text} (line : IsLine t) : lineValue t = t :=
  lineValue_eq_self line.no_newline line.no_return

theorem scriptTrim_lineValue_eq_iff {t : Text} : scriptTrim (lineValue t) = t ↔ IsLine t := by
  constructor
  · intro same
    rw [← same]
    exact isLine_lineValue t
  · intro line
    rw [line.lineValue_eq, line.trimmed]

theorem areaValue_eq_self {t : Text} (noReturn : '\r' ∉ t) : areaValue t = t := by
  fun_induction areaValue t with
  | case1 => rfl
  | case2 t inductionHypothesis => exact absurd List.mem_cons_self noReturn
  | case3 t other inductionHypothesis => exact absurd List.mem_cons_self noReturn
  | case4 c t other other' inductionHypothesis =>
      rw [inductionHypothesis fun listed => noReturn (List.mem_cons_of_mem c listed)]

theorem no_return_areaValue (t : Text) : '\r' ∉ areaValue t := by
  fun_induction areaValue t with
  | case1 => exact List.not_mem_nil
  | case2 t inductionHypothesis => simpa using inductionHypothesis
  | case3 t other inductionHypothesis => simpa using inductionHypothesis
  | case4 c t other other' inductionHypothesis =>
      have apart : '\r' ≠ c := by
        rintro rfl
        exact other' rfl
      simp [apart, inductionHypothesis]

theorem mem_of_mem_join {separator : Text} {parts : List Text} {c : Char}
    (listed : c ∈ join separator parts) : c ∈ separator ∨ ∃ part ∈ parts, c ∈ part := by
  induction parts with
  | nil => cases listed
  | cons part parts inductionHypothesis =>
      by_cases last : parts = []
      · subst last
        exact Or.inr ⟨part, List.mem_cons_self, by simpa [join] using listed⟩
      · rw [join, List.intercalate_cons_of_ne_nil last, List.mem_append, List.mem_append] at listed
        rcases listed with (first | between) | later
        · exact Or.inr ⟨part, List.mem_cons_self, first⟩
        · exact Or.inl between
        · rcases inductionHypothesis later with between | ⟨other, among, inside⟩
          · exact Or.inl between
          · exact Or.inr ⟨other, List.mem_cons_of_mem part among, inside⟩

theorem mem_visiblePieces {value line : Text} (listed : line ∈ visiblePieces value) :
    line ≠ [] ∧ scriptTrim line = line ∧ line ⊆ value ∧ '\n' ∉ line := by
  obtain ⟨trimmed, nonempty⟩ := List.mem_filter.mp listed
  obtain ⟨piece, inside, rfl⟩ := List.mem_map.mp trimmed
  have within := (scriptTrim_isInfix piece).subset
  refine ⟨by simpa using nonempty, scriptTrim_scriptTrim piece, ?_, ?_⟩
  · exact fun c listed => (infix_of_mem_splitOn inside).subset (within listed)
  · exact fun newline => not_mem_of_mem_splitOn value piece inside (within newline)

/-- Lines that a `textarea` keeps. -/
def AreLines (t : Text) : Prop :=
  '\r' ∉ t ∧ ∀ line ∈ t.splitOn '\n', line ≠ [] ∧ scriptTrim line = line

theorem km_areaValue_iff {t : Text} : km (areaValue t) = some t ↔ AreLines t := by
  have noReturn := no_return_areaValue t
  constructor
  · intro same
    have text : join ['\n'] (visiblePieces (areaValue t)) = t := by
      unfold km at same
      dsimp only at same
      split_ifs at same
      exact Option.some.inj same
    have nonempty : visiblePieces (areaValue t) ≠ [] := by
      intro none
      rw [km, none] at same
      cases same
    have pieces : t.splitOn '\n' = visiblePieces (areaValue t) := by
      conv_lhs => rw [← text]
      exact List.splitOn_intercalate '\n' (fun line listed => (mem_visiblePieces listed).2.2.2)
        nonempty
    constructor
    · intro carriage
      rw [← text] at carriage
      rcases mem_of_mem_join carriage with separator | ⟨line, listed, inside⟩
      · exact absurd separator (by decide)
      · exact noReturn ((mem_visiblePieces listed).2.2.1 inside)
    · rw [pieces]
      exact fun line listed => ⟨(mem_visiblePieces listed).1, (mem_visiblePieces listed).2.1⟩
  · rintro ⟨noReturn, lines⟩
    have pieces : visiblePieces t = t.splitOn '\n' := by
      have trimmed : (t.splitOn '\n').map scriptTrim = t.splitOn '\n' :=
        (List.map_congr_left fun line listed => (lines line listed).2).trans (List.map_id _)
      rw [visiblePieces, trimmed]
      apply List.filter_eq_self.mpr
      exact fun line listed => by simpa using (lines line listed).1
    have whole : join ['\n'] (t.splitOn '\n') = t := List.intercalate_splitOn '\n'
    have nonempty : t ≠ [] := by
      rintro rfl
      exact (lines [] (by simp)).1 rfl
    rw [areaValue_eq_self noReturn, km, pieces, whole, if_neg nonempty]

theorem kv_eq_some_iff {value t : Text} : kv value = some t ↔ scriptTrim value = t ∧ t ≠ [] := by
  unfold kv
  split_ifs with empty
  · constructor
    · intro same
      cases same
    · rintro ⟨rfl, nonempty⟩
      exact absurd empty nonempty
  · constructor
    · rintro ⟨⟩
      exact ⟨rfl, empty⟩
    · rintro ⟨rfl, -⟩
      rfl

/-- The values that an element keeps. -/
def ExtraElement.Keeps : ExtraElement → Text → Prop
  | input, value => IsLine value ∧ value ≠ []
  | area, value => AreLines value
  | select choices, value => value ∈ choices ∧ scriptTrim value = value ∧ value ≠ []
  | check, value => value = "yes"

theorem ExtraElement.collect_value_iff (element : ExtraElement) (value : Text) (checked : Bool)
    (isChecked : checked = true ↔ value = "yes" ∨ value = []) :
    element.collect (element.value value) checked = some value ↔ element.Keeps value := by
  cases element with
  | input =>
      exact kv_eq_some_iff.trans (and_congr_left' scriptTrim_lineValue_eq_iff)
  | area => exact km_areaValue_iff
  | select choices =>
      unfold collect ExtraElement.value Keeps selectValue
      dsimp only
      rw [kv_eq_some_iff]
      by_cases offered : value ∈ choices
      · simp [offered]
      · rw [if_neg offered]
        constructor
        · rintro ⟨rfl, nonempty⟩
          exact absurd rfl nonempty
        · exact fun keeps => absurd keeps.1 offered
  | check =>
      unfold collect Keeps cb
      dsimp only
      constructor
      · intro same
        split_ifs at same
        exact (Option.some.inj same).symm
      · intro yes
        rw [if_pos (isChecked.mpr (.inl yes)), yes]

theorem ExtraElement.collect_none (element : ExtraElement) :
    element.collect (element.value []) false = none := by
  cases element with
  | input => rfl
  | area => rfl
  | select choices =>
      unfold collect ExtraElement.value selectValue
      dsimp only
      rw [ite_self]
      rfl
  | check => rfl


/-! ### Ports -/

def IsPort (port : Text) : Prop := port ≠ [] ∧ ∀ c ∈ port, c.isDigit = true

instance (port : Text) : Decidable (IsPort port) := inferInstanceAs (Decidable (_ ∧ _))

theorem isWhitespace_of_isDigit {c : Char} (digit : c.isDigit = true) :
    isWhitespace c = false := by
  have range : 48 ≤ c.toNat ∧ c.toNat ≤ 57 := by
    unfold Char.isDigit at digit
    rw [Bool.and_eq_true, decide_eq_true_eq, decide_eq_true_eq] at digit
    exact digit
  simp only [isWhitespace, Bool.or_eq_false_iff, Bool.and_eq_false_iff, decide_eq_false_iff_not,
    beq_eq_false_iff_ne]
  omega

theorem isScriptSpace_of_isDigit {c : Char} (digit : c.isDigit = true) :
    isScriptSpace c = false := by
  have noMark : c ≠ byteOrderMark := by
    rintro rfl
    exact absurd digit (by decide)
  simp [isScriptSpace, isWhitespace_of_isDigit digit, noMark]

theorem digits_portOf (address : Text) : ∀ c ∈ portOf address, c.isDigit = true := by
  intro c listed
  unfold portOf at listed
  split at listed
  · split_ifs at listed with digits
    · exact List.all_eq_true.mp digits c listed
    · cases listed
  · cases listed

theorem portOf_onPort {port : Text} (digits : ∀ c ∈ port, c.isDigit = true) :
    portOf (onPort port) = port := by
  have absent : ':' ∉ port := fun colon => absurd (digits ':' colon) (by decide)
  have split : splitAtLast ':' (onPort port) = some (("[::]" : Text), port) :=
    splitAtLast_append_cons "[::]" absent
  rw [portOf, split]
  exact if_pos (List.all_eq_true.mpr digits)

theorem solid_onPort {port : Text} (digits : ∀ c ∈ port, c.isDigit = true) :
    Solid (onPort port) := by
  intro c listed
  rcases List.mem_append.mp listed with before | inside
  · have opening : Solid ("[::]:" : Text) := by decide
    exact opening c before
  · exact isWhitespace_of_isDigit (digits c inside)

theorem isLine_of_digits {port : Text} (digits : ∀ c ∈ port, c.isDigit = true) : IsLine port := by
  constructor
  · apply scriptTrim_eq_self_iff.mpr
    constructor
    · exact fun c first => isScriptSpace_of_isDigit (digits c (List.mem_of_mem_head? first))
    · exact fun c last => isScriptSpace_of_isDigit (digits c (List.mem_of_mem_getLast? last))
  · exact fun newline => absurd (digits _ newline) (by decide)
  · exact fun carriage => absurd (digits _ carriage) (by decide)

/-- The element for the ports runs them together, as it has no place for a second line. -/
def shownPort (binds : List Text) : Text := orElse (binds.map portOf).flatten "11153"

theorem isPort_shownPort (binds : List Text) : IsPort (shownPort binds) := by
  unfold shownPort orElse
  split_ifs with empty
  · exact ⟨List.cons_ne_nil _ _, List.all_eq_true.mp rfl⟩
  · refine ⟨empty, ?_⟩
    intro c listed
    obtain ⟨port, among, inside⟩ := List.mem_flatten.mp listed
    obtain ⟨address, -, rfl⟩ := List.mem_map.mp among
    exact digits_portOf address c inside

theorem lineValue_join {parts : List Text} (lines : ∀ part ∈ parts, IsLine part) :
    lineValue (join ['\n'] parts) = parts.flatten := by
  induction parts with
  | nil => rfl
  | cons part parts inductionHypothesis =>
      rw [List.forall_mem_cons] at lines
      by_cases last : parts = []
      · subst last
        simpa [join] using lines.1.lineValue_eq
      · rw [join, List.intercalate_cons_of_ne_nil last, lineValue, List.filter_append,
          List.filter_append, ← lineValue, ← lineValue, ← lineValue, lines.1.lineValue_eq, ← join,
          inductionHypothesis lines.2]
        simp [lineValue]

theorem bind_fillBasic (b : BeginnerConfig) (form : SettingsForm) :
    (fillBasic b form).bind = shownPort b.binds := by
  have lines : ∀ port ∈ (b.binds.map portOf).filter (· ≠ []), IsLine port ∧ port ≠ [] := by
    intro port listed
    obtain ⟨among, nonempty⟩ := List.mem_filter.mp listed
    obtain ⟨address, -, rfl⟩ := List.mem_map.mp among
    exact ⟨isLine_of_digits (digits_portOf address), by simpa using nonempty⟩
  have flat : ((b.binds.map portOf).filter (· ≠ [])).flatten = (b.binds.map portOf).flatten :=
    List.flatten_filter_ne_nil
  have together := lineValue_join fun port listed => (lines port listed).1
  rw [flat] at together
  unfold fillBasic shownPort orElse
  dsimp only
  rw [← together]
  generalize (b.binds.map portOf).filter (· ≠ []) = ports at lines
  by_cases none : ports = []
  · subst none
    rfl
  · have shown : lineValue (join ['\n'] ports) ≠ [] := by
      rw [lineValue_join fun port listed => (lines port listed).1]
      obtain ⟨port, rest, rfl⟩ := List.exists_cons_of_ne_nil none
      simp [(lines port List.mem_cons_self).2]
    have joined : join ['\n'] ports ≠ [] := by
      intro empty
      rw [empty] at shown
      exact shown rfl
    rw [if_neg joined, if_neg shown]

theorem visiblePieces_of_isPort {port : Text} (isPort : IsPort port) :
    visiblePieces port = [port] := by
  have line := isLine_of_digits isPort.2
  rw [visiblePieces, splitOn_of_not_mem line.no_newline, List.map_singleton, line.trimmed]
  simp [isPort.1]

/-- Whatever the listeners are, a single one is sent. -/
theorem binds_resentBasic (b : BeginnerConfig) (upstreams : List UpstreamConfig)
    (confFiles : List ConfFile) :
    (resentBasic b upstreams confFiles).binds = [onPort (shownPort b.binds)] := by
  have filled : (fillExtras b.extras (fillBasic b {})).bind = shownPort b.binds :=
    bind_fillBasic b {}
  have sent : (resentBasic b upstreams confFiles).binds =
      (visiblePieces (fillExtras b.extras (fillBasic b {})).bind).map onPort := rfl
  rw [sent, filled, visiblePieces_of_isPort (isPort_shownPort b.binds), List.map_singleton]

theorem kp_portOf_iff {address : Text} :
    kp (portOf address) = some address ↔ ∃ port, IsPort port ∧ address = onPort port := by
  have trimmed := (isLine_of_digits (digits_portOf address)).trimmed
  unfold kp
  rw [trimmed]
  constructor
  · intro same
    split_ifs at same with empty
    exact ⟨portOf address, ⟨empty, digits_portOf address⟩, (Option.some.inj same).symm⟩
  · rintro ⟨port, isPort, rfl⟩
    rw [portOf_onPort isPort.2, if_neg isPort.1]

/-! ### The proxy -/

theorem matchRest_eq_some {t group : Text} (found : matchRest t = some group) :
    ∃ gap, t = gap ++ group ∧ gap ≠ [] ∧ group ≠ [] := by
  have whole := List.takeWhile_append_dropWhile (p := isScriptSpace) (l := t)
  unfold matchRest at found
  dsimp only at found
  generalize t.takeWhile isScriptSpace = spaces at found whole
  generalize t.dropWhile isScriptSpace = rest at found whole
  subst whole
  by_cases empty : rest = []
  · subst empty
    rw [if_pos rfl] at found
    split_ifs at found with matched
    cases found
    obtain ⟨last, ends⟩ := Option.ne_none_iff_exists'.mp
      (mt List.getLast?_eq_none_iff.mp matched.2.1)
    obtain ⟨front, rfl⟩ := List.getLast?_eq_some_iff.mp ends
    rw [ends] at matched ⊢
    refine ⟨front, by simp, ?_, List.cons_ne_nil _ _⟩
    rintro rfl
    exact matched.1 rfl
  · rw [if_neg empty] at found
    split_ifs at found with matched
    cases found
    exact ⟨spaces, rfl, matched.2.1, empty⟩

theorem matchName_eq_some {t name : Text} (found : matchName t = some name) :
    ∃ gap gap', t = gap ++ (("-name" : Text) ++ (gap' ++ name)) ∧ gap ≠ [] ∧ gap' ≠ [] ∧
      name ≠ [] := by
  have whole := List.takeWhile_append_dropWhile (p := isScriptSpace) (l := t)
  unfold matchName at found
  dsimp only at found
  generalize t.dropWhile isScriptSpace = option at found whole
  generalize t.takeWhile isScriptSpace = gap at whole
  subst whole
  split_ifs at found with opened
  obtain ⟨rest, rfl⟩ := opened.2
  obtain ⟨gap', rfl, some, nonempty⟩ := matchRest_eq_some (t := rest) found
  refine ⟨gap, gap', rfl, ?_, some, nonempty⟩
  rintro rfl
  exact opened.1 rfl

/-- The two parts lie in the text in this order, with the option between them. -/
theorem matchProxy_eq_some {before t addr name : Text}
    (found : matchProxy before t = some (addr, name)) :
    ∃ gap gap', before ++ t = addr ++ (gap ++ (("-name" : Text) ++ (gap' ++ name))) ∧
      gap ≠ [] ∧ gap' ≠ [] ∧ addr ≠ [] ∧ name ≠ [] := by
  fun_induction matchProxy before t with
  | case1 => cases found
  | case2 => cases found
  | case3 before c t notEnd other named =>
      cases found
      obtain ⟨gap, gap', rfl, some, some', nonempty⟩ := matchName_eq_some named
      exact ⟨gap, gap', by simp, some, some', by simp, nonempty⟩
  | case4 before c t notEnd unnamed inductionHypothesis =>
      obtain ⟨gap, gap', whole, rest⟩ := inductionHypothesis found
      exact ⟨gap, gap', by rw [← whole]; simp, rest⟩

/-- A proxy that the form keeps; a named one has a single space on either side of the option. -/
def KeepsProxy (value : Text) : Prop :=
  match matchProxy [] value with
  | none => IsLine value ∧ value ≠ []
  | some (addr, name) => IsLine addr ∧ IsLine name ∧ value = addr ++ ((" -name " : Text) ++ name)

theorem isLine_append {addr name : Text} (first : IsLine addr) (last : IsLine name)
    (nonempty : addr ≠ []) (nonempty' : name ≠ []) :
    scriptTrim (addr ++ ((" -name " : Text) ++ name)) = addr ++ ((" -name " : Text) ++ name) := by
  apply scriptTrim_eq_self_iff.mpr
  constructor
  · intro c head
    rw [List.head?_append_of_ne_nil _ nonempty] at head
    exact (scriptTrim_eq_self_iff.mp first.trimmed).1 c head
  · intro c ends
    rw [List.getLast?_append_of_ne_nil _ (by simp), List.getLast?_append_of_ne_nil _ nonempty'] at ends
    exact (scriptTrim_eq_self_iff.mp last.trimmed).2 c ends

theorem scriptTrim_lineValue_sublist (t : Text) : (scriptTrim (lineValue t)).Sublist t :=
  (scriptTrim_isInfix _).sublist.trans List.filter_sublist

theorem collectProxy_iff (form : SettingsForm) (value : Text) (addr name : Text)
    (shown : form.proxyAddr = lineValue addr ∧ form.proxyName = lineValue name)
    (parts : (addr, name) = (matchProxy [] value).getD (value, [])) :
    collectProxy form = some value ↔ KeepsProxy value := by
  unfold collectProxy KeepsProxy
  dsimp only
  rw [shown.1, shown.2]
  cases found : matchProxy [] value with
  | none =>
      rw [found] at parts
      obtain ⟨rfl, rfl⟩ := Prod.mk.inj parts
      have noName : scriptTrim (lineValue []) = [] := rfl
      rw [noName, if_pos rfl]
      dsimp only
      by_cases empty : scriptTrim (lineValue addr) = []
      · rw [if_pos empty]
        constructor
        · intro same
          cases same
        · rintro ⟨line, nonempty⟩
          rw [scriptTrim_lineValue_eq_iff.mpr line] at empty
          exact absurd empty nonempty
      · rw [if_neg empty, kv_eq_some_iff, scriptTrim_scriptTrim, scriptTrim_lineValue_eq_iff]
  | some pair =>
      rw [found] at parts
      obtain rfl : (addr, name) = pair := parts
      obtain ⟨gap, gap', whole, some, some', nonempty, nonempty'⟩ := matchProxy_eq_some found
      rw [List.nil_append] at whole
      dsimp only
      have short := (scriptTrim_lineValue_sublist addr).length_le
      have short' := (scriptTrim_lineValue_sublist name).length_le
      have lengths := congrArg List.length whole
      have gaps := List.length_pos_of_ne_nil some
      have gaps' := List.length_pos_of_ne_nil some'
      have option : ("-name" : Text).length = 5 ∧ (" -name " : Text).length = 7 := by decide
      simp only [List.length_append, option] at lengths
      constructor
      · intro same
        split_ifs at same with none unnamed
        · have kept := congrArg List.length (kv_eq_some_iff.mp same).1
          have trims := (scriptTrim_isInfix (scriptTrim (lineValue addr))).length_le
          omega
        · have kept := (kv_eq_some_iff.mp same).1
          have trims := scriptTrim_isInfix
            (scriptTrim (lineValue addr) ++ (" -name " : Text) ++ scriptTrim (lineValue name))
          have long := trims.length_le
          rw [kept] at long trims
          simp only [List.length_append, option] at long
          have first := (scriptTrim_lineValue_sublist addr).eq_of_length_le (by omega)
          have last := (scriptTrim_lineValue_sublist name).eq_of_length_le (by omega)
          refine ⟨scriptTrim_lineValue_eq_iff.mp first, scriptTrim_lineValue_eq_iff.mp last, ?_⟩
          rw [first, last] at trims
          rw [← List.append_assoc]
          apply trims.eq_of_length_le
          simp only [List.length_append, option]
          omega
      · rintro ⟨first, last, same⟩
        rw [scriptTrim_lineValue_eq_iff.mpr first, scriptTrim_lineValue_eq_iff.mpr last,
          if_neg nonempty, if_neg nonempty', kv_eq_some_iff, List.append_assoc, same]
        exact ⟨isLine_append first last nonempty nonempty', by simp [nonempty]⟩

/-! ### Which settings are kept -/

/-- The settings that the form has a place for. -/
structure FitsForm (b : BeginnerConfig) (confFiles : List ConfFile) : Prop where
  binds : ∃ port, IsPort port ∧ b.binds = [onPort port]
  texts : ∀ t ∈ [b.serverName, b.cacheSize, b.serveExpiredTtl, b.speedCheckMode], IsLine t
  response_mode : b.responseMode ∈ responseModes
  log_level : b.logLevel ∈ logLevels
  bind_tcp : ∀ value ∈ b.extras "bind-tcp", ∃ port, IsPort port ∧ value = onPort port
  elements : ∀ key element, extraElement key = some element →
    ∀ value ∈ b.extras key, element.Keeps value
  proxy : ∀ value ∈ b.extras "proxy-server", KeepsProxy value
  conf_files : b.extras "conf-file" = listConfFiles confFiles
  others : ∀ key ∉ ["bind-tcp", "proxy-server", "conf-file"], extraElement key = none →
    b.extras key = none

theorem binds_kept_iff (binds : List Text) :
    [onPort (shownPort binds)] = binds ↔ ∃ port, IsPort port ∧ binds = [onPort port] := by
  constructor
  · intro same
    exact ⟨shownPort binds, isPort_shownPort binds, same.symm⟩
  · rintro ⟨port, isPort, rfl⟩
    have shown : shownPort [onPort port] = port := by
      unfold shownPort orElse
      rw [List.map_singleton, portOf_onPort isPort.2, List.flatten_singleton, if_neg isPort.1]
    rw [shown]

theorem select_kept_iff {choices : List Text} {value other : Text} (offered : other ∈ choices)
    (nonempty : [] ∉ choices) :
    selectValue choices (orElse value other) = value ↔ value ∈ choices := by
  unfold selectValue orElse
  by_cases empty : value = []
  · subst empty
    rw [if_pos rfl, if_pos offered]
    constructor
    · rintro rfl
      exact offered
    · exact fun listed => absurd listed nonempty
  · rw [if_neg empty]
    by_cases listed : value ∈ choices
    · simp [listed]
    · rw [if_neg listed]
      constructor
      · exact fun same => absurd same.symm empty
      · exact fun listed' => absurd listed' listed

theorem option_kept_iff {Item : Type} {kept : Item → Prop} (read : Option Item → Option Item)
    (nothing : read none = none) (something : ∀ item, read (some item) = some item ↔ kept item)
    (item : Option Item) : read item = item ↔ ∀ value ∈ item, kept value := by
  cases item with
  | none => simp [nothing]
  | some value => simp [something]

section

variable (b : BeginnerConfig) (upstreams : List UpstreamConfig) (confFiles : List ConfFile)

theorem extras_resentBasic (key : String) : (resentBasic b upstreams confFiles).extras key =
    collectExtras (fillExtras b.extras (fillBasic b {})) confFiles key := rfl

theorem element_kept_iff {key : String} {element : ExtraElement}
    (own : extraElement key = some element) :
    (resentBasic b upstreams confFiles).extras key = b.extras key ↔
      ∀ value ∈ b.extras key, element.Keeps value := by
  have sent : (resentBasic b upstreams confFiles).extras key =
      element.collect (element.value ((b.extras key).getD []))
        (decide (b.extras key = some ("yes" : Text) ∨ b.extras key = some [])) := by
    rw [extras_resentBasic, collectExtras, own]
    simp only [fillExtras, own, Option.elim_some]
  rw [sent]
  exact option_kept_iff (fun value => element.collect (element.value (value.getD []))
    (decide (value = some ("yes" : Text) ∨ value = some []))) element.collect_none
    (fun value => element.collect_value_iff value _ (by simp)) (b.extras key)

theorem bindTcp_kept_iff :
    (resentBasic b upstreams confFiles).extras "bind-tcp" = b.extras "bind-tcp" ↔
      ∀ value ∈ b.extras "bind-tcp", ∃ port, IsPort port ∧ value = onPort port := by
  have own : extraElement "bind-tcp" = none := by decide
  have sent : (resentBasic b upstreams confFiles).extras "bind-tcp" =
      kp (portOf ((b.extras "bind-tcp").getD [])) := by
    rw [extras_resentBasic, collectExtras, own]
    rfl
  rw [sent]
  exact option_kept_iff (fun value => kp (portOf (value.getD []))) rfl
    (fun _ => kp_portOf_iff) (b.extras "bind-tcp")

theorem proxy_kept_iff :
    (resentBasic b upstreams confFiles).extras "proxy-server" = b.extras "proxy-server" ↔
      ∀ value ∈ b.extras "proxy-server", KeepsProxy value := by
  have own : extraElement "proxy-server" = none := by decide
  have sent : (resentBasic b upstreams confFiles).extras "proxy-server" =
      collectProxy (fillExtras b.extras (fillBasic b {})) := by
    rw [extras_resentBasic, collectExtras, own]
    rfl
  rw [sent]
  cases given : b.extras "proxy-server" with
  | none =>
      have nothing : collectProxy (fillExtras b.extras (fillBasic b {})) = none := by
        simp only [collectProxy, fillExtras, given]
        rfl
      simp [nothing]
  | some value =>
      simp only [Option.mem_some_iff, forall_eq']
      apply collectProxy_iff _ value ((matchProxy [] value).elim value Prod.fst)
        ((matchProxy [] value).elim [] Prod.snd)
      · simp only [fillExtras, given, Option.getD_some, and_self]
      · cases matchProxy [] value <;> rfl

theorem confFiles_sent :
    (resentBasic b upstreams confFiles).extras "conf-file" = listConfFiles confFiles := by
  have own : extraElement "conf-file" = none := by decide
  rw [extras_resentBasic, collectExtras, own]
  rfl

theorem other_sent {key : String} (other : key ∉ ["bind-tcp", "proxy-server", "conf-file"])
    (none : extraElement key = none) : (resentBasic b upstreams confFiles).extras key = .none := by
  simp only [List.mem_cons, List.not_mem_nil, or_false, not_or] at other
  rw [extras_resentBasic, collectExtras, none]
  simp only [other, if_false]

theorem extras_kept_iff :
    (resentBasic b upstreams confFiles).extras = b.extras ↔
      (∀ value ∈ b.extras "bind-tcp", ∃ port, IsPort port ∧ value = onPort port) ∧
      (∀ key element, extraElement key = some element →
        ∀ value ∈ b.extras key, element.Keeps value) ∧
      (∀ value ∈ b.extras "proxy-server", KeepsProxy value) ∧
      b.extras "conf-file" = listConfFiles confFiles ∧
      ∀ key ∉ ["bind-tcp", "proxy-server", "conf-file"], extraElement key = none →
        b.extras key = none := by
  constructor
  · intro same
    have kept (key : String) := congrFun same key
    refine ⟨?_, ?_, ?_, ?_, ?_⟩
    · exact (bindTcp_kept_iff b upstreams confFiles).mp (kept _)
    · exact fun key element own => (element_kept_iff b upstreams confFiles own).mp (kept key)
    · exact (proxy_kept_iff b upstreams confFiles).mp (kept _)
    · exact (kept _).symm.trans (confFiles_sent b upstreams confFiles)
    · exact fun key other none => (kept key).symm.trans (other_sent b upstreams confFiles other none)
  · rintro ⟨bindTcp, elements, proxy, listed, others⟩
    funext key
    cases own : extraElement key with
    | some element => exact (element_kept_iff b upstreams confFiles own).mpr (elements key element own)
    | none =>
        by_cases other : key ∈ ["bind-tcp", "proxy-server", "conf-file"]
        · simp only [List.mem_cons, List.not_mem_nil, or_false] at other
          rcases other with rfl | rfl | rfl
          · exact (bindTcp_kept_iff b upstreams confFiles).mpr bindTcp
          · exact (proxy_kept_iff b upstreams confFiles).mpr proxy
          · exact (confFiles_sent b upstreams confFiles).trans listed.symm
        · exact (other_sent b upstreams confFiles other own).trans (others key other own).symm

end

/-- Saving without an edit sends the settings as they were loaded exactly when the form has a
place for them. -/
theorem resentBasic_eq_iff (b : BeginnerConfig) (upstreams : List UpstreamConfig)
    (confFiles : List ConfFile) :
    resentBasic b upstreams confFiles = { b with upstreams := upstreams } ↔
      FitsForm b confFiles := by
  have mode : (resentBasic b upstreams confFiles).responseMode = b.responseMode ↔
      b.responseMode ∈ responseModes := select_kept_iff (by decide) (by decide)
  have level : (resentBasic b upstreams confFiles).logLevel = b.logLevel ↔
      b.logLevel ∈ logLevels := select_kept_iff (by decide) (by decide)
  have binds := binds_resentBasic b upstreams confFiles
  have extras := extras_kept_iff b upstreams confFiles
  constructor
  · intro same
    have kept {Field : Type} (field : BeginnerConfig → Field) :
        field (resentBasic b upstreams confFiles) = field { b with upstreams := upstreams } :=
      congrArg field same
    obtain ⟨bindTcp, elements, proxy, listed, others⟩ := extras.mp (kept BeginnerConfig.extras)
    refine ⟨?_, ?_, ?_, ?_, bindTcp, elements, proxy, listed, others⟩
    · exact (binds_kept_iff b.binds).mp (binds.symm.trans (kept BeginnerConfig.binds))
    · simp only [List.mem_cons, List.not_mem_nil, or_false, forall_eq_or_imp, forall_eq]
      refine ⟨?_, ?_, ?_, ?_⟩ <;> apply scriptTrim_lineValue_eq_iff.mp
      · exact kept BeginnerConfig.serverName
      · exact kept BeginnerConfig.cacheSize
      · exact kept BeginnerConfig.serveExpiredTtl
      · exact kept BeginnerConfig.speedCheckMode
    · exact mode.mp (kept BeginnerConfig.responseMode)
    · exact level.mp (kept BeginnerConfig.logLevel)
  · intro fits
    have texts := fits.texts
    simp only [List.mem_cons, List.not_mem_nil, or_false, forall_eq_or_imp, forall_eq] at texts
    obtain ⟨serverName, cacheSize, serveExpiredTtl, speedCheckMode⟩ := texts
    apply BeginnerConfig.ext
    · exact scriptTrim_lineValue_eq_iff.mpr serverName
    · exact binds.trans ((binds_kept_iff b.binds).mpr fits.binds)
    · exact scriptTrim_lineValue_eq_iff.mpr cacheSize
    · rfl
    · rfl
    · exact scriptTrim_lineValue_eq_iff.mpr serveExpiredTtl
    · exact mode.mpr fits.response_mode
    · exact scriptTrim_lineValue_eq_iff.mpr speedCheckMode
    · rfl
    · exact level.mpr fits.log_level
    · rfl
    · rfl
    · rfl
    · exact extras.mpr ⟨fits.bind_tcp, fits.elements, fits.proxy, fits.conf_files, fits.others⟩

end SmartDnsPlusUi
