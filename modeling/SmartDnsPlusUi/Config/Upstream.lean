import SmartDnsPlusUi.Config.AssetPages
import SmartDnsPlusUi.Config.Beginner
import SmartDnsPlusUi.Text.Words

/-!
# One upstream server

What the option scanner yields has a shape: the groups are words, and of the
words passed through none is an option that the scanner would have taken.  An
upstream server of that shape is written as a sequence of words from which the
scanner restores it.
-/

namespace SmartDnsPlusUi

open Text

/-- Words that a second scan passes through as well: no option, but the last
may be one that lacks its argument. -/
structure IsPassthrough (tokens : List Text) : Prop where
  words : ∀ token ∈ tokens, IsToken token
  no_option : ∀ token ∈ tokens.dropLast, upstreamOption token = .other
  no_flag : ∀ token ∈ tokens.getLast?,
    upstreamOption token ≠ .excludeDefaultGroup ∧ upstreamOption token ≠ .fallback

/-- The shape of a parsed upstream server. -/
structure IsReadable (upstream : UpstreamConfig) : Prop where
  value : IsToken upstream.value
  groups : ∀ group ∈ upstream.groups, IsToken group
  proxy_name : Solid upstream.proxyName
  bootstrap_dns : Solid upstream.bootstrapDns
  host_ip : Solid upstream.hostIp
  subnet : Solid upstream.subnet
  options : ∃ tokens, IsPassthrough tokens ∧ upstream.options = join [' '] tokens
  no_note : upstream.note = []

/-! ### The option scanner -/

theorem upstreamOption_of_no_dash {token : Text} (noDash : token.head? ≠ some '-') :
    upstreamOption token = .other := by
  have differs : ∀ name : Text, name.head? = some '-' → token ≠ name := by
    rintro name dash rfl
    exact noDash dash
  have differ : ∀ name short : Text, name.head? = some '-' → short.head? = some '-' →
      ¬ (token = name ∨ token = short) := fun name short dash dash' =>
    not_or.mpr ⟨differs name dash, differs short dash'⟩
  unfold upstreamOption
  rw [if_neg (differ _ _ rfl rfl), if_neg (differ _ _ rfl rfl), if_neg (differs _ rfl),
    if_neg (differ _ _ rfl rfl), if_neg (differs _ rfl), if_neg (differs _ rfl),
    if_neg (differs _ rfl)]

theorem isPassthrough_nil : IsPassthrough [] := ⟨by simp, by simp, by simp⟩

theorem IsPassthrough.cons {token : Text} (word : IsToken token)
    (other : upstreamOption token = .other) {tokens : List Text} (rest : IsPassthrough tokens) :
    IsPassthrough (token :: tokens) := by
  refine ⟨by simpa [word] using rest.words, ?_, ?_⟩
  · by_cases last : tokens = []
    · simp [last]
    · simpa [List.dropLast_cons_of_ne_nil last, other] using rest.no_option
  · by_cases last : tokens = []
    · simp [last, other]
    · simpa [List.getLast?_cons_of_ne_nil last] using rest.no_flag

theorem IsPassthrough.tail {token : Text} {tokens : List Text}
    (passthrough : IsPassthrough (token :: tokens)) : IsPassthrough tokens := by
  refine ⟨fun word membership => passthrough.words word (List.mem_cons_of_mem _ membership), ?_, ?_⟩
  · intro word membership
    apply passthrough.no_option word
    rw [List.dropLast_cons_of_ne_nil]
    · exact List.mem_cons_of_mem _ membership
    · rintro rfl
      simp at membership
  · intro word membership
    apply passthrough.no_flag word
    rw [List.getLast?_cons_of_ne_nil]
    · exact membership
    · rintro rfl
      simp at membership

/-- The scanner keeps what setting an option keeps. -/
theorem scanUpstreamTokens_preserves {p : UpstreamConfig → Prop}
    (exclude : ∀ cfg, p cfg → p { cfg with excludeDefaultGroup := true })
    (fallback : ∀ cfg, p cfg → p { cfg with fallback := true })
    (argument : ∀ cfg option word, IsToken word → p cfg → p (setArgument cfg option word))
    {tokens : List Text} (words : ∀ token ∈ tokens, IsToken token) (cfg : UpstreamConfig)
    (passthrough : List Text) (start : p cfg) :
    p (scanUpstreamTokens cfg passthrough tokens).1 := by
  fun_induction scanUpstreamTokens cfg passthrough tokens <;> simp_all

/-- What is passed through once is passed through again. -/
theorem isPassthrough_scanUpstreamTokens {tokens : List Text}
    (words : ∀ token ∈ tokens, IsToken token) (cfg : UpstreamConfig) (passthrough : List Text) :
    ∃ passed, IsPassthrough passed ∧
      (scanUpstreamTokens cfg passthrough tokens).2 = passthrough ++ passed := by
  have alone : ∀ token, IsToken token → upstreamOption token ≠ .excludeDefaultGroup →
      upstreamOption token ≠ .fallback → IsPassthrough [token] := by
    intro token word notExclude notFallback
    exact ⟨by simpa using word, by simp, by simp [notExclude, notFallback]⟩
  fun_induction scanUpstreamTokens cfg passthrough tokens with
  | case1 cfg passthrough => exact ⟨[], isPassthrough_nil, by simp⟩
  | case2 cfg passthrough token exclude => exact ⟨[], isPassthrough_nil, by simp⟩
  | case3 cfg passthrough token fallback => exact ⟨[], isPassthrough_nil, by simp⟩
  | case4 cfg passthrough token notExclude notFallback =>
      exact ⟨[token], alone token (words token (by simp)) notExclude notFallback, rfl⟩
  | case5 cfg passthrough token next rest exclude inductionHypothesis =>
      exact inductionHypothesis fun word membership => words word (List.mem_cons_of_mem _ membership)
  | case6 cfg passthrough token next rest fallback inductionHypothesis =>
      exact inductionHypothesis fun word membership => words word (List.mem_cons_of_mem _ membership)
  | case7 cfg passthrough token next rest other dash inductionHypothesis =>
      simp only [List.mem_cons, forall_eq_or_imp] at words
      obtain ⟨passed, shape, equality⟩ := inductionHypothesis (by simpa using words.2)
      exact ⟨token :: passed, shape.cons words.1 other, by simp [equality]⟩
  | case8 cfg passthrough token next rest other noDash inductionHypothesis =>
      simp only [List.mem_cons, forall_eq_or_imp] at words
      obtain ⟨passed, shape, equality⟩ := inductionHypothesis words.2.2
      have swallowed := shape.cons words.2.1 (upstreamOption_of_no_dash noDash)
      exact ⟨token :: next :: passed, swallowed.cons words.1 other, by simp [equality]⟩
  | case9 cfg passthrough token next rest _ _ _ inductionHypothesis =>
      simp only [List.mem_cons, forall_eq_or_imp] at words
      exact inductionHypothesis words.2.2

theorem scanUpstreamTokens_passthrough {tokens : List Text} (shape : IsPassthrough tokens)
    (cfg : UpstreamConfig) (passthrough : List Text) :
    scanUpstreamTokens cfg passthrough tokens = (cfg, passthrough ++ tokens) := by
  have first : ∀ {token next : Text} {rest : List Text},
      IsPassthrough (token :: next :: rest) → upstreamOption token = .other :=
    fun shape => shape.no_option _ (by simp)
  fun_induction scanUpstreamTokens cfg passthrough tokens with
  | case1 cfg passthrough => simp
  | case2 cfg passthrough token exclude => exact absurd exclude (shape.no_flag token (by simp)).1
  | case3 cfg passthrough token fallback => exact absurd fallback (shape.no_flag token (by simp)).2
  | case4 cfg passthrough token notExclude notFallback => rfl
  | case5 cfg passthrough token next rest exclude _ => simp [first shape] at exclude
  | case6 cfg passthrough token next rest fallback _ => simp [first shape] at fallback
  | case7 cfg passthrough token next rest other dash inductionHypothesis =>
      simp [inductionHypothesis shape.tail]
  | case8 cfg passthrough token next rest other noDash inductionHypothesis =>
      simp [inductionHypothesis shape.tail.tail]
  | case9 cfg passthrough token next rest _ _ notOther _ =>
      exact absurd (first shape) notOther

theorem IsReadable.setFlags {cfg : UpstreamConfig} (readable : IsReadable cfg)
    (exclude fallback : Bool) :
    IsReadable { cfg with excludeDefaultGroup := exclude, fallback } :=
  ⟨readable.1, readable.2, readable.3, readable.4, readable.5, readable.6, readable.7, readable.8⟩

theorem IsReadable.setArgument {cfg : UpstreamConfig} (readable : IsReadable cfg)
    (option : UpstreamOption) {word : Text} (token : IsToken word) :
    IsReadable (setArgument cfg option word) := by
  have groups : ∀ group ∈ cfg.groups ++ [word], IsToken group := by
    simp only [List.mem_append, List.mem_singleton]
    rintro group (old | rfl)
    · exact readable.groups group old
    · exact token
  obtain ⟨value, old, proxyName, bootstrapDns, hostIp, subnet, options, noNote⟩ := readable
  cases option with
  | group => exact ⟨value, groups, proxyName, bootstrapDns, hostIp, subnet, options, noNote⟩
  | proxy => exact ⟨value, old, token.2, bootstrapDns, hostIp, subnet, options, noNote⟩
  | bootstrapDns => exact ⟨value, old, proxyName, token.2, hostIp, subnet, options, noNote⟩
  | hostIp => exact ⟨value, old, proxyName, bootstrapDns, token.2, subnet, options, noNote⟩
  | subnet => exact ⟨value, old, proxyName, bootstrapDns, hostIp, token.2, options, noNote⟩
  | excludeDefaultGroup | fallback | other =>
      exact ⟨value, old, proxyName, bootstrapDns, hostIp, subnet, options, noNote⟩

theorem isReadable_parseUpstreamConfig (kind : String) {value : Text} (token : IsToken value)
    (options : Text) : IsReadable (parseUpstreamConfig kind value options) := by
  have words : ∀ word ∈ splitWhitespace options, IsToken word :=
    fun _ => token_of_mem_splitWhitespace
  have start : IsReadable { kind, value } :=
    ⟨token, by simp, solid_nil, solid_nil, solid_nil, solid_nil,
      ⟨[], isPassthrough_nil, rfl⟩, rfl⟩
  have scanned := scanUpstreamTokens_preserves
    (fun _ readable => readable.setFlags _ _) (fun _ readable => readable.setFlags _ _)
    (fun cfg option word wordToken readable => readable.setArgument option wordToken)
    words { kind, value } [] start
  obtain ⟨passed, shape, equality⟩ :=
    isPassthrough_scanUpstreamTokens words { kind, value } []
  rw [parseUpstreamConfig]
  simp only [equality, List.nil_append]
  exact ⟨scanned.1, scanned.2, scanned.3, scanned.4, scanned.5, scanned.6, ⟨passed, shape, rfl⟩,
    scanned.8⟩

/-! ### Words written and read again -/

/-- The words of an option with its argument. -/
def argumentWords (name argument : Text) : List (List Text) :=
  if argument = [] then [] else [[name, argument]]

def flagWords (name : Text) (set : Bool) : List (List Text) := if set then [[name]] else []

/-- The words of the options, part by part, and then those passed through. -/
def upstreamWords (upstream : UpstreamConfig) (passthrough : List Text) : List (List Text) :=
  upstream.groups.flatMap (argumentWords "-group") ++
  flagWords "-exclude-default-group" upstream.excludeDefaultGroup ++
  argumentWords "-proxy" upstream.proxyName ++
  argumentWords "-bootstrap-dns" upstream.bootstrapDns ++
  argumentWords "-host-ip" upstream.hostIp ++
  argumentWords "-subnet" upstream.subnet ++
  flagWords "-fallback" upstream.fallback ++
  (if passthrough = [] then [] else [passthrough])

section Scan

variable (cfg : UpstreamConfig) (passthrough : List Text)

/-- An option is set by its words; an empty one, left out, is as it was. -/
theorem scanUpstreamTokens_argument {name : Text} (option : UpstreamOption)
    (named : upstreamOption name = option) (hasArgument : option.hasArgument = true)
    (unset : setArgument cfg option [] = cfg) (argument : Text) (rest : List Text) :
    scanUpstreamTokens cfg passthrough ((argumentWords name argument).flatten ++ rest) =
      scanUpstreamTokens (setArgument cfg option argument) passthrough rest := by
  unfold argumentWords
  by_cases empty : argument = []
  · simp [empty, unset]
  · rw [if_neg empty, List.flatten_singleton, List.cons_append, List.cons_append,
      List.nil_append, scanUpstreamTokens, named]
    cases option <;> simp_all [UpstreamOption.hasArgument]

theorem scanUpstreamTokens_groups {groups : List Text} (nonempty : ∀ group ∈ groups, group ≠ [])
    (rest : List Text) :
    scanUpstreamTokens cfg passthrough
        ((groups.flatMap (argumentWords "-group")).flatten ++ rest) =
      scanUpstreamTokens { cfg with groups := cfg.groups ++ groups } passthrough rest := by
  have option : upstreamOption "-group" = .group := by decide
  induction groups generalizing cfg with
  | nil => simp
  | cons group groups inductionHypothesis =>
      simp only [List.mem_cons, forall_eq_or_imp] at nonempty
      rw [List.flatMap_cons, List.flatten_append, List.append_assoc, argumentWords,
        if_neg nonempty.1, List.flatten_singleton, List.cons_append, List.cons_append,
        List.nil_append, scanUpstreamTokens, option]
      simp only [setArgument]
      rw [inductionHypothesis _ nonempty.2, List.append_assoc, List.singleton_append]

theorem scanUpstreamTokens_exclude {name : Text}
    (exclude : upstreamOption name = .excludeDefaultGroup)
    (unset : cfg.excludeDefaultGroup = false) (set : Bool) (rest : List Text) :
    scanUpstreamTokens cfg passthrough ((flagWords name set).flatten ++ rest) =
      scanUpstreamTokens { cfg with excludeDefaultGroup := set } passthrough rest := by
  cases set with
  | false =>
      have same : { cfg with excludeDefaultGroup := false } = cfg := by rw [← unset]
      rw [same]
      simp [flagWords]
  | true => cases rest <;> simp [flagWords, scanUpstreamTokens, exclude]

theorem scanUpstreamTokens_fallback {name : Text} (fallback : upstreamOption name = .fallback)
    (unset : cfg.fallback = false) (set : Bool) (rest : List Text) :
    scanUpstreamTokens cfg passthrough ((flagWords name set).flatten ++ rest) =
      scanUpstreamTokens { cfg with fallback := set } passthrough rest := by
  cases set with
  | false =>
      have same : { cfg with fallback := false } = cfg := by rw [← unset]
      rw [same]
      simp [flagWords]
  | true => cases rest <;> simp [flagWords, scanUpstreamTokens, fallback]

end Scan

/-- The scanner restores what the words were written from. -/
theorem scanUpstreamTokens_upstreamWords {upstream : UpstreamConfig}
    (groups : ∀ group ∈ upstream.groups, group ≠ []) {passthrough : List Text}
    (shape : IsPassthrough passthrough) (kind : String) :
    scanUpstreamTokens { kind, value := upstream.value } []
        (upstreamWords upstream passthrough).flatten =
      ({ upstream with kind, options := [], note := [] }, passthrough) := by
  have last : (if passthrough = [] then [] else [passthrough]).flatten = passthrough := by
    by_cases empty : passthrough = [] <;> simp [empty]
  simp only [upstreamWords, List.flatten_append, List.append_assoc]
  rw [scanUpstreamTokens_groups _ _ groups, scanUpstreamTokens_exclude _ _ (by decide) rfl,
    scanUpstreamTokens_argument _ _ .proxy (by decide) rfl rfl,
    scanUpstreamTokens_argument _ _ .bootstrapDns (by decide) rfl rfl,
    scanUpstreamTokens_argument _ _ .hostIp (by decide) rfl rfl,
    scanUpstreamTokens_argument _ _ .subnet (by decide) rfl rfl,
    scanUpstreamTokens_fallback _ _ (by decide) rfl, last,
    scanUpstreamTokens_passthrough shape]
  rfl

/-! ### The line of an upstream server -/

/-- Every part of the words is a nonempty sequence of words. -/
def IsWordy (parts : List (List Text)) : Prop :=
  ∀ part ∈ parts, part ≠ [] ∧ ∀ word ∈ part, IsToken word

theorem IsWordy.append {parts rest : List (List Text)} (first : IsWordy parts)
    (second : IsWordy rest) : IsWordy (parts ++ rest) := by
  intro part membership
  rcases List.mem_append.mp membership with inFirst | inSecond
  · exact first part inFirst
  · exact second part inSecond

theorem IsWordy.flatten {parts : List (List Text)} (wordy : IsWordy parts) :
    ∀ word ∈ parts.flatten, IsToken word := by
  intro word membership
  obtain ⟨part, partMem, wordMem⟩ := List.mem_flatten.mp membership
  exact (wordy part partMem).2 word wordMem

theorem isWordy_argumentWords {name argument : Text} (token : IsToken name)
    (solid : Solid argument) : IsWordy (argumentWords name argument) := by
  unfold argumentWords
  by_cases empty : argument = []
  · simp [empty, IsWordy]
  · have word : IsToken argument := ⟨empty, solid⟩
    simp [empty, IsWordy, token, word]

theorem isWordy_flagWords {name : Text} (token : IsToken name) (set : Bool) :
    IsWordy (flagWords name set) := by
  cases set <;> simp [IsWordy, flagWords, token]

theorem isWordy_upstreamWords {upstream : UpstreamConfig} (readable : IsReadable upstream)
    {passthrough : List Text} (shape : IsPassthrough passthrough) :
    IsWordy (upstreamWords upstream passthrough) := by
  have groups : IsWordy (upstream.groups.flatMap (argumentWords "-group")) := by
    intro part membership
    obtain ⟨group, groupMem, partMem⟩ := List.mem_flatMap.mp membership
    exact isWordy_argumentWords (by decide) (readable.groups group groupMem).2 part partMem
  have passed : IsWordy (if passthrough = [] then [] else [passthrough]) := by
    by_cases empty : passthrough = []
    · simp [empty, IsWordy]
    · simpa [empty, IsWordy] using shape.words
  exact (((((((groups.append (isWordy_flagWords (by decide) _)).append
    (isWordy_argumentWords (by decide) readable.proxy_name)).append
    (isWordy_argumentWords (by decide) readable.bootstrap_dns)).append
    (isWordy_argumentWords (by decide) readable.host_ip)).append
    (isWordy_argumentWords (by decide) readable.subnet)).append
    (isWordy_flagWords (by decide) _)).append passed)

theorem optionPart_eq (name : Text) {argument : Text} (solid : Solid argument) :
    optionPart name argument = (argumentWords name argument).map (join [' ']) := by
  unfold optionPart argumentWords
  rw [trim_eq_self solid.trimmed]
  by_cases empty : argument = []
  · simp [empty]
  · rw [if_neg empty, if_neg empty, List.map_singleton, join_space_cons _ (by simp),
      join_singleton]

theorem renderUpstreamOptions_eq {upstream : UpstreamConfig} (readable : IsReadable upstream)
    {passthrough : List Text} (shape : IsPassthrough passthrough)
    (options : upstream.options = join [' '] passthrough) :
    renderUpstreamOptions upstream =
      join [' '] (upstreamWords upstream passthrough).flatten := by
  have wordy := isWordy_upstreamWords readable shape
  have groups : upstream.groups.flatMap (optionPart "-group") =
      (upstream.groups.flatMap (argumentWords "-group")).map (join [' ']) := by
    rw [List.map_flatMap]
    exact List.flatMap_congr fun group membership =>
      optionPart_eq _ (readable.groups group membership).2
  have flags : ∀ (name : Text) (set : Bool),
      (if set then [name] else []) = (flagWords name set).map (join [' ']) := by
    intro name set
    cases set <;> simp [flagWords]
  have passed : (if trim upstream.options = [] then [] else [trim upstream.options]) =
      (if passthrough = [] then [] else [passthrough]).map (join [' ']) := by
    rw [options, trim_eq_self (trimmed_join shape.words)]
    by_cases empty : passthrough = []
    · simp [empty, join]
    · simp [empty, join_ne_nil shape.words empty]
  rw [← join_map_join _ fun part membership => (wordy part membership).1]
  unfold renderUpstreamOptions upstreamWords
  rw [groups, flags, flags, optionPart_eq _ readable.proxy_name,
    optionPart_eq _ readable.bootstrap_dns, optionPart_eq _ readable.host_ip,
    optionPart_eq _ readable.subnet, passed]
  simp only [List.map_append]

/-- The words of the line. -/
def lineWords (upstream : UpstreamConfig) (passthrough : List Text) : List Text :=
  (upstreamKey upstream.kind).toList :: upstream.value ::
    (upstreamWords upstream passthrough).flatten

theorem upstreamLine_eq {upstream : UpstreamConfig} (readable : IsReadable upstream)
    {passthrough : List Text} (shape : IsPassthrough passthrough)
    (options : upstream.options = join [' '] passthrough) :
    upstreamLine upstream = join [' '] (lineWords upstream passthrough) := by
  have wordy := isWordy_upstreamWords readable shape
  rw [upstreamLine, renderUpstreamOptions_eq readable shape options,
    trim_eq_self readable.value.trimmed, trim_eq_self (trimmed_join wordy.flatten), lineWords,
    join_space_cons _ (by simp)]
  by_cases empty : (upstreamWords upstream passthrough).flatten = []
  · simp [empty, join, keyed]
  · rw [if_neg (join_ne_nil wordy.flatten empty), join_space_cons _ empty]
    rfl

/-! ### Reading the line again -/

/-- The keywords that the renderer writes. -/
def writtenUpstreamKeys : List String :=
  ["server", "server-tcp", "server-tls", "server-https", "server-quic", "server-http3"]

theorem upstreamKey_mem (kind : String) : upstreamKey kind ∈ writtenUpstreamKeys := by
  unfold upstreamKey
  split <;> decide

theorem written_keyword : ∀ key ∈ writtenUpstreamKeys,
    IsKeyword key.toList ∧ '\\' ∉ key.toList ∧ beginnerKeyword key = .upstream := by
  have checked : ∀ key ∈ writtenUpstreamKeys, IsToken key.toList ∧ key.toList.head? ≠ some '#' ∧
      '\\' ∉ key.toList ∧ beginnerKeyword key = .upstream := by decide
  intro key membership
  obtain ⟨token, noComment, rest⟩ := checked key membership
  exact ⟨⟨token, noComment⟩, rest⟩

theorem isToken_lineWords {upstream : UpstreamConfig} (readable : IsReadable upstream)
    {passthrough : List Text} (shape : IsPassthrough passthrough) :
    ∀ word ∈ lineWords upstream passthrough, IsToken word := by
  have key := (written_keyword _ (upstreamKey_mem upstream.kind)).1.token
  have wordy := isWordy_upstreamWords readable shape
  intro word membership
  rw [lineWords, List.mem_cons, List.mem_cons] at membership
  rcases membership with isKey | isValue | last
  · rwa [isKey]
  · rw [isValue]
    exact readable.value
  · exact wordy.flatten word last

/-- The parser restores an upstream server but for its keyword. -/
theorem upstreamFrom_upstreamLine {upstream : UpstreamConfig} (readable : IsReadable upstream) :
    upstreamFrom (splitDirective (upstreamLine upstream)) =
      { upstream with kind := upstreamKey upstream.kind } := by
  obtain ⟨passthrough, shape, options⟩ := readable.options
  have wordy := isWordy_upstreamWords readable shape
  have key := (written_keyword _ (upstreamKey_mem upstream.kind)).1.token
  have scanned := scanUpstreamTokens_upstreamWords (fun group membership =>
    (readable.groups group membership).1) shape (upstreamKey upstream.kind)
  have parsed : parseUpstreamConfig (upstreamKey upstream.kind) upstream.value
      (join [' '] (upstreamWords upstream passthrough).flatten) =
        { upstream with kind := upstreamKey upstream.kind } := by
    rw [parseUpstreamConfig, splitWhitespace_join wordy.flatten, scanned]
    simp only [options, readable.no_note]
  rw [upstreamLine, renderUpstreamOptions_eq readable shape options,
    trim_eq_self readable.value.trimmed, trim_eq_self (trimmed_join wordy.flatten)]
  split
  · rename_i empty
    rw [splitDirective_keyed key, upstreamFrom, trim_eq_self readable.value.trimmed,
      splitFirst_of_solid readable.value.2]
    simp only [trim_eq_self readable.value.trimmed, trim_nil]
    rw [← parsed, empty]
  · rename_i nonempty
    have whole : Trimmed (upstream.value ++ ' ' ::
        join [' '] (upstreamWords upstream passthrough).flatten) := by
      simpa using readable.value.trimmed.append (trimmed_join wordy.flatten) [' ']
        readable.value.1 nonempty
    rw [splitDirective_keyed key, upstreamFrom, trim_eq_self whole,
      splitFirst_append_cons readable.value.2 isWhitespace_space]
    simp only [trim_eq_self readable.value.trimmed, trim_eq_self (trimmed_join wordy.flatten)]
    exact parsed

end SmartDnsPlusUi
