import SmartDnsPlusUi.Config.Upstream

/-!
# The page of the upstream servers

The page lists the servers sorted by their first group.  Read again, it yields
the same servers, unless it was rendered from none, a keyword is not among
those that the renderer writes, or a line ends in a backslash and is merged
with the line after it.
-/

namespace SmartDnsPlusUi

open Text

/-- Every directive is an upstream server with an address. -/
def IsUpstreamText (text : Text) : Prop :=
  ∀ directive ∈ directives text,
    beginnerKeyword directive.key = .upstream ∧ directive.value ≠ []

/-- The arguments of a server, in the order in which they are written. -/
def upstreamArguments (upstream : UpstreamConfig) : List Text :=
  [upstream.value] ++ upstream.groups ++
  (if upstream.excludeDefaultGroup then [("-exclude-default-group" : Text)] else []) ++
  [upstream.proxyName] ++ [upstream.bootstrapDns] ++ [upstream.hostIp] ++ [upstream.subnet] ++
  (if upstream.fallback then [("-fallback" : Text)] else []) ++
  [upstream.options]

/-- The last argument that is not empty. -/
def lastArgument (upstream : UpstreamConfig) : Text :=
  ((upstreamArguments upstream).filter (· ≠ [])).getLast?.getD []

/-! ### The end of a line -/

theorem lastEndsWith_argumentWords (name argument : Text) :
    lastEndsWith '\\' (argumentWords name argument).flatten =
      lastEndsWith '\\' ([argument].filter (· ≠ [])) := by
  by_cases empty : argument = [] <;> simp [argumentWords, lastEndsWith, empty]

theorem lastEndsWith_groups (name : Text) (groups : List Text) :
    lastEndsWith '\\' (groups.flatMap (argumentWords name)).flatten =
      lastEndsWith '\\' (groups.filter (· ≠ [])) := by
  induction groups with
  | nil => rfl
  | cons group groups inductionHypothesis =>
      have split : (group :: groups).filter (· ≠ []) =
          [group].filter (· ≠ []) ++ groups.filter (· ≠ []) := List.filter_append [group] groups
      rw [split, List.flatMap_cons, List.flatten_append, lastEndsWith_append,
        inductionHypothesis, lastEndsWith_argumentWords, lastEndsWith_append]

theorem lastEndsWith_flagWords {name : Text} (nonempty : name ≠ []) (set : Bool) :
    lastEndsWith '\\' (flagWords name set).flatten =
      lastEndsWith '\\' ((if set then [name] else []).filter (· ≠ [])) := by
  cases set <;> simp [flagWords, nonempty]

theorem lastEndsWith_passthrough {passthrough : List Text}
    (tokens : ∀ word ∈ passthrough, IsToken word) :
    lastEndsWith '\\' (if passthrough = [] then [] else [passthrough]).flatten =
      lastEndsWith '\\' ([join [' '] passthrough].filter (· ≠ [])) := by
  by_cases empty : passthrough = []
  · simp [empty, join]
  · have joined := join_ne_nil tokens empty
    have ends := endsWith_join tokens '\\'
    obtain ⟨last, lastMem⟩ := Option.ne_none_iff_exists'.mp
      (mt List.getLast?_eq_none_iff.mp empty)
    simp only [lastEndsWith, lastMem, Option.map_some, Option.getD_some] at ends
    simp [empty, joined, lastEndsWith, lastMem, ends]

/-- A line ends in a backslash exactly when its last argument does. -/
theorem endsWith_upstreamLine {upstream : UpstreamConfig} (readable : IsReadable upstream) :
    endsWith '\\' (upstreamLine upstream) = endsWith '\\' (lastArgument upstream) := by
  obtain ⟨passthrough, shape, options⟩ := readable.options
  have same : lastEndsWith '\\' (lineWords upstream passthrough) =
      lastEndsWith '\\' ((upstreamArguments upstream).filter (· ≠ [])) := by
    have start : lastEndsWith '\\' ([upstream.value].filter (· ≠ [])) =
        lastEndsWith '\\' [(upstreamKey upstream.kind).toList, upstream.value] := by
      simp [lastEndsWith, readable.value.1]
    have words : lineWords upstream passthrough =
        [(upstreamKey upstream.kind).toList, upstream.value] ++
          (upstreamWords upstream passthrough).flatten := rfl
    rw [words]
    simp only [upstreamWords, upstreamArguments, options, List.flatten_append, List.filter_append,
      lastEndsWith_append, lastEndsWith_argumentWords, lastEndsWith_groups,
      lastEndsWith_passthrough shape.words, start, Option.or_assoc]
    rw [lastEndsWith_flagWords (by decide), lastEndsWith_flagWords (by decide)]
  rw [upstreamLine_eq readable shape options, endsWith_join (isToken_lineWords readable shape),
    same, lastArgument, lastEndsWith]
  cases ((upstreamArguments upstream).filter (· ≠ [])).getLast? <;> rfl

/-! ### Counting backslashes -/

def upstreamBackslashes (upstream : UpstreamConfig) : Nat :=
  upstream.value.count '\\' + countIn '\\' upstream.groups + upstream.proxyName.count '\\' +
    upstream.bootstrapDns.count '\\' + upstream.hostIp.count '\\' +
    upstream.subnet.count '\\' + upstream.options.count '\\'

theorem upstreamBackslashes_setArgument_le (cfg : UpstreamConfig) (option : UpstreamOption)
    (word : Text) :
    upstreamBackslashes (setArgument cfg option word) ≤
      upstreamBackslashes cfg + word.count '\\' := by
  cases option <;> simp [setArgument, upstreamBackslashes] <;> omega

/-- Scanning adds no backslashes. -/
theorem upstreamBackslashes_scan_le (cfg : UpstreamConfig) (passthrough tokens : List Text) :
    upstreamBackslashes (scanUpstreamTokens cfg passthrough tokens).1 +
        countIn '\\' (scanUpstreamTokens cfg passthrough tokens).2 ≤
      upstreamBackslashes cfg + countIn '\\' passthrough + countIn '\\' tokens := by
  have flags : ∀ (cfg : UpstreamConfig) (exclude fallback : Bool),
      upstreamBackslashes { cfg with excludeDefaultGroup := exclude, fallback } =
        upstreamBackslashes cfg := fun _ _ _ => rfl
  fun_induction scanUpstreamTokens cfg passthrough tokens with
  | case1 cfg passthrough => simp
  | case2 cfg passthrough token _ => simp [flags]
  | case3 cfg passthrough token _ => simp [flags]
  | case4 cfg passthrough token _ _ => simp [Nat.add_assoc]
  | case5 cfg passthrough token next rest _ inductionHypothesis =>
      simp only [flags, countIn_cons] at inductionHypothesis ⊢
      omega
  | case6 cfg passthrough token next rest _ inductionHypothesis =>
      simp only [flags, countIn_cons] at inductionHypothesis ⊢
      omega
  | case7 cfg passthrough token next rest _ _ inductionHypothesis =>
      simp only [countIn_append, countIn_cons, countIn_nil] at inductionHypothesis ⊢
      omega
  | case8 cfg passthrough token next rest _ _ inductionHypothesis =>
      simp only [countIn_append, countIn_cons, countIn_nil] at inductionHypothesis ⊢
      omega
  | case9 cfg passthrough token next rest _ _ _ inductionHypothesis =>
      have set := upstreamBackslashes_setArgument_le cfg (upstreamOption token) next
      simp only [countIn_cons]
      omega

theorem count_upstreamLine {upstream : UpstreamConfig} (readable : IsReadable upstream) :
    (upstreamLine upstream).count '\\' = upstreamBackslashes upstream := by
  obtain ⟨passthrough, shape, options⟩ := readable.options
  have key := List.count_eq_zero.mpr (written_keyword _ (upstreamKey_mem upstream.kind)).2.1
  have argument : ∀ name argument : Text, name.count '\\' = 0 →
      countIn '\\' (argumentWords name argument).flatten = argument.count '\\' := by
    intro name argument none
    by_cases empty : argument = [] <;> simp [argumentWords, empty, none]
  have groups : ∀ groups : List Text,
      countIn '\\' (groups.flatMap (argumentWords "-group")).flatten =
        countIn '\\' groups := by
    intro groups
    induction groups with
    | nil => rfl
    | cons group groups inductionHypothesis =>
        rw [List.flatMap_cons, List.flatten_append, countIn_append, inductionHypothesis,
          argument _ _ (by decide), countIn_cons]
  have flag : ∀ (name : Text) (set : Bool), name.count '\\' = 0 →
      countIn '\\' (flagWords name set).flatten = 0 := by
    intro name set none
    cases set <;> simp [flagWords, none]
  have passed : countIn '\\' (if passthrough = [] then [] else [passthrough]).flatten =
      upstream.options.count '\\' := by
    rw [options, count_join (by decide)]
    by_cases empty : passthrough = [] <;> simp [empty]
  rw [upstreamLine_eq readable shape options, count_join (by decide), lineWords, countIn_cons,
    countIn_cons, key]
  simp only [upstreamWords, List.flatten_append, countIn_append, groups, passed]
  rw [flag _ _ (by decide), flag _ _ (by decide), argument _ _ (by decide),
    argument _ _ (by decide), argument _ _ (by decide), argument _ _ (by decide),
    upstreamBackslashes]
  omega

/-! ### What the page contains -/

theorem isPageLine_upstreamLine {upstream : UpstreamConfig} (readable : IsReadable upstream) :
    IsPageLine (upstreamLine upstream) ∧ trim (upstreamLine upstream) = upstreamLine upstream := by
  obtain ⟨passthrough, shape, options⟩ := readable.options
  have tokens := isToken_lineWords readable shape
  have keyword := (written_keyword _ (upstreamKey_mem upstream.kind)).1
  obtain ⟨c, rest, equality⟩ := List.exists_cons_of_ne_nil keyword.token.1
  have first : (upstreamLine upstream).head? = some c := by
    rw [upstreamLine]
    split <;> simp [keyed, equality]
  have noComment := keyword.no_comment
  rw [equality, List.head?_cons] at noComment
  have trims : trim (upstreamLine upstream) = upstreamLine upstream := by
    rw [upstreamLine_eq readable shape options]
    exact trim_eq_self (trimmed_join tokens)
  refine ⟨⟨⟨trimmed_trim _, ?_, ?_⟩, ?_⟩, trims⟩
  · rw [trims]
    rintro empty
    simp [empty] at first
  · rw [trims, first]
    exact noComment
  · rw [upstreamLine_eq readable shape options]
    exact not_mem_join (by decide) fun word membership => (tokens word membership).2.no_newline

theorem contentLines_pushLine_of_banner {line : Text} (banner : IsBanner line) :
    contentLines (pushLine line) = [] :=
  contentLines_of_skipped (by simp [pushLine, banner.1])

theorem contentLines_upstreamLines {upstreams : List UpstreamConfig}
    (readable : ∀ upstream ∈ upstreams, IsReadable upstream) :
    contentLines (upstreams.map upstreamLine) = upstreams.map upstreamLine := by
  rw [contentLines_eq_map_trim, List.map_map]
  · apply List.map_congr_left
    intro upstream membership
    rw [Function.comp_apply, (isPageLine_upstreamLine (readable upstream membership)).2]
  · intro line membership
    obtain ⟨upstream, upstreamMem, rfl⟩ := List.mem_map.mp membership
    exact (isPageLine_upstreamLine (readable upstream upstreamMem)).1

/-- A title, lines of servers and an empty line. -/
def upstreamSection (title : Text) (upstreams : List UpstreamConfig) : List Text :=
  pushLine title ++ upstreams.map upstreamLine ++ pushLine []

theorem contentLines_upstreamSection {title : Text} (banner : IsBanner title)
    {upstreams : List UpstreamConfig} (readable : ∀ upstream ∈ upstreams, IsReadable upstream) :
    contentLines (upstreamSection title upstreams) = upstreams.map upstreamLine := by
  have gap : IsBanner [] := by decide
  rw [upstreamSection, contentLines_append, contentLines_append,
    contentLines_pushLine_of_banner banner, contentLines_pushLine_of_banner gap,
    contentLines_upstreamLines readable, List.nil_append, List.append_nil]

theorem not_mem_upstreamSection {title : Text} (banner : IsBanner title)
    {upstreams : List UpstreamConfig} (readable : ∀ upstream ∈ upstreams, IsReadable upstream) :
    ∀ line ∈ upstreamSection title upstreams, '\n' ∉ line := by
  intro line membership
  rcases List.mem_append.mp membership with above | gap
  · rcases List.mem_append.mp above with titleMem | listed
    · exact List.mem_singleton.mp titleMem ▸ banner.2
    · obtain ⟨upstream, upstreamMem, rfl⟩ := List.mem_map.mp listed
      exact (isPageLine_upstreamLine (readable upstream upstreamMem)).1.no_newline
  · simp [List.mem_singleton.mp gap]

/-- A comment around a text without line feed. -/
theorem isBanner_append {opening closing text : Text} (hash : opening.head? = some '#')
    (free : '\n' ∉ opening) (free' : '\n' ∉ closing) (absent : '\n' ∉ text) :
    IsBanner (opening ++ text ++ closing) := by
  refine ⟨.inr ?_, ?_⟩
  · rw [List.append_assoc, List.head?_append, hash]
    rfl
  · simp [free, free', absent]

theorem isBanner_groupTitle {name : Text} (token : IsToken name) : IsBanner (groupTitle name) :=
  isBanner_append (by decide) (by decide) (by decide) token.2.no_newline

theorem isBanner_ruler : IsBanner ruler := by decide +kernel

/-- The content of the page: the sorted servers. -/
theorem contentOf_renderUpstreamsConfig {config : BeginnerConfig} (nonempty : config.upstreams ≠ [])
    (readable : ∀ upstream ∈ config.upstreams, IsReadable upstream) :
    contentOf (renderUpstreamsConfig config) =
      (stableSort firstGroup config.upstreams).map upstreamLine := by
  have listed : config.upstreams.filter (trim ·.value ≠ []) = config.upstreams := by
    rw [List.filter_eq_self]
    intro upstream membership
    have token := (readable upstream membership).value
    simpa [trim_eq_self token.trimmed] using token.1
  have titleBanner : IsBanner "#  上游 DNS 服务器" := by decide
  have gapBanner : IsBanner [] := by decide
  have header : ∀ line ∈ pushLine ruler ++ pushLine "#  上游 DNS 服务器" ++ pushLine ruler ++
      pushLine [], IsBanner line :=
    List.forall_mem_cons.mpr ⟨isBanner_ruler, List.forall_mem_cons.mpr ⟨titleBanner,
      List.forall_mem_cons.mpr ⟨isBanner_ruler, List.forall_mem_singleton.mpr gapBanner⟩⟩⟩
  have sections : ∀ group ∈ groupByKey firstGroup config.upstreams,
      IsBanner (groupTitle group.1) ∧ ∀ upstream ∈ group.2, IsReadable upstream := by
    intro group membership
    obtain ⟨upstream, upstreamMem, named⟩ := exists_key_of_mem_groupByKey membership
    have token := (readable upstream upstreamMem).groups group.1 (List.mem_of_mem_head? named)
    exact ⟨isBanner_groupTitle token, fun other otherMem =>
      readable other (mem_of_mem_groupByKey membership other otherMem)⟩
  have lastBanner : IsBanner "# ── 默认组（未分组）──" := by decide
  have lastReadable : ∀ upstream ∈ config.upstreams.filter (firstGroup · = none),
      IsReadable upstream := fun upstream membership =>
    readable upstream (List.mem_filter.mp membership).1
  rw [← groupByKey_eq_stableSort, List.map_append, List.map_flatMap]
  have folded : ∀ title upstreams, pushLine title ++ upstreams.map upstreamLine ++ pushLine [] =
      upstreamSection title upstreams := fun _ _ => rfl
  have closing : pushLine [] = [[]] := rfl
  simp only [renderUpstreamsConfig, if_neg nonempty, listed, folded]
  generalize pushLine ruler ++ pushLine "#  上游 DNS 服务器" ++ pushLine ruler ++
      pushLine [] = top at header
  generalize ("# ── 默认组（未分组）──" : Text) = lastTitle at lastBanner
  generalize groupByKey firstGroup config.upstreams = grouped at sections
  generalize config.upstreams.filter (firstGroup · = none) = ungrouped at lastReadable
  have lastLines : contentLines (if ungrouped ≠ [] then upstreamSection lastTitle ungrouped
      else []) = ungrouped.map upstreamLine := by
    by_cases empty : ungrouped = []
    · simp [empty]
    · rw [if_pos empty, contentLines_upstreamSection lastBanner lastReadable]
  have topLines : contentLines top = [] :=
    contentLines_of_skipped fun line membership => (header line membership).1
  rw [closing, join_append_nil, contentOf_unlines, contentLines_append, contentLines_append,
    contentLines_flatMap, lastLines, topLines, List.nil_append]
  · congr 1
    exact List.flatMap_congr fun group membership =>
      contentLines_upstreamSection (sections group membership).1 (sections group membership).2
  · intro line membership
    rcases List.mem_append.mp membership with above | below
    · rcases List.mem_append.mp above with inTop | inGroup
      · exact (header line inTop).2
      · obtain ⟨group, groupMem, lineMem⟩ := List.mem_flatMap.mp inGroup
        exact not_mem_upstreamSection (sections group groupMem).1 (sections group groupMem).2
          line lineMem
    · by_cases empty : ungrouped = []
      · simp [empty] at below
      · rw [if_pos empty] at below
        exact not_mem_upstreamSection lastBanner lastReadable line below

/-! ### Reading the page -/

/-- What a directive adds to the upstream servers. -/
def upstreamsOf (directive : Directive) : List UpstreamConfig :=
  if beginnerKeyword directive.key = .upstream then [upstreamFrom directive] else []

theorem mem_upstreamsOf_iff {directive : Directive} {upstream : UpstreamConfig} :
    upstream ∈ upstreamsOf directive ↔
      beginnerKeyword directive.key = .upstream ∧ upstream = upstreamFrom directive := by
  rw [upstreamsOf]
  split <;> simp_all

theorem parse_upstreams (text : Text) :
    (parseBeginnerConfig text).upstreams = (directives text).flatMap upstreamsOf := by
  have appends : ∀ cfg directive,
      (scanBeginner cfg directive).upstreams = cfg.upstreams ++ upstreamsOf directive := by
    intro cfg directive
    unfold scanBeginner upstreamsOf
    cases beginnerKeyword directive.key <;> simp <;> split <;> rfl
  have collected := foldl_append_flatMap scanBeginner BeginnerConfig.upstreams upstreamsOf appends
    defaultSettings (directives text)
  exact collected

/-- What the options do not touch is as the first word of the argument made it. -/
theorem field_upstreamFrom {Field : Type} (field : UpstreamConfig → Field)
    (exclude : ∀ cfg, field { cfg with excludeDefaultGroup := true } = field cfg)
    (fallback : ∀ cfg, field { cfg with fallback := true } = field cfg)
    (argument : ∀ cfg option word, field (setArgument cfg option word) = field cfg)
    (options : ∀ cfg options, field { cfg with options } = field cfg) (directive : Directive) :
    field (upstreamFrom directive) =
      field { kind := directive.key, value := trim (splitFirst directive.value).1 } := by
  rw [upstreamFrom, parseUpstreamConfig]
  dsimp only
  rw [options]
  apply @scanUpstreamTokens_preserves fun cfg => field cfg = _
  · exact fun cfg same => (exclude cfg).trans same
  · exact fun cfg same => (fallback cfg).trans same
  · exact fun cfg option word _ same => (argument cfg option word).trans same
  · exact fun _ => token_of_mem_splitWhitespace
  · rfl

theorem kind_upstreamFrom (directive : Directive) :
    (upstreamFrom directive).kind = directive.key := by
  apply field_upstreamFrom UpstreamConfig.kind
  · exact fun _ => rfl
  · exact fun _ => rfl
  · intro cfg option word
    cases option <;> rfl
  · exact fun _ _ => rfl

theorem beginnerKeyword_kind_of_mem_upstreams (text : Text) :
    ∀ upstream ∈ (parseBeginnerConfig text).upstreams,
      beginnerKeyword upstream.kind = .upstream := by
  intro upstream membership
  rw [parse_upstreams] at membership
  obtain ⟨directive, -, parsed⟩ := List.mem_flatMap.mp membership
  obtain ⟨keyword, rfl⟩ := mem_upstreamsOf_iff.mp parsed
  rw [kind_upstreamFrom]
  exact keyword

theorem value_upstreamFrom (directive : Directive) :
    (upstreamFrom directive).value = (splitFirst directive.value).1 := by
  rw [← trim_eq_self (splitFirst_fst_solid directive.value).trimmed]
  apply field_upstreamFrom UpstreamConfig.value
  · exact fun _ => rfl
  · exact fun _ => rfl
  · intro cfg option word
    cases option <;> rfl
  · exact fun _ _ => rfl

theorem isReadable_upstreamFrom {directive : Directive} (trimmed : Trimmed directive.value)
    (nonempty : directive.value ≠ []) : IsReadable (upstreamFrom directive) := by
  apply isReadable_parseUpstreamConfig
  have solid := splitFirst_fst_solid directive.value
  rw [trim_eq_self solid.trimmed]
  refine ⟨?_, solid⟩
  obtain ⟨c, rest, equality⟩ := List.exists_cons_of_ne_nil nonempty
  have visible : isWhitespace c = false := trimmed.1 c (by simp [equality])
  simp [splitFirst, equality, visible]

theorem isReadable_of_mem_upstreams {text : Text} (upstreamText : IsUpstreamText text) :
    ∀ upstream ∈ (parseBeginnerConfig text).upstreams, IsReadable upstream := by
  intro upstream membership
  rw [parse_upstreams] at membership
  obtain ⟨directive, directiveMem, parsed⟩ := List.mem_flatMap.mp membership
  obtain ⟨-, rfl⟩ := mem_upstreamsOf_iff.mp parsed
  exact isReadable_upstreamFrom (trimmed_value_of_mem directiveMem)
    (upstreamText directive directiveMem).2

theorem beginnerKeyword_upstreamLine (upstream : UpstreamConfig) :
    beginnerKeyword (splitDirective (upstreamLine upstream)).key = .upstream := by
  have written := written_keyword _ (upstreamKey_mem upstream.kind)
  rw [upstreamLine]
  split <;> rw [splitDirective_keyed written.1.token] <;> dsimp only <;> rw [written.2.2]

theorem mem_stableSort_iff {config : BeginnerConfig} {upstream : UpstreamConfig} :
    upstream ∈ stableSort firstGroup config.upstreams ↔ upstream ∈ config.upstreams :=
  (perm_stableSort firstGroup config.upstreams).mem_iff

/-- Without a backslash at the end of a line the page is read as the lines of the servers. -/
theorem directives_renderUpstreamsConfig {config : BeginnerConfig}
    (nonempty : config.upstreams ≠ []) (readable : ∀ upstream ∈ config.upstreams, IsReadable upstream)
    (plain : ∀ upstream ∈ config.upstreams, endsWith '\\' (lastArgument upstream) = false) :
    directives (renderUpstreamsConfig config) =
      (stableSort firstGroup config.upstreams).map (splitDirective <| upstreamLine ·) := by
  have content := contentOf_renderUpstreamsConfig nonempty readable
  have logical : logicalLines (renderUpstreamsConfig config) =
      (stableSort firstGroup config.upstreams).map upstreamLine := by
    rw [logicalLines_eq_contentOf, content]
    rw [content]
    intro line membership
    obtain ⟨upstream, upstreamMem, rfl⟩ := List.mem_map.mp membership
    rw [mem_stableSort_iff] at upstreamMem
    rw [endsWith_upstreamLine (readable upstream upstreamMem)]
    exact plain upstream upstreamMem
  rw [directives_eq_map, logical, List.map_map]
  rfl

/-- The lines yield the servers, under the keywords that were written. -/
theorem flatMap_upstreamsOf_upstreamLine {upstreams : List UpstreamConfig}
    (readable : ∀ upstream ∈ upstreams, IsReadable upstream) :
    (upstreams.map (splitDirective <| upstreamLine ·)).flatMap upstreamsOf =
      upstreams.map fun upstream => { upstream with kind := upstreamKey upstream.kind } := by
  rw [List.flatMap_map, ← List.flatMap_pure_eq_map]
  apply List.flatMap_congr
  intro upstream membership
  have again := upstreamFrom_upstreamLine (readable upstream membership)
  rw [upstreamsOf, if_pos (beginnerKeyword_upstreamLine upstream), again]
  rfl

theorem parse_renderUpstreamsConfig {config : BeginnerConfig} (nonempty : config.upstreams ≠ [])
    (readable : ∀ upstream ∈ config.upstreams, IsReadable upstream)
    (plain : ∀ upstream ∈ config.upstreams, endsWith '\\' (lastArgument upstream) = false) :
    (parseBeginnerConfig (renderUpstreamsConfig config)).upstreams =
      (stableSort firstGroup config.upstreams).map fun upstream =>
        { upstream with kind := upstreamKey upstream.kind } := by
  rw [parse_upstreams, directives_renderUpstreamsConfig nonempty readable plain]
  apply flatMap_upstreamsOf_upstreamLine
  intro upstream membership
  exact readable upstream (mem_stableSort_iff.mp membership)

theorem upstreamBackslashes_upstreamFrom_le (directive : Directive) :
    upstreamBackslashes (upstreamFrom directive) ≤ directive.value.count '\\' := by
  have parts := count_splitFirst isWhitespace_backslash directive.value
  have withOptions : ∀ (cfg : UpstreamConfig) (options : Text),
      upstreamBackslashes { cfg with options } ≤
        upstreamBackslashes cfg + options.count '\\' := by
    intro cfg options
    simp only [upstreamBackslashes]
    omega
  rw [upstreamFrom, parseUpstreamConfig]
  simp only []
  generalize start : ({ kind := directive.key, value := trim (splitFirst directive.value).1 } :
    UpstreamConfig) = cfg
  have started : upstreamBackslashes cfg = (splitFirst directive.value).1.count '\\' := by
    rw [← start, upstreamBackslashes]
    simp [count_trim isWhitespace_backslash]
  have scanned := upstreamBackslashes_scan_le cfg []
    (splitWhitespace (trim (splitFirst directive.value).2))
  rw [countIn_splitWhitespace isWhitespace_backslash, count_trim isWhitespace_backslash,
    countIn_nil, started] at scanned
  have written := withOptions (scanUpstreamTokens cfg []
      (splitWhitespace (trim (splitFirst directive.value).2))).1
    (join [' '] (scanUpstreamTokens cfg []
      (splitWhitespace (trim (splitFirst directive.value).2))).2)
  rw [count_join (by decide)] at written
  omega

/-- What is read from a text has no more backslashes than its logical lines. -/
theorem total_upstreamBackslashes_parse_le (text : Text) :
    total upstreamBackslashes (parseBeginnerConfig text).upstreams ≤
      countIn '\\' (logicalLines text) := by
  rw [parse_upstreams, directives_eq_map, List.flatMap_map, total_flatMap, countIn]
  apply total_le
  intro line _
  have parts := count_splitDirective isWhitespace_backslash line
  have own := upstreamBackslashes_upstreamFrom_le (splitDirective line)
  rw [upstreamsOf]
  split
  · simp only [total_cons, total_nil]
    omega
  · simp

/-- A line that ends in a backslash is merged with the next and loses it. -/
theorem not_endsWith_of_roundTrip {config : BeginnerConfig} (nonempty : config.upstreams ≠ [])
    (readable : ∀ upstream ∈ config.upstreams, IsReadable upstream)
    (same : (parseBeginnerConfig (renderUpstreamsConfig config)).upstreams =
      stableSort firstGroup config.upstreams) :
    ∀ upstream ∈ config.upstreams, endsWith '\\' (lastArgument upstream) = false := by
  intro upstream membership
  by_contra ends
  rw [Bool.not_eq_false] at ends
  have content := contentOf_renderUpstreamsConfig nonempty readable
  have listed : upstreamLine upstream ∈ contentOf (renderUpstreamsConfig config) := by
    rw [content]
    exact List.mem_map_of_mem (mem_stableSort_iff.mpr membership)
  rw [← endsWith_upstreamLine (readable upstream membership)] at ends
  have fewer := countIn_logicalLines_lt listed ends
  have bound := total_upstreamBackslashes_parse_le (renderUpstreamsConfig config)
  have all : countIn '\\' (contentOf (renderUpstreamsConfig config)) =
      total upstreamBackslashes (stableSort firstGroup config.upstreams) := by
    rw [content, countIn, total_map]
    exact total_congr _ fun other otherMem =>
      count_upstreamLine (readable other (mem_stableSort_iff.mp otherMem))
  rw [same] at bound
  omega

/-- The keyword of every server that is read is one that the renderer writes. -/
theorem kind_ne_of_roundTrip {config : BeginnerConfig} (nonempty : config.upstreams ≠ [])
    (readable : ∀ upstream ∈ config.upstreams, IsReadable upstream)
    (same : (parseBeginnerConfig (renderUpstreamsConfig config)).upstreams =
      stableSort firstGroup config.upstreams) :
    ∀ upstream ∈ config.upstreams, upstreamKey upstream.kind = upstream.kind := by
  have plain := not_endsWith_of_roundTrip nonempty readable same
  rw [parse_renderUpstreamsConfig nonempty readable plain] at same
  intro upstream membership
  rw [map_eq_self_iff] at same
  have recovered := congrArg UpstreamConfig.kind
    (same upstream (mem_stableSort_iff.mpr membership))
  dsimp only at recovered
  exact recovered

theorem defaultUpstreams_reparsed :
    (parseBeginnerConfig (renderUpstreamsConfig {})).upstreams ≠ [] := by
  decide +kernel

theorem upstreamKey_eq_iff_of_keyword {kind : String} (keyword : beginnerKeyword kind = .upstream) :
    upstreamKey kind = kind ↔ kind ≠ "server-h3" := by
  unfold beginnerKeyword at keyword
  split at keyword <;> first | (exfalso; exact absurd keyword (by decide)) | decide

/-- The servers of a text survive rendering and parsing exactly when there is
one, none has the keyword `server-h3`, and no last argument ends in a
backslash. -/
theorem upstreams_roundTrip_iff {text : Text} (upstreamText : IsUpstreamText text) :
    let config := parseBeginnerConfig text
    (parseBeginnerConfig (renderUpstreamsConfig config)).upstreams =
        stableSort firstGroup config.upstreams ↔
      config.upstreams ≠ [] ∧ ∀ upstream ∈ config.upstreams,
        upstream.kind ≠ "server-h3" ∧ endsWith '\\' (lastArgument upstream) = false := by
  intro config
  have readable := isReadable_of_mem_upstreams upstreamText
  have keywords := beginnerKeyword_kind_of_mem_upstreams text
  constructor
  · intro same
    have nonempty : config.upstreams ≠ [] := by
      intro empty
      have defaults : renderUpstreamsConfig config = renderUpstreamsConfig {} := by
        simp only [renderUpstreamsConfig, empty]
      rw [defaults, empty] at same
      exact defaultUpstreams_reparsed (same.trans (stableSort_nil firstGroup))
    refine ⟨nonempty, fun upstream membership => ⟨?_, ?_⟩⟩
    · exact (upstreamKey_eq_iff_of_keyword (keywords upstream membership)).mp
        (kind_ne_of_roundTrip nonempty readable same upstream membership)
    · exact not_endsWith_of_roundTrip nonempty readable same upstream membership
  · rintro ⟨nonempty, each⟩
    rw [parse_renderUpstreamsConfig nonempty readable fun upstream membership =>
      (each upstream membership).2, map_eq_self_iff]
    intro upstream membership
    rw [mem_stableSort_iff] at membership
    rw [(upstreamKey_eq_iff_of_keyword (keywords upstream membership)).mpr
      (each upstream membership).1]

theorem upstreams_roundTrip_example :
    let config := parseBeginnerConfig "server-tls 1.1.1.1 -group b -k\nserver a -g a -e"
    (parseBeginnerConfig (renderUpstreamsConfig config)).upstreams =
      stableSort firstGroup config.upstreams := by
  have upstreamText : IsUpstreamText "server-tls 1.1.1.1 -group b -k\nserver a -g a -e" := by
    unfold IsUpstreamText
    decide
  exact (upstreams_roundTrip_iff upstreamText).mpr ⟨by decide, by decide⟩

/-- A server for HTTP/3 comes back as one for UDP. -/
theorem not_upstreams_roundTrip :
    ¬ ∀ text, IsUpstreamText text →
      (parseBeginnerConfig (renderUpstreamsConfig (parseBeginnerConfig text))).upstreams =
        stableSort firstGroup (parseBeginnerConfig text).upstreams := by
  intro all
  have upstreamText : IsUpstreamText "server-h3 1.1.1.1" := by
    unfold IsUpstreamText
    decide
  have kinds := kind_ne_of_roundTrip (by decide)
    (isReadable_of_mem_upstreams upstreamText) (all _ upstreamText)
  revert kinds
  decide

end SmartDnsPlusUi
