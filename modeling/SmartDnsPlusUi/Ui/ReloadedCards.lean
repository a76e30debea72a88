import Mathlib.Data.List.Permutation
import SmartDnsPlusUi.Config.ConcurrentSaves
import SmartDnsPlusUi.Config.LoadSave
import SmartDnsPlusUi.Ui.UpstreamEdits
import SmartDnsPlusUi.Ui.UpstreamsAgree

/-!
# Cards that are saved and loaded again

What is entered in the cards of the upstream servers is saved, written to the page of the
upstream servers, read from it by the page and shown in cards again.
-/

namespace SmartDnsPlusUi

open Files Text

/-! ### Plain texts -/

/-- A character that means nothing but itself to the form, to the page and to the configuration. -/
structure IsPlainChar (c : Char) : Prop where
  solid : isWhitespace c = false
  no_mark : c ≠ byteOrderMark
  no_quote : c ≠ '"'
  no_backslash : c ≠ '\\'
  no_null : c ≠ '\x00'

instance (c : Char) : Decidable (IsPlainChar c) :=
  decidable_of_iff
    (isWhitespace c = false ∧ c ≠ byteOrderMark ∧ c ≠ '"' ∧ c ≠ '\\' ∧ c ≠ '\x00')
    ⟨fun ⟨solid, noMark, noQuote, noBackslash, noNull⟩ =>
        ⟨solid, noMark, noQuote, noBackslash, noNull⟩,
      fun plain => ⟨plain.solid, plain.no_mark, plain.no_quote, plain.no_backslash, plain.no_null⟩⟩

def IsPlainEntry (t : Text) : Prop := ∀ c ∈ t, IsPlainChar c

instance (t : Text) : Decidable (IsPlainEntry t) := List.decidableBAll IsPlainChar t

theorem isPlainEntry_nil : IsPlainEntry [] := fun _ listed => absurd listed List.not_mem_nil

theorem IsPlainChar.not_scriptSpace {c : Char} (plain : IsPlainChar c) :
    isScriptSpace c = false := by
  simp [isScriptSpace, plain.solid, plain.no_mark]

theorem IsPlainEntry.solid {t : Text} (plain : IsPlainEntry t) : Solid t :=
  fun c listed => (plain c listed).solid

theorem IsPlainEntry.isToken {t : Text} (plain : IsPlainEntry t) (nonempty : t ≠ []) : IsToken t :=
  ⟨nonempty, plain.solid⟩

theorem IsPlainEntry.scriptTrim_eq {t : Text} (plain : IsPlainEntry t) : scriptTrim t = t := by
  apply scriptTrim_eq_self_iff.mpr
  constructor
  · exact fun c first => (plain c (List.mem_of_mem_head? first)).not_scriptSpace
  · exact fun c last => (plain c (List.mem_of_mem_getLast? last)).not_scriptSpace

theorem IsPlainEntry.isShown {t : Text} (plain : IsPlainEntry t) : IsShown t := by
  intro c listed
  have character := plain c listed
  refine ⟨character.no_quote, character.no_null, ?_, ?_⟩
  · rintro rfl
    exact absurd character.solid (by decide)
  · rintro rfl
    exact absurd character.solid (by decide)

theorem IsPlainEntry.inputValue_eq {t : Text} (plain : IsPlainEntry t) : inputValue t = t :=
  plain.isShown.inputValue_eq

theorem IsPlainEntry.attributeValue_eq {t : Text} (plain : IsPlainEntry t) : attributeValue t = t :=
  IsShown.attributeValue_eq fun c listed => ⟨(plain c listed).no_quote, (plain c listed).no_null⟩

theorem IsPlainEntry.scanTokens_eq {t : Text} (plain : IsPlainEntry t) (token : Text) :
    scanTokens token false t = endToken (token ++ t) := by
  induction t generalizing token with
  | nil => rw [scanTokens, List.append_nil]
  | cons c t inductionHypothesis =>
      unfold IsPlainEntry at plain inductionHypothesis
      rw [List.forall_mem_cons] at plain
      have shape : token ++ c :: t = (token ++ [c]) ++ t := by simp
      rw [scanTokens, if_neg Bool.false_ne_true, if_neg plain.1.no_quote,
        if_neg (by simp [plain.1.not_scriptSpace]), inductionHypothesis plain.2, shape]

theorem IsPlainEntry.isArgument {t : Text} (plain : IsPlainEntry t) (nonempty : t ≠ []) :
    IsArgument t :=
  (plain.scanTokens_eq []).trans (if_neg nonempty)

/-! ### The line of a plain upstream server -/

/-- The settings of the upstream server are plain texts. -/
structure IsPlainUpstream (u : UpstreamConfig) : Prop where
  readable : IsReadable u
  value : IsPlainEntry u.value
  groups : ∀ group ∈ u.groups, IsPlainEntry group
  proxy : IsPlainEntry u.proxyName
  bootstrap : IsPlainEntry u.bootstrapDns
  host_ip : IsPlainEntry u.hostIp
  subnet : IsPlainEntry u.subnet
  options : ∃ tokens, IsPassthrough tokens ∧ u.options = join [' '] tokens ∧
    ∀ token ∈ tokens, IsPlainEntry token
  kind : u.kind ∈ upstreamKinds

theorem isPlainEntry_argumentWords {name argument : Text} (plain : IsPlainEntry name)
    (plain' : IsPlainEntry argument) :
    ∀ word ∈ (argumentWords name argument).flatten, IsPlainEntry word := by
  unfold argumentWords
  intro word listed
  split_ifs at listed
  · cases listed
  · rcases (by simpa using listed : word = name ∨ word = argument) with rfl | rfl
    · exact plain
    · exact plain'

theorem isPlainEntry_flagWords {name : Text} (plain : IsPlainEntry name) (set : Bool) :
    ∀ word ∈ (flagWords name set).flatten, IsPlainEntry word := by
  intro word listed
  cases set with
  | false => cases listed
  | true =>
      rw [show word = name by simpa [flagWords] using listed]
      exact plain

theorem isPlainEntry_lineWords {u : UpstreamConfig} (plain : IsPlainUpstream u)
    {tokens : List Text} (passed : ∀ token ∈ tokens, IsPlainEntry token) :
    ∀ word ∈ lineWords u tokens, IsPlainEntry word := by
  have groups : ∀ word ∈ (u.groups.flatMap (argumentWords "-group")).flatten,
      IsPlainEntry word := by
    intro word listed
    obtain ⟨words, among, inside⟩ := List.mem_flatten.mp listed
    obtain ⟨group, member, found⟩ := List.mem_flatMap.mp among
    exact isPlainEntry_argumentWords (by decide) (plain.groups group member) word
      (List.mem_flatten.mpr ⟨words, found, inside⟩)
  have rest : ∀ word ∈ (if tokens = [] then [] else [tokens]).flatten, IsPlainEntry word := by
    intro word listed
    split_ifs at listed
    · cases listed
    · exact passed word (by simpa using listed)
  have keyword : IsPlainEntry (upstreamKey u.kind).toList := by
    have all : ∀ key ∈ writtenUpstreamKeys, IsPlainEntry key.toList := by decide
    exact all _ (upstreamKey_mem u.kind)
  intro word listed
  rw [lineWords, List.mem_cons, List.mem_cons] at listed
  rcases listed with rfl | rfl | among
  · exact keyword
  · exact plain.value
  · simp only [upstreamWords, List.flatten_append, List.mem_append] at among
    rcases among with ((((((group | exclude) | proxy) | bootstrap) | hostIp) | subnet) | fallback) | last
    · exact groups word group
    · exact isPlainEntry_flagWords (by decide) _ word exclude
    · exact isPlainEntry_argumentWords (by decide) plain.proxy word proxy
    · exact isPlainEntry_argumentWords (by decide) plain.bootstrap word bootstrap
    · exact isPlainEntry_argumentWords (by decide) plain.host_ip word hostIp
    · exact isPlainEntry_argumentWords (by decide) plain.subnet word subnet
    · exact isPlainEntry_flagWords (by decide) _ word fallback
    · exact rest word last

/-- The characters of the line are plain but for the spaces between its words. -/
theorem mem_upstreamLine {u : UpstreamConfig} (plain : IsPlainUpstream u) {c : Char}
    (listed : c ∈ upstreamLine u) : c = ' ' ∨ IsPlainChar c := by
  obtain ⟨tokens, shape, options, passed⟩ := plain.options
  rw [upstreamLine_eq plain.readable shape options] at listed
  by_cases space : c = ' '
  · exact Or.inl space
  · refine Or.inr ?_
    by_contra other
    refine not_mem_join space ?_ listed
    intro word among inside
    exact other (isPlainEntry_lineWords plain passed word among c inside)

theorem splitFirst_snd_subset (t : Text) : (splitFirst t).2 ⊆ t := by
  intro c listed
  unfold splitFirst at listed
  exact (List.dropWhile_suffix _).subset (List.mem_of_mem_drop listed)

theorem isPlainWord_of_no_quote {word : Text} (noQuote : '"' ∉ word) : IsPlainWord word := by
  constructor
  · rw [List.count_eq_zero.mpr noQuote]
  · exact fun quoted => noQuote (List.mem_of_mem_head? quoted.1)

theorem isLineTerminator_of_plain {c : Char} (plain : c = ' ' ∨ IsPlainChar c) :
    isLineTerminator c = false := by
  rcases plain with rfl | character
  · decide
  · by_contra ends
    have terminator := Bool.eq_true_of_not_eq_false ends
    simp only [isLineTerminator, Bool.or_eq_true, decide_eq_true_eq] at terminator
    rcases terminator with ((rfl | rfl) | rfl) | rfl <;>
      exact absurd character.solid (by decide)

theorem isPlainServer_upstreamLine {u : UpstreamConfig} (plain : IsPlainUpstream u) :
    IsPlainServer (upstreamLine u) := by
  have again := upstreamFrom_upstreamLine plain.readable
  have value : (splitFirst (splitDirective (upstreamLine u)).value).1 = u.value := by
    rw [← value_upstreamFrom, again]
  have inside := value_splitDirective_subset (upstreamLine u)
  have characters : ∀ c ∈ upstreamLine u, c = ' ' ∨ IsPlainChar c := fun c listed =>
    mem_upstreamLine plain listed
  generalize upstreamLine u = line at *
  have noQuote : '"' ∉ line := by
    intro quote
    rcases characters '"' quote with space | character
    · exact absurd space (by decide)
    · exact character.no_quote rfl
  constructor
  · intro c listed
    rcases characters c listed with rfl | character
    · decide
    · rw [character.not_scriptSpace, character.solid]
  · intro empty
    rw [empty] at value
    exact plain.readable.value.1 value.symm
  · rw [value]
    intro quoted
    exact (plain.value '"' (List.mem_of_mem_head? quoted.1)).no_quote rfl
  · intro c listed
    exact isLineTerminator_of_plain (characters c (inside (trim_splitFirst_subset _ listed)))
  · intro word listed
    apply isPlainWord_of_no_quote
    intro quote
    exact noQuote (inside (splitFirst_snd_subset _ (mem_of_mem_splitWhitespace listed quote)))

theorem no_backslash_upstreamLine {u : UpstreamConfig} (plain : IsPlainUpstream u) :
    endsWith '\\' (upstreamLine u) = false := by
  apply endsWith_of_not_mem
  intro backslash
  rcases mem_upstreamLine plain backslash with space | character
  · exact absurd space (by decide)
  · exact character.no_backslash rfl

theorem IsPlainUpstream.no_backslash {u : UpstreamConfig} (plain : IsPlainUpstream u) :
    endsWith '\\' (lastArgument u) = false := by
  rw [← endsWith_upstreamLine plain.readable]
  exact no_backslash_upstreamLine plain

/-! ### The page of plain upstream servers -/

theorem IsPlainEntry.isSetting {t : Text} (plain : IsPlainEntry t) : IsSetting t := by
  refine ⟨plain.solid.trimmed, plain.solid.no_newline, ?_⟩
  apply endsWith_of_not_mem
  exact fun backslash => (plain '\\' backslash).no_backslash rfl

theorem IsPlainUpstream.fitsLine {u : UpstreamConfig} (plain : IsPlainUpstream u) : FitsLine u := by
  have options : IsSetting u.options := by
    obtain ⟨tokens, shape, written, passed⟩ := plain.options
    rw [written]
    apply (isSetting_join _).1
    exact fun token listed => ⟨(passed token listed).isSetting, (shape.words token listed).1⟩
  have flag {name : Text} (setting : IsSetting name) (set : Bool) :
      ∀ argument ∈ (if set then [name] else []), IsSetting argument := by
    cases set <;> simp [setting]
  intro argument listed
  simp only [upstreamArguments, List.mem_append, List.mem_singleton] at listed
  rcases listed with
    (((((((rfl | group) | exclude) | rfl) | rfl) | rfl) | rfl) | fallback) | rfl
  · exact plain.value.isSetting
  · exact (plain.groups argument group).isSetting
  · exact flag (by decide) _ argument exclude
  · exact plain.proxy.isSetting
  · exact plain.bootstrap.isSetting
  · exact plain.host_ip.isSetting
  · exact plain.subnet.isSetting
  · exact flag (by decide) _ argument fallback
  · exact options

/-- Each line of the page is a banner or the line of an upstream server. -/
theorem mem_lines_renderUpstreamsConfig {config : BeginnerConfig} (nonempty : config.upstreams ≠ [])
    (plain : ∀ u ∈ config.upstreams, IsPlainUpstream u) :
    ∀ raw ∈ (renderUpstreamsConfig config).splitOn '\n',
      IsBanner raw ∨ ∃ u ∈ config.upstreams, upstreamLine u = raw := by
  obtain ⟨ls, page, servers⟩ := exists_lines_renderUpstreamsConfig fun u listed =>
    (plain u listed).fitsLine
  have written : writtenUpstreams config = config.upstreams := if_neg nonempty
  have lines : ∀ raw ∈ ls, IsBanner raw ∨ ∃ u ∈ config.upstreams, upstreamLine u = raw := by
    intro raw listed
    by_cases banner : IsBanner raw
    · exact Or.inl banner
    · obtain ⟨u, among, -, line⟩ := servers raw (List.mem_filter.mpr ⟨listed, by simpa using banner⟩)
      exact Or.inr ⟨u, written ▸ among, line⟩
  have free : ∀ raw ∈ ls ++ [[]], '\n' ∉ raw := by
    intro raw listed
    rcases List.mem_append.mp listed with inside | last
    · rcases lines raw inside with banner | ⟨u, among, rfl⟩
      · exact banner.2
      · intro newline
        rcases mem_upstreamLine (plain u among) newline with space | character
        · exact absurd space (by decide)
        · exact absurd character.solid (by decide)
    · rw [List.mem_singleton.mp last]
      exact List.not_mem_nil
  have pieces : (renderUpstreamsConfig config).splitOn '\n' = ls ++ [[]] := by
    rw [page, ← join_append_nil]
    exact List.splitOn_intercalate '\n' free (List.append_ne_nil_of_right_ne_nil ls (List.cons_ne_nil _ _))
  intro raw listed
  rw [pieces] at listed
  rcases List.mem_append.mp listed with inside | last
  · exact lines raw inside
  · rw [List.mem_singleton.mp last]
    exact Or.inl (by decide)

theorem trim_banner {raw : Text} (banner : IsBanner raw) :
    trim raw = [] ∨ (trim raw).head? = some '#' := by
  rcases banner.1 with rfl | first
  · exact Or.inl rfl
  · obtain ⟨rest, rfl⟩ := List.head?_eq_some_iff.mp first
    exact Or.inr (head?_trim_cons (by decide) rest)

theorem parsersAgree_renderUpstreamsConfig {config : BeginnerConfig}
    (nonempty : config.upstreams ≠ []) (plain : ∀ u ∈ config.upstreams, IsPlainUpstream u) :
    ParsersAgree (renderUpstreamsConfig config) := by
  have lines := mem_lines_renderUpstreamsConfig nonempty plain
  apply parsersAgree_of_readAlike
  generalize (renderUpstreamsConfig config).splitOn '\n' = ls at lines ⊢
  apply readAlike_of_lines
  · intro raw listed continues
    rcases lines raw listed with banner | ⟨u, among, rfl⟩
    · rcases trim_banner banner with empty | comment
      · rw [Continues, empty] at continues
        exact absurd continues.2 (by decide)
      · exact continues.1 comment
    · have trimmed := (isPageLine_upstreamLine (plain u among).readable).2
      rw [Continues, trimmed, no_backslash_upstreamLine (plain u among)] at continues
      exact Bool.false_ne_true continues.2
  · intro raw listed logical
    rcases lines raw listed with banner | ⟨u, among, rfl⟩
    · rcases trim_banner banner with empty | comment
      · exact absurd empty logical.nonempty
      · exact absurd comment logical.no_comment
    · refine ⟨fun _ => isPlainServer_upstreamLine (plain u among), fun other => ?_⟩
      rw [isServerLine_trim] at other
      exact absurd (beginnerKeyword_upstreamLine u) other

/-- The page reads the plain upstream servers that were written, group by group. -/
theorem parseManagedUpstreamsText_renderUpstreamsConfig {config : BeginnerConfig}
    (nonempty : config.upstreams ≠ []) (plain : ∀ u ∈ config.upstreams, IsPlainUpstream u) :
    parseManagedUpstreamsText (renderUpstreamsConfig config) =
      stableSort firstGroup config.upstreams := by
  have agree := parsersAgree_renderUpstreamsConfig nonempty plain
  have readable := fun u listed => (plain u listed).readable
  have noBackslash := fun u listed => (plain u listed).no_backslash
  have kinds : ∀ kind ∈ upstreamKinds, managedKind (upstreamKey kind) = kind := by decide
  have same : ∀ u ∈ stableSort firstGroup config.upstreams,
      readAsHttp3 { u with kind := upstreamKey u.kind } = u := by
    intro u listed
    have kind := kinds u.kind (plain u (mem_stableSort_iff.mp listed)).kind
    rw [readAsHttp3]
    dsimp only
    rw [kind]
  rw [ParsersAgree, parse_renderUpstreamsConfig nonempty readable noBackslash, List.map_map] at agree
  rw [agree]
  exact (List.map_congr_left same).trans (List.map_id _)

/-! ### Notes -/

def withoutNote (u : UpstreamConfig) : UpstreamConfig := { u with note := [] }

theorem upstreamLine_withoutNote (u : UpstreamConfig) :
    upstreamLine (withoutNote u) = upstreamLine u := by
  cases u
  rfl

/-- A note is not written to the page. -/
theorem renderUpstreamsConfig_withoutNote {config : BeginnerConfig} (nonempty : config.upstreams ≠ []) :
    renderUpstreamsConfig { config with upstreams := config.upstreams.map withoutNote } =
      renderUpstreamsConfig config := by
  have lines (upstreams : List UpstreamConfig) :
      (upstreams.map withoutNote).map upstreamLine = upstreams.map upstreamLine := by
    rw [List.map_map]
    refine List.map_congr_left fun u _ => ?_
    rw [Function.comp_apply, upstreamLine_withoutNote]
  have listed : (config.upstreams.map withoutNote).filter (trim ·.value ≠ []) =
      (config.upstreams.filter (trim ·.value ≠ [])).map withoutNote := List.filter_map
  have nonempty' : config.upstreams.map withoutNote ≠ [] := mt List.map_eq_nil_iff.mp nonempty
  unfold renderUpstreamsConfig
  simp only [if_neg nonempty, if_neg nonempty', listed]
  generalize config.upstreams.filter (trim ·.value ≠ []) = upstreams
  have grouped : groupByKey firstGroup (upstreams.map withoutNote) =
      (groupByKey firstGroup upstreams).map fun group => (group.1, group.2.map withoutNote) :=
    groupByKey_map (fun _ => rfl) upstreams
  have ungrouped : (upstreams.map withoutNote).filter (firstGroup · = none) =
      (upstreams.filter (firstGroup · = none)).map withoutNote := List.filter_map
  rw [grouped, ungrouped, List.flatMap_map]
  simp only [lines, ne_eq, List.map_eq_nil_iff]

/-! ### Cards -/

/-- The card that is shown after a reload. -/
def UpEdit.reloaded (e : UpEdit) : UpEdit :=
  { kind := e.kind
    value := scriptTrim e.value
    groups := if chosenGroup e = [] then ungrouped else chosenGroup e
    exclude := e.exclude
    proxy := e.proxy
    bootstrap := scriptTrim e.bootstrap
    hostIp := scriptTrim e.hostIp
    subnet := scriptTrim e.subnet
    fallback := e.fallback
    opts := e.opts.trimmed
    note := [] }

/-- The group that the upstream server of the card is listed under. -/
def cardGroup (e : UpEdit) : Option Text :=
  if chosenGroup e = [] then none else some (chosenGroup e)

/-- What is entered is plain, and the server takes no word in the options for an option of its
own. -/
structure IsEntered (e : UpEdit) : Prop where
  kind : e.kind ∈ upstreamKinds
  value : IsPlainEntry (scriptTrim e.value) ∧ scriptTrim e.value ≠ []
  group : IsPlainEntry (chosenGroup e)
  proxy : IsPlainEntry e.proxy
  bootstrap : IsPlainEntry (scriptTrim e.bootstrap)
  host_ip : IsPlainEntry (scriptTrim e.hostIp)
  subnet : IsPlainEntry (scriptTrim e.subnet)
  argument : ∀ input, IsPlainEntry (scriptTrim (e.opts.argument input)) ∧
    upstreamOption (scriptTrim (e.opts.argument input)) = .other
  extra : ∃ tokens, (∀ token ∈ tokens, IsPlainEntry token) ∧ IsPassthrough tokens ∧
    IsPassive tokens ∧ scriptTrim e.opts.extra = join [' '] tokens

theorem IsPassthrough.append {front tokens : List Text} (words : ∀ token ∈ front, IsToken token)
    (others : ∀ token ∈ front, upstreamOption token = .other) (rest : IsPassthrough tokens) :
    IsPassthrough (front ++ tokens) := by
  induction front with
  | nil => exact rest
  | cons token front inductionHypothesis =>
      rw [List.forall_mem_cons] at words others
      exact (inductionHypothesis words.2 others.2).cons words.1 others.1

theorem mem_tokens_givenOptions {o : UpOpts} {token : Text}
    (listed : token ∈ (givenOptions o).flatMap UpOption.tokens) :
    (∃ input : OptionInput, token = input.flag) ∨ token = tlsHostVerifyFlag ∨
      token = noCheckCertFlag ∨ ∃ input, o.argument input ≠ [] ∧ token = o.argument input := by
  obtain ⟨option, given, inside⟩ := List.mem_flatMap.mp listed
  rcases List.mem_append.mp given with argument | flag
  · obtain ⟨input, -, found⟩ := List.mem_filterMap.mp argument
    unfold givenArgument at found
    split_ifs at found with empty
    cases found
    rcases List.mem_cons.mp inside with name | value
    · exact Or.inl ⟨input, name⟩
    · exact Or.inr (Or.inr (Or.inr ⟨input, empty, List.mem_singleton.mp value⟩))
  · rcases List.mem_append.mp flag with verify | noCheck
    · split_ifs at verify
      · rw [List.mem_singleton.mp verify] at inside
        exact Or.inr (Or.inl (List.mem_singleton.mp inside))
      · cases verify
    · split_ifs at noCheck
      · rw [List.mem_singleton.mp noCheck] at inside
        exact Or.inr (Or.inr (Or.inl (List.mem_singleton.mp inside)))
      · cases noCheck

section

variable {e : UpEdit}

theorem IsEntered.plainTokens (entered : IsEntered e) :
    ∀ token ∈ (givenOptions e.opts.trimmed).flatMap UpOption.tokens,
      IsPlainEntry token ∧ token ≠ [] ∧ upstreamOption token = .other := by
  have flags : ∀ input ∈ OptionInput.all, IsPlainEntry input.flag ∧ input.flag ≠ [] ∧
      upstreamOption input.flag = .other := by decide
  intro token listed
  rcases mem_tokens_givenOptions listed with ⟨input, rfl⟩ | rfl | rfl | ⟨input, nonempty, rfl⟩
  · exact flags input (by cases input <;> decide)
  · decide
  · decide
  · exact ⟨(entered.argument input).1, nonempty, (entered.argument input).2⟩

theorem IsEntered.holdsOptions (entered : IsEntered e) : HoldsOptions e.opts.trimmed := by
  obtain ⟨tokens, plain, shape, passive, extra⟩ := entered.extra
  constructor
  · intro input
    by_cases empty : e.opts.trimmed.argument input = []
    · exact Or.inl empty
    · exact Or.inr ((entered.argument input).1.isArgument empty)
  · refine ⟨tokens, ?_, passive, extra⟩
    exact fun token listed => (plain token listed).isArgument (shape.words token listed).1

theorem IsEntered.options (entered : IsEntered e) :
    ∃ tokens, IsPassthrough tokens ∧ (saveUpEdit e).options = join [' '] tokens ∧
      ∀ token ∈ tokens, IsPlainEntry token := by
  obtain ⟨tokens, plain, shape, -, extra⟩ := entered.extra
  have given := entered.plainTokens
  refine ⟨(givenOptions e.opts.trimmed).flatMap UpOption.tokens ++ tokens, ?_, ?_, ?_⟩
  · apply IsPassthrough.append _ _ shape
    · exact fun token listed => (given token listed).1.isToken (given token listed).2.1
    · exact fun token listed => (given token listed).2.2
  · rw [← renderUpOpts_eq entered.holdsOptions _ extra, renderUpOpts_trimmed]
    · rfl
    · exact fun token listed => (plain token listed).isArgument (shape.words token listed).1
  · intro token listed
    rcases List.mem_append.mp listed with known | other
    · exact (given token known).1
    · exact plain token other

/-- The upstream server that the card saves. -/
theorem IsEntered.isPlainUpstream (entered : IsEntered e) :
    IsPlainUpstream (withoutNote (saveUpEdit e)) := by
  have groups : ∀ group ∈ (saveUpEdit e).groups, IsPlainEntry group ∧ group ≠ [] := by
    intro group listed
    unfold saveUpEdit at listed
    dsimp only at listed
    split_ifs at listed with empty
    · cases listed
    · rw [List.mem_singleton.mp listed]
      exact ⟨entered.group, empty⟩
  have options := entered.options
  refine ⟨?_, entered.value.1, fun group listed => (groups group listed).1, entered.proxy,
    entered.bootstrap, entered.host_ip, entered.subnet, options, entered.kind⟩
  constructor
  · exact entered.value.1.isToken entered.value.2
  · exact fun group listed => (groups group listed).1.isToken (groups group listed).2
  · exact entered.proxy.solid
  · exact entered.bootstrap.solid
  · exact entered.host_ip.solid
  · exact entered.subnet.solid
  · obtain ⟨tokens, shape, written, -⟩ := options
    exact ⟨tokens, shape, written⟩
  · rfl

theorem firstGroup_saveUpEdit (e : UpEdit) :
    firstGroup (withoutNote (saveUpEdit e)) = cardGroup e := by
  have groups : (withoutNote (saveUpEdit e)).groups =
      if chosenGroup e = [] then [] else [chosenGroup e] := rfl
  rw [firstGroup, cardGroup, groups]
  split_ifs <;> rfl

/-- The card of the upstream server that was saved. -/
theorem IsEntered.upCard_saveUpEdit (entered : IsEntered e) :
    upCard (withoutNote (saveUpEdit e)) = e.reloaded := by
  obtain ⟨tokens, shape, written, plain⟩ := entered.options
  have shown : ∀ c ∈ (withoutNote (saveUpEdit e)).options, c ≠ '"' ∧ c ≠ '\x00' := by
    intro c listed
    have inside : c ∈ (saveUpEdit e).options := listed
    rw [written] at inside
    by_cases space : c = ' '
    · subst space
      decide
    · by_contra hidden
      refine not_mem_join space ?_ inside
      intro token among found
      exact hidden ⟨(plain token among c found).no_quote, (plain token among c found).no_null⟩
  have group : (withoutNote (saveUpEdit e)).groups.head?.getD [] = chosenGroup e := by
    have first := firstGroup_saveUpEdit e
    unfold firstGroup cardGroup at first
    rw [first]
    split_ifs with empty
    · exact empty.symm
    · rfl
  apply UpEdit.ext
  · exact if_pos entered.kind
  · exact entered.value.1.inputValue_eq
  · have choice : (upCard (withoutNote (saveUpEdit e))).groups =
        if (withoutNote (saveUpEdit e)).groups.head?.getD [] = [] then ungrouped
        else attributeValue ((withoutNote (saveUpEdit e)).groups.head?.getD []) := rfl
    rw [choice, group, entered.group.attributeValue_eq]
    rfl
  · rfl
  · rfl
  · exact entered.proxy.attributeValue_eq
  · exact entered.bootstrap.inputValue_eq
  · exact entered.host_ip.inputValue_eq
  · exact entered.subnet.inputValue_eq
  · rfl
  · exact (opts_upCard shown).trans ((parseUpOpts_renderUpOpts_iff e.opts).mpr entered.holdsOptions)
  · rfl

end

/-- The page reads what was entered in the cards, group by group. -/
theorem map_upCard_renderUpstreamsConfig {config : BeginnerConfig} {cards : List UpEdit}
    (nonempty : config.upstreams ≠ []) (saved : config.upstreams = cards.map saveUpEdit)
    (entered : ∀ e ∈ cards, IsEntered e) :
    (parseManagedUpstreamsText (renderUpstreamsConfig config)).map upCard =
      (stableSort cardGroup cards).map UpEdit.reloaded := by
  have servers : config.upstreams.map withoutNote =
      cards.map fun e => withoutNote (saveUpEdit e) := by
    rw [saved, List.map_map]
    rfl
  rw [← renderUpstreamsConfig_withoutNote nonempty, parseManagedUpstreamsText_renderUpstreamsConfig]
  · dsimp only
    rw [servers, ← stableSort_map firstGroup_saveUpEdit, List.map_map]
    apply List.map_congr_left
    intro e listed
    exact (entered e ((perm_stableSort cardGroup cards).mem_iff.mp listed)).upCard_saveUpEdit
  · exact mt List.map_eq_nil_iff.mp nonempty
  · intro u listed
    dsimp only at listed
    rw [servers] at listed
    obtain ⟨e, among, rfl⟩ := List.mem_map.mp listed
    exact (entered e among).isPlainUpstream

/-! ### Saving and reloading -/

section

variable {configFile rulesDir : Text} {request : SaveConfigRequest}
  {files after : Files.FileSystem} {validation : ValidationResult}

/-- What a save has done whose response says that the settings are valid. -/
theorem savedBy_of_valid
    (gives : (saveBeginnerConfig configFile rulesDir request).Gives Program.RejectsRenames files
      (.ok validation) after)
    (accepted : validation.ok = true) :
    (∃ u ∈ request.beginner.upstreams, trim u.value ≠ []) ∧
      CanSave configFile rulesDir request files ∧
        after = savedBy configFile rulesDir request files := by
  have valid : (validateBeginnerConfig request.beginner request.rulesText).ok = true := by
    by_contra rejected
    obtain ⟨outcome, -⟩ := gives_saveBeginnerConfig_of_rejected rejected gives
    cases outcome
    exact rejected accepted
  refine ⟨exists_upstream_of_ok valid, ?_⟩
  rcases gives_saveBeginnerConfig valid gives with ⟨can, -, done⟩ | ⟨-, failed⟩
  · exact ⟨can, done⟩
  · cases failed

theorem managedUpstreamsText_savedBy (can : CanSave configFile rulesDir request files)
    (distinct : ∀ name ∈ managedFileNames, configFile ≠ managedPath rulesDir name) :
    (readOverview (textAt (savedBy configFile rulesDir request files)) configFile
      rulesDir).managedUpstreamsText = renderUpstreamsConfig request.beginner := by
  have holds := can.holdsPages_savedBy distinct
  simp only [HoldsPages, renderedPages, List.forall_mem_cons] at holds
  obtain ⟨-, ⟨upstreams, -⟩, -⟩ := holds
  dsimp only [readOverview, readManagedPageTexts]
  exact upstreams

/-- After a save that is accepted, the page that is loaded again shows what was entered in the
cards, group by group; white space around it, the notes and the distinction between a new group
and one that was there before are lost. -/
theorem upCards_reloaded {cards : List UpEdit}
    (distinct : ∀ name ∈ managedFileNames, configFile ≠ managedPath rulesDir name)
    (gives : (saveBeginnerConfig configFile rulesDir request).Gives Program.RejectsRenames files
      (.ok validation) after)
    (accepted : validation.ok = true)
    (saved : request.beginner.upstreams = cards.map saveUpEdit)
    (entered : ∀ e ∈ cards, IsEntered e) :
    (parseManagedUpstreamsText
        (readOverview (textAt after) configFile rulesDir).managedUpstreamsText).map upCard =
      (stableSort cardGroup cards).map UpEdit.reloaded := by
  obtain ⟨⟨u, listed, -⟩, can, rfl⟩ := savedBy_of_valid gives accepted
  rw [managedUpstreamsText_savedBy can distinct]
  exact map_upCard_renderUpstreamsConfig (List.ne_nil_of_mem listed) saved entered

end

/-- A card with a new group and a note. -/
def noteCard : UpEdit where
  kind := "server-tls"
  value := " 1.1.1.1 "
  groups := newGroup
  groupNew := "home"
  exclude := true
  proxy := []
  bootstrap := []
  hostIp := []
  subnet := []
  fallback := false
  opts := { extra := "-x", tlsHostVerify := true }
  note := "n"

theorem isEntered_noteCard : IsEntered noteCard where
  kind := by decide
  value := by decide
  group := by decide
  proxy := isPlainEntry_nil
  bootstrap := by decide
  host_ip := by decide
  subnet := by decide
  argument := fun _ => by
    dsimp only [noteCard]
    decide
  extra := by
    refine ⟨["-x"], by decide, ?_, rfl, by decide⟩
    exact isPassthrough_nil.cons (by decide) (by decide)

/-- A card of no group. -/
def openCard : UpEdit :=
  { noteCard with kind := "server", value := "8.8.8.8", groups := ungrouped, groupNew := [] }

theorem isEntered_openCard : IsEntered openCard :=
  { isEntered_noteCard with
    kind := by decide
    value := by decide
    group := by decide }

theorem stableSort_cards : stableSort cardGroup [openCard, noteCard] = [noteCard, openCard] := by
  have later : sortKey cardGroup noteCard < sortKey cardGroup openCard := by decide
  have sorted := pairwise_stableSort cardGroup [openCard, noteCard]
  rcases List.perm_pair.mp (perm_stableSort cardGroup [openCard, noteCard]) with same | same
  · rw [same] at sorted
    simp [not_le_of_gt later] at sorted
  · exact same

def cardsRequest : SaveConfigRequest :=
  ⟨{ responseMode := "first-ping", upstreams := [openCard, noteCard].map saveUpEdit }, []⟩

/-- The card of the group is shown first. -/
theorem upCards_reloaded_example :
    ∃ validation after, (saveBeginnerConfig "/etc/smartdns.conf" "/etc/smartdns/rules"
        cardsRequest).Gives Program.RejectsRenames (fun _ => none) (.ok validation) after ∧
      (parseManagedUpstreamsText (readOverview (textAt after) "/etc/smartdns.conf"
        "/etc/smartdns/rules").managedUpstreamsText).map upCard =
          [noteCard.reloaded, openCard.reloaded] := by
  have accepted : (validateBeginnerConfig cardsRequest.beginner cardsRequest.rulesText).ok =
      true := by decide
  have can := isTextual_none.canSave "/etc/smartdns.conf" "/etc/smartdns/rules" cardsRequest
  have gives := gives_savedBy can accepted
  have entered : ∀ e ∈ [openCard, noteCard], IsEntered e :=
    List.forall_mem_cons.mpr
      ⟨isEntered_openCard, List.forall_mem_singleton.mpr isEntered_noteCard⟩
  have cards := @upCards_reloaded _ _ _ _ _ _ [openCard, noteCard] distinct_smartdns gives accepted
    rfl entered
  rw [stableSort_cards] at cards
  exact ⟨_, _, gives, cards⟩

end SmartDnsPlusUi
