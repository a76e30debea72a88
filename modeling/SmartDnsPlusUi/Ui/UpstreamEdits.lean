import SmartDnsPlusUi.Ui.OptionsText

/-!
# Editing an upstream server

The card of an upstream server shows its settings in input elements.  Saving replaces the
upstream server by what the elements hold.
-/

namespace SmartDnsPlusUi

open Text

attribute [ext] UpstreamConfig

/-- The protocols that the card offers. -/
def upstreamKinds : List String :=
  ["server", "server-tcp", "server-tls", "server-https", "server-quic", "server-http3"]

/-- The value of an attribute that the page writes between quotes: `esc` replaces `&`, `<` and `>`,
but not the quotes. -/
def attributeValue (t : Text) : Text :=
  (t.takeWhile (· ≠ '"')).map fun c => if c = '\x00' then '\uFFFD' else c

/-- What an input element makes of its attribute: it holds a single line. -/
def inputValue (t : Text) : Text :=
  (attributeValue t).filter fun c => c ≠ '\n' && c ≠ '\r'

/-- The elements of a card; `groups` is the choice of the group and `groupNew` the text for a new
one. -/
@[ext] structure UpEdit where
  kind : String
  value : Text
  groups : Text
  groupNew : Text := []
  exclude : Bool
  proxy : Text
  bootstrap : Text
  hostIp : Text
  subnet : Text
  fallback : Bool
  opts : UpOpts
  note : Text

def ungrouped : Text := "__ungrouped__"

def newGroup : Text := "_new_"

/-- What the elements of a card hold at first.  The choices offer the proxy and the group of the
upstream server beside those of all others, and one protocol is chosen in any case. -/
def upCard (u : UpstreamConfig) : UpEdit :=
  let group := u.groups.head?.getD []
  let opts := parseUpOpts u.options
  { kind := if u.kind ∈ upstreamKinds then u.kind else "server"
    value := inputValue u.value
    groups := if group = [] then ungrouped else attributeValue group
    exclude := u.excludeDefaultGroup
    proxy := attributeValue u.proxyName
    bootstrap := inputValue u.bootstrapDns
    hostIp := inputValue u.hostIp
    subnet := inputValue u.subnet
    fallback := u.fallback
    opts :=
      { opts with
        argument := fun input => inputValue (opts.argument input)
        extra := inputValue opts.extra }
    note := inputValue u.note }

def chosenGroup (e : UpEdit) : Text :=
  if e.groups = ungrouped then []
  else if e.groups = newGroup then scriptTrim e.groupNew
  else e.groups

def saveUpEdit (e : UpEdit) : UpstreamConfig :=
  { kind := e.kind
    value := scriptTrim e.value
    groups := if chosenGroup e = [] then [] else [chosenGroup e]
    excludeDefaultGroup := e.exclude
    proxyName := e.proxy
    bootstrapDns := scriptTrim e.bootstrap
    hostIp := scriptTrim e.hostIp
    subnet := scriptTrim e.subnet
    fallback := e.fallback
    options := renderUpOpts e.opts
    note := scriptTrim e.note }

/-- Opening the card and saving it without an edit. -/
def saveUntouched (u : UpstreamConfig) : UpstreamConfig := saveUpEdit (upCard u)

/-! ### What the elements show -/

/-- The element shows the text as it is. -/
def IsShown (t : Text) : Prop := ∀ c ∈ t, c ≠ '"' ∧ c ≠ '\x00' ∧ c ≠ '\n' ∧ c ≠ '\r'

theorem IsShown.attributeValue_eq {t : Text} (shown : ∀ c ∈ t, c ≠ '"' ∧ c ≠ '\x00') :
    attributeValue t = t := by
  have whole : t.takeWhile (· ≠ '"') = t :=
    List.takeWhile_eq_self_iff.mpr fun c listed => decide_eq_true (shown c listed).1
  rw [attributeValue, whole]
  conv_rhs => rw [← List.map_id t]
  exact List.map_congr_left fun c listed => if_neg (shown c listed).2

theorem IsShown.inputValue_eq {t : Text} (shown : IsShown t) : inputValue t = t := by
  rw [inputValue, IsShown.attributeValue_eq fun c listed => ⟨(shown c listed).1, (shown c listed).2.1⟩]
  apply List.filter_eq_self.mpr
  intro c listed
  simp [(shown c listed).2.2]

theorem mem_attributeValue {t : Text} {c : Char} (listed : c ∈ attributeValue t) :
    c ≠ '"' ∧ c ≠ '\x00' := by
  obtain ⟨d, inside, rfl⟩ := List.mem_map.mp listed
  have noQuote : d ≠ '"' := by simpa using List.mem_takeWhile_imp inside
  by_cases null : d = '\x00'
  · rw [if_pos null]
    decide
  · rw [if_neg null]
    exact ⟨noQuote, null⟩

theorem isShown_inputValue (t : Text) : IsShown (inputValue t) := by
  intro c listed
  obtain ⟨inside, kept⟩ := List.mem_filter.mp listed
  have single : c ≠ '\n' ∧ c ≠ '\r' := by simpa using kept
  exact ⟨(mem_attributeValue inside).1, (mem_attributeValue inside).2, single⟩

theorem attributeValue_attributeValue (t : Text) :
    attributeValue (attributeValue t) = attributeValue t :=
  IsShown.attributeValue_eq fun _ => mem_attributeValue

/-- The text of an input element is saved and shown again. -/
theorem scriptTrim_inputValue_again (t : Text) :
    scriptTrim (inputValue (scriptTrim (inputValue t))) = scriptTrim (inputValue t) := by
  have shown : IsShown (scriptTrim (inputValue t)) := fun c listed =>
    isShown_inputValue t c ((scriptTrim_isInfix _).subset listed)
  rw [shown.inputValue_eq, scriptTrim_scriptTrim]

/-- Tokens without quotes have no white space. -/
theorem mem_scanTokens {token t : Text} (noQuote : '"' ∉ t) :
    ∀ other ∈ scanTokens token false t, ∀ c ∈ other, c ∈ token ∨ c ∈ t ∧ isScriptSpace c = false := by
  have ended (token : Text) : ∀ other ∈ endToken token, ∀ c ∈ other, c ∈ token := by
    intro other listed c inside
    unfold endToken at listed
    split_ifs at listed
    · cases listed
    · rwa [← List.mem_singleton.mp listed]
  induction t generalizing token with
  | nil => exact fun other listed c inside => Or.inl (ended token other listed c inside)
  | cons d t inductionHypothesis =>
      have apart : d ≠ '"' := fun quote => noQuote (quote ▸ List.mem_cons_self)
      have later (token : Text) := @inductionHypothesis token
        fun listed => noQuote (List.mem_cons_of_mem d listed)
      intro other listed c inside
      unfold scanTokens at listed
      rw [if_neg Bool.false_ne_true, if_neg apart] at listed
      split_ifs at listed with space
      · rcases List.mem_append.mp listed with first | rest
        · exact Or.inl (ended token other first c inside)
        · rcases later [] other rest c inside with none | found
          · cases none
          · exact Or.inr ⟨List.mem_cons_of_mem d found.1, found.2⟩
      · rcases later (token ++ [d]) other listed c inside with before | found
        · rcases List.mem_append.mp before with early | last
          · exact Or.inl early
          · rw [List.mem_singleton.mp last]
            exact Or.inr ⟨List.mem_cons_self, by simpa using space⟩
        · exact Or.inr ⟨List.mem_cons_of_mem d found.1, found.2⟩

theorem isShown_of_mem_tokenizeArgs {opts : Text} (shown : ∀ c ∈ opts, c ≠ '"' ∧ c ≠ '\x00') :
    ∀ token ∈ tokenizeArgs opts, IsShown token := by
  intro token listed c inside
  have noQuote : '"' ∉ opts := fun quote => (shown '"' quote).1 rfl
  rcases mem_scanTokens noQuote token listed c inside with none | ⟨found, visible⟩
  · cases none
  · refine ⟨(shown c found).1, (shown c found).2, ?_, ?_⟩
    · rintro rfl
      exact absurd visible (by decide)
    · rintro rfl
      exact absurd visible (by decide)

/-- The elements show what the options were taken apart into. -/
theorem opts_upCard {u : UpstreamConfig} (shown : ∀ c ∈ u.options, c ≠ '"' ∧ c ≠ '\x00') :
    (upCard u).opts = parseUpOpts u.options := by
  have tokens := isShown_of_mem_tokenizeArgs shown
  have argument (input : OptionInput) : IsShown ((parseUpOpts u.options).argument input) := by
    rw [parseUpOpts, scanUpOpts_eq, argument_foldl_apply]
    cases given : lastGiven input (readUpOptions (tokenizeArgs u.options)) with
    | none => exact fun c listed => absurd listed List.not_mem_nil
    | some value =>
        apply tokens
        exact mem_of_mem_tokens (lastGiven_mem given) (by simp [UpOption.tokens])
  have extra : IsShown (parseUpOpts u.options).extra := by
    have others : ∀ token ∈ (readUpOptions (tokenizeArgs u.options)).filterMap UpOption.token,
        token ∈ tokenizeArgs u.options := by
      intro token listed
      obtain ⟨option, given, found⟩ := List.mem_filterMap.mp listed
      rw [token_eq_some found] at given
      exact mem_of_mem_tokens given List.mem_cons_self
    have written := @extra_foldl_apply (readUpOptions (tokenizeArgs u.options)) {} [] rfl
      (fun _ listed => absurd listed List.not_mem_nil)
      fun token listed => (isArgument_of_mem_tokenizeArgs (others token listed)).ne_nil
    rw [parseUpOpts, scanUpOpts_eq, written, List.nil_append]
    intro c listed
    by_cases space : c = ' '
    · subst space
      decide
    · by_contra hidden
      refine not_mem_join space ?_ listed
      intro token among inside
      exact hidden (tokens token (others token among) c inside)
  apply UpOpts.ext
  · exact funext fun input => (argument input).inputValue_eq
  · rfl
  · rfl
  · exact extra.inputValue_eq

/-! ### Saving without an edit -/

theorem options_saveUntouched {u : UpstreamConfig}
    (shown : ∀ c ∈ u.options, c ≠ '"' ∧ c ≠ '\x00') :
    (saveUntouched u).options = renderUpOpts (parseUpOpts u.options) :=
  congrArg renderUpOpts (opts_upCard shown)

/-- What is written are tokens that were read. -/
theorem renderUpOpts_parseUpOpts (opts : Text) :
    let tokens := (givenOptions (parseUpOpts opts)).flatMap UpOption.tokens ++
      (readUpOptions (tokenizeArgs opts)).filterMap UpOption.token
    renderUpOpts (parseUpOpts opts) = join [' '] tokens ∧
      tokenizeArgs (renderUpOpts (parseUpOpts opts)) = tokens ∧
      ∀ token ∈ tokens, token ∈ tokenizeArgs opts := by
  have others : ∀ token ∈ (readUpOptions (tokenizeArgs opts)).filterMap UpOption.token,
      token ∈ tokenizeArgs opts := by
    intro token listed
    obtain ⟨option, given, found⟩ := List.mem_filterMap.mp listed
    rw [token_eq_some found] at given
    exact mem_of_mem_tokens given List.mem_cons_self
  have arguments := fun token listed => isArgument_of_mem_tokenizeArgs (others token listed)
  have extra := @extra_foldl_apply (readUpOptions (tokenizeArgs opts)) {} [] rfl nofun
    fun token listed => (arguments token listed).ne_nil
  rw [← scanUpOpts_eq, List.nil_append] at extra
  have holds := holdsOptions_parseUpOpts opts
  refine ⟨renderUpOpts_eq holds arguments extra, ?_, ?_⟩
  · exact (readUpOptions_renderUpOpts holds arguments (isPassive_others _) extra).1
  · intro token listed
    rcases List.mem_append.mp listed with given | other
    · obtain ⟨option, effective, inside⟩ := List.mem_flatMap.mp given
      rw [parseUpOpts, scanUpOpts_eq] at effective
      exact mem_of_mem_tokens (mem_of_mem_givenOptions effective) inside
    · exact others token other

theorem shown_options_saveUntouched {u : UpstreamConfig}
    (shown : ∀ c ∈ u.options, c ≠ '"' ∧ c ≠ '\x00') :
    ∀ c ∈ (saveUntouched u).options, c ≠ '"' ∧ c ≠ '\x00' := by
  obtain ⟨written, -, tokens⟩ := renderUpOpts_parseUpOpts u.options
  rw [options_saveUntouched shown, written]
  intro c listed
  by_cases space : c = ' '
  · subst space
    decide
  · by_contra hidden
    refine not_mem_join space ?_ listed
    intro token among inside
    have visible := isShown_of_mem_tokenizeArgs shown token (tokens token among) c inside
    exact hidden ⟨visible.1, visible.2.1⟩

/-- The choice of a group is saved and made again. -/
theorem chosenGroup_upCard_again (u : UpstreamConfig) :
    chosenGroup (upCard (saveUntouched u)) = chosenGroup (upCard u) := by
  have card (v : UpstreamConfig) : (upCard v).groups =
      if v.groups.head?.getD [] = [] then ungrouped
      else attributeValue (v.groups.head?.getD []) := rfl
  have saved : (saveUntouched u).groups.head?.getD [] = chosenGroup (upCard u) := by
    have groups : (saveUntouched u).groups =
        if chosenGroup (upCard u) = [] then [] else [chosenGroup (upCard u)] := rfl
    rw [groups]
    split_ifs with empty
    · exact empty.symm
    · rfl
  by_cases empty : chosenGroup (upCard u) = []
  · have none : (upCard (saveUntouched u)).groups = ungrouped := by
      rw [card, saved, if_pos empty]
    rw [empty]
    exact if_pos none
  · have chosen : chosenGroup (upCard u) = (upCard u).groups ∧
        (upCard u).groups ≠ ungrouped ∧ (upCard u).groups ≠ newGroup := by
      unfold chosenGroup at empty ⊢
      by_cases without : (upCard u).groups = ungrouped
      · exact absurd (if_pos without) empty
      · rw [if_neg without] at empty ⊢
        by_cases new : (upCard u).groups = newGroup
        · exact absurd (if_pos new) empty
        · exact ⟨if_neg new, without, new⟩
    have shown : attributeValue (upCard u).groups = (upCard u).groups := by
      rw [card] at chosen ⊢
      by_cases none : u.groups.head?.getD [] = []
      · exact absurd (if_pos none) chosen.2.1
      · rw [if_neg none, attributeValue_attributeValue]
    have again : (upCard (saveUntouched u)).groups = (upCard u).groups := by
      rw [card (saveUntouched u), saved, if_neg empty, chosen.1, shown]
    unfold chosenGroup
    rw [again, if_neg chosen.2.1, if_neg chosen.2.1, if_neg chosen.2.2, if_neg chosen.2.2]

theorem kind_upCard (u : UpstreamConfig) : (upCard u).kind ∈ upstreamKinds := by
  unfold upCard
  by_cases offered : u.kind ∈ upstreamKinds
  · simpa only [if_pos offered] using offered
  · simp only [if_neg offered]
    decide

/-- Saving without an edit keeps the options in effect, a second time it changes nothing, and no
token of the options is lost exactly when no known option is given twice. -/
theorem saveUntouched_options {u : UpstreamConfig}
    (shown : ∀ c ∈ u.options, c ≠ '"' ∧ c ≠ '\x00') :
    parseUpOpts (saveUntouched u).options = parseUpOpts u.options ∧
      saveUntouched (saveUntouched u) = saveUntouched u ∧
      ((tokenizeArgs (saveUntouched u).options).Perm (tokenizeArgs u.options) ↔
        GivesOnce (readUpOptions (tokenizeArgs u.options))) := by
  have same : parseUpOpts (saveUntouched u).options = parseUpOpts u.options := by
    rw [options_saveUntouched shown]
    exact parseUpOpts_renderUpOpts (holdsOptions_parseUpOpts _)
  refine ⟨same, ?_, ?_⟩
  · apply UpstreamConfig.ext
    · exact if_pos (kind_upCard u)
    · exact scriptTrim_inputValue_again u.value
    · exact congrArg (fun group => if group = [] then [] else [group]) (chosenGroup_upCard_again u)
    · rfl
    · exact attributeValue_attributeValue u.proxyName
    · exact scriptTrim_inputValue_again u.bootstrapDns
    · exact scriptTrim_inputValue_again u.hostIp
    · exact scriptTrim_inputValue_again u.subnet
    · rfl
    · rw [options_saveUntouched (shown_options_saveUntouched shown), same,
        options_saveUntouched shown]
    · exact scriptTrim_inputValue_again u.note
  · obtain ⟨-, read, -⟩ := renderUpOpts_parseUpOpts u.options
    rw [options_saveUntouched shown, read]
    apply perm_tokens_iff
    exact fun token listed => (isArgument_of_mem_tokenizeArgs listed).ne_nil

theorem saveUntouched_options_example :
    let u : UpstreamConfig := { options := "-x -spki-pin h" }
    parseUpOpts (saveUntouched u).options = parseUpOpts u.options ∧
      saveUntouched (saveUntouched u) = saveUntouched u ∧
      (tokenizeArgs (saveUntouched u).options).Perm (tokenizeArgs u.options) := by
  have shown : ∀ c ∈ ("-x -spki-pin h" : Text), c ≠ '"' ∧ c ≠ '\x00' := by
    intro c listed
    constructor
    · rintro rfl
      exact absurd listed (by decide)
    · rintro rfl
      exact absurd listed (by decide)
  obtain ⟨same, again, kept⟩ := @saveUntouched_options
    { options := "-x -spki-pin h" } shown
  exact ⟨same, again, kept.mpr (by decide)⟩

/-- The element does not show an argument between quotes, and saving loses the option. -/
example : (saveUntouched { options := "-http-host \"h\" -x" }).options = ("-x" : Text) := by decide

end SmartDnsPlusUi
