import SmartDnsPlusUi.Config.Backslashes

/-!
# Saving canonical rules

The rules template writes `nameserver /T/G`, `address /T/V`, `cname /T/V` and
`domain-rules /T/ OPTS`.  A saved page has the words of the lines it was parsed
from exactly when the rebuilt arguments have their slashes and gaps where the
parsed ones had them.
-/

namespace SmartDnsPlusUi

open Text

/-- A part of a rule's argument: no white space and no slash. -/
structure RulePart where
  text : Text
  solid : Solid text
  no_slash : '/' ∉ text

inductive CanonicalRule where
  | nameserver (target group : RulePart)
  | address (target value : RulePart)
  | cname (target value : RulePart)
  | domainRules (target : RulePart) (options : Text)

namespace CanonicalRule

def key : CanonicalRule → String
  | nameserver .. => "nameserver"
  | address .. => "address"
  | cname .. => "cname"
  | domainRules .. => "domain-rules"

/-- What follows the slash after the target. -/
def tail : CanonicalRule → Text
  | nameserver _ group => group.text
  | address _ value => value.text
  | cname _ value => value.text
  | domainRules _ options => ' ' :: options

def target : CanonicalRule → Text
  | nameserver target _ => target.text
  | address target _ => target.text
  | cname target _ => target.text
  | domainRules target _ => target.text

def argument (rule : CanonicalRule) : Text := '/' :: (rule.target ++ '/' :: rule.tail)

def line (rule : CanonicalRule) : Text := keyed rule.key rule.argument

def directive (rule : CanonicalRule) : Directive := ⟨rule.key, trim rule.argument⟩

end CanonicalRule

/-- The last slash follows another character than a slash, is not the one after
the leading slash, and ends a word. -/
def LastSlashEndsWord (argument : Text) : Prop :=
  ∃ before after, argument = '/' :: (before ++ '/' :: after) ∧ '/' ∉ after ∧
    endsWith '/' ('/' :: before) = false ∧ ∀ c ∈ after.head?, isWhitespace c = true

/-- The rule comes back from the renderer with the words it had. -/
def CanonicalRule.KeepsWords : CanonicalRule → Prop
  | nameserver _ group => group.text ≠ []
  | address target value => target.text ≠ [] ∧ value.text = []
  | cname target value => target.text ≠ [] ∧ value.text = []
  | domainRules target options =>
      LastSlashEndsWord ('/' :: (target.text ++ '/' :: ' ' :: options))

/-- The words of each line that is neither empty nor a comment. -/
def wordLines (page : Text) : List (List Text) := (contentOf page).map splitWhitespace

/-- The two pages that a save writes for the rules text hold the words of these
rules and no others, in order. -/
def SavesWords (rulesText : Text) (rules : List CanonicalRule) : Prop :=
  let assets := parseManagedAssetsFromText (normalizeRulesText rulesText)
  wordLines (renderRoutingItemsText assets) =
      (rules.filter (·.key = "nameserver")).map (splitWhitespace ·.line) ∧
    wordLines (renderRuleEntriesText assets) =
      (rules.filter (·.key ≠ "nameserver")).map (splitWhitespace ·.line)

instance (rulesText : Text) (rules : List CanonicalRule) : Decidable (SavesWords rulesText rules) :=
  inferInstanceAs (Decidable (_ ∧ _))

namespace CanonicalRule

theorem assetKeyword_key (rule : CanonicalRule) : assetKeyword rule.key = .routing := by
  cases rule <;> rfl

theorem isKeyword_key (rule : CanonicalRule) : IsKeyword rule.key.toList := by
  apply And.left
  apply isKeyword_of_assetKeyword
  rw [assetKeyword_key]
  decide

theorem splitDirective_line (rule : CanonicalRule) :
    splitDirective (trim rule.line) = rule.directive := by
  rw [splitDirective_trim, line, splitDirective_keyed rule.isKeyword_key.token, directive]

/-- The routing item parsed from the rule. -/
def item (rule : CanonicalRule) : ManagedRoutingItem :=
  ⟨rule.key, (splitTargetValue rule.argument).1, (splitTargetValue rule.argument).2⟩

theorem routingOf_directive (rule : CanonicalRule) : routingOf rule.directive = [rule.item] := by
  simp [routingOf, directive, assetKeyword_key, item]

theorem ipRuleOf_directive (rule : CanonicalRule) : ipRuleOf rule.directive = [] := by
  simp [ipRuleOf, directive, assetKeyword_key]

end CanonicalRule

theorem splitWhitespace_keyed {key : String} (token : IsToken key.toList) (argument : Text) :
    splitWhitespace (keyed key argument) = key.toList :: splitWhitespace argument := by
  rw [keyed, splitWhitespace_append_cons _ _ (by simp), splitWhitespace_of_token token,
    List.singleton_append]

/-- A nameserver rule loses the slash before a missing group. -/
theorem splitWhitespace_nameserverLine_iff {target group : Text} (targetSolid : Solid target)
    (groupSolid : Solid group) (noSlash : '/' ∉ group) :
    splitWhitespace (nameserverLine ⟨"nameserver",
        (splitTargetValue ('/' :: (target ++ '/' :: group))).1,
        (splitTargetValue ('/' :: (target ++ '/' :: group))).2⟩) =
      splitWhitespace (keyed "nameserver" ('/' :: (target ++ '/' :: group))) ↔ group ≠ [] := by
  have token : IsToken "nameserver".toList := by decide
  rw [splitTargetValue_of_last_slash target noSlash, trim_eq_self groupSolid.trimmed]
  by_cases empty : group = []
  · refine iff_of_false ?_ (by simp [empty])
    have shorter : IsToken ('/' :: target) := ⟨by simp, by simp [targetSolid]⟩
    have longer : IsToken ('/' :: (target ++ ['/'])) := ⟨by simp, by simp [targetSolid]⟩
    simp only [nameserverLine, empty, if_true, splitWhitespace_keyed token,
      splitWhitespace_of_token shorter, splitWhitespace_of_token longer]
    simp
  · simp [nameserverLine, empty]

/-- The rules page writes the target, a slash and, after a space, the value. -/
theorem splitWhitespace_ruleEntryLine_iff {key : String} (token : IsToken key.toList)
    (before : Text) {after : Text} (noSlash : '/' ∉ after) :
    splitWhitespace (ruleEntryLine ⟨key,
        (splitTargetValue ('/' :: (before ++ '/' :: after))).1,
        (splitTargetValue ('/' :: (before ++ '/' :: after))).2⟩) =
      splitWhitespace (keyed key ('/' :: (before ++ '/' :: after))) ↔
      endsWith '/' ('/' :: before) = false ∧ ∀ c ∈ after.head?, isWhitespace c = true := by
  rw [splitTargetValue_of_last_slash before noSlash, splitWhitespace_keyed token]
  generalize target : (if endsWith '/' ('/' :: before) then '/' :: before
    else '/' :: before ++ ['/']) = closed
  have words : splitWhitespace (ruleEntryLine ⟨key, '/' :: before, trim after⟩) =
      key.toList :: (splitWhitespace closed ++ splitWhitespace after) := by
    simp only [ruleEntryLine, target]
    by_cases empty : trim after = []
    · rw [if_pos empty, splitWhitespace_keyed token, ← splitWhitespace_trim after, empty]
      simp
    · rw [if_neg empty, splitWhitespace_keyed token, splitWhitespace_append_cons _ _ (by simp),
        splitWhitespace_trim]
  rw [words, List.cons.injEq, and_iff_right rfl]
  cases ends : endsWith '/' ('/' :: before) with
  | true =>
      refine iff_of_false ?_ (by simp)
      intro same
      rw [ends, if_pos rfl] at target
      have slashes := congrArg (countIn '/') same
      rw [countIn_append, countIn_splitWhitespace (by simp), countIn_splitWhitespace (by simp),
        countIn_splitWhitespace (by simp), ← target] at slashes
      simp at slashes
      omega
  | false =>
      rw [ends, if_neg (by simp)] at target
      have split := splitWhitespace_append_iff (s := closed) after (by simp [← target])
        (by
          rw [← target, List.getLast?_concat]
          rintro c membership
          obtain rfl : '/' = c := by simpa using membership
          rfl)
      have shape : '/' :: (before ++ '/' :: after) = closed ++ after := by simp [← target]
      rw [shape, eq_comm, split]
      simp

/-- The cut at the last slash is unique. -/
theorem lastSlashEndsWord_iff (before : Text) {after : Text} (noSlash : '/' ∉ after) :
    LastSlashEndsWord ('/' :: (before ++ '/' :: after)) ↔
      endsWith '/' ('/' :: before) = false ∧ ∀ c ∈ after.head?, isWhitespace c = true := by
  constructor
  · rintro ⟨before', after', equality, noSlash', stops, gap⟩
    have same : before ++ '/' :: after = before' ++ '/' :: after' := by simpa using equality
    have cut := splitAtLast_append_cons before noSlash
    rw [same, splitAtLast_append_cons before' noSlash'] at cut
    simp only [Option.some.injEq, Prod.mk.injEq] at cut
    exact ⟨cut.1 ▸ stops, cut.2 ▸ gap⟩
  · rintro ⟨stops, gap⟩
    exact ⟨before, after, rfl, noSlash, stops, gap⟩

/-- The line a rule is saved as, on the page its key belongs to. -/
def CanonicalRule.savedLine (rule : CanonicalRule) : Text :=
  if rule.key = "nameserver" then nameserverLine rule.item else ruleEntryLine rule.item

theorem CanonicalRule.splitWhitespace_savedLine_iff (rule : CanonicalRule) :
    splitWhitespace rule.savedLine = splitWhitespace rule.line ↔ rule.KeepsWords := by
  have token := rule.isKeyword_key.token
  cases rule with
  | nameserver target group =>
      exact splitWhitespace_nameserverLine_iff target.solid group.solid group.no_slash
  | address target value =>
      have written := splitWhitespace_ruleEntryLine_iff token target.text value.no_slash
      rw [endsWith_slash_cons target.no_slash, value.solid.head_space_iff] at written
      exact written
  | cname target value =>
      have written := splitWhitespace_ruleEntryLine_iff token target.text value.no_slash
      rw [endsWith_slash_cons target.no_slash, value.solid.head_space_iff] at written
      exact written
  | domainRules target options =>
      -- the last slash of the argument may stand in the options
      cases found : splitAtLast '/' (target.text ++ '/' :: ' ' :: options) with
      | none =>
          have absent := (splitAtLast_eq_none_iff _).mp found
          simp at absent
      | some parts =>
          obtain ⟨before, after⟩ := parts
          obtain ⟨shape, noSlash⟩ := splitAtLast_eq_some found
          have written := splitWhitespace_ruleEntryLine_iff token before noSlash
          rw [← lastSlashEndsWord_iff before noSlash, ← shape] at written
          exact written

/-! ### Whole pages -/

theorem wordLines_of_trim {page : Text} {ls : List Text} (content : contentOf page = ls.map trim) :
    wordLines page = ls.map splitWhitespace := by
  rw [wordLines, content, List.map_map]
  exact List.map_congr_left fun line _ => splitWhitespace_trim line

theorem countIn_map_splitWhitespace {pattern : Char} (solid : isWhitespace pattern = false)
    {ls rest : List Text} (same : ls.map splitWhitespace = rest.map splitWhitespace) :
    countIn pattern ls = countIn pattern rest := by
  have counts := congrArg (total (countIn pattern)) same
  simp only [total_map, countIn_splitWhitespace solid] at counts
  exact counts

/-- A text of canonical rules, each on a line of its own: blank lines, comments
and white space around the lines are free. -/
def IsRulesText (text : Text) (rules : List CanonicalRule) : Prop :=
  contentOf text = rules.map (trim ·.line)

instance (text : Text) (rules : List CanonicalRule) : Decidable (IsRulesText text rules) :=
  inferInstanceAs (Decidable (_ = _))

/-- Without a line that ends in a backslash the rules are parsed one by one. -/
theorem parse_of_isRulesText {text : Text} {rules : List CanonicalRule}
    (made : IsRulesText text rules)
    (plain : ∀ rule ∈ rules, endsWith '\\' (trim rule.line) = false) :
    (parseManagedAssetsFromText (normalizeRulesText text)).routingItems =
        rules.map CanonicalRule.item ∧
      (parseManagedAssetsFromText (normalizeRulesText text)).ipRules = [] := by
  have content : contentOf text = rules.map (trim ·.line) := made
  have whole : directives (normalizeRulesText text) = rules.map CanonicalRule.directive := by
    rw [directives_eq_map, logicalLines_normalizeRulesText, logicalLines_eq_contentOf, content,
      List.map_map]
    · exact List.map_congr_left fun rule _ => rule.splitDirective_line
    · simpa [content] using plain
  constructor
  · rw [parse_routingItems, whole, List.flatMap_map]
    simp only [CanonicalRule.routingOf_directive]
    exact List.flatMap_pure_eq_map _ rules
  · apply List.map_eq_nil_iff.mp
    rw [parse_ipRuleCores, whole, List.flatMap_map]
    simp [CanonicalRule.ipRuleOf_directive]

/-- Saved words account for the backslashes of all rules. -/
theorem countIn_lines_le_of_savesWords {text : Text} {rules : List CanonicalRule}
    (saves : SavesWords text rules) :
    countIn '\\' (rules.map CanonicalRule.line) ≤ countIn '\\' (logicalLines text) := by
  obtain ⟨routing, entries⟩ := saves
  have bound : _ ≤ countIn '\\' (logicalLines (normalizeRulesText text)) :=
    (Nat.le_add_right _ _).trans_eq (countIn_pages (isSingleLine_parse _)) |>.trans (backslashes_parse_le _)
  rw [logicalLines_normalizeRulesText] at bound
  have lines_ : ∀ p : CanonicalRule → Bool, (rules.filter p).map (splitWhitespace ·.line) =
      ((rules.filter p).map CanonicalRule.line).map splitWhitespace := fun p => by
    rw [List.map_map]
    rfl
  rw [lines_] at routing entries
  rw [countIn_map_splitWhitespace (by simp) routing,
    countIn_map_splitWhitespace (by simp) entries, countIn_map, countIn_map] at bound
  rw [countIn_map]
  have split := total_filter (fun rule : CanonicalRule => rule.line.count '\\')
    (fun rule => decide (rule.key = "nameserver")) rules
  simp only [← decide_not] at split
  exact split.symm.trans_le bound

/-- A save keeps the canonical rules word for word exactly when every one of
them keeps its words and none of their lines ends in a backslash. -/
theorem savesWords_iff {text : Text} {rules : List CanonicalRule}
    (made : IsRulesText text rules) :
    SavesWords text rules ↔
      ∀ rule ∈ rules, endsWith '\\' (trim rule.line) = false ∧ rule.KeepsWords := by
  by_cases plain : ∀ rule ∈ rules, endsWith '\\' (trim rule.line) = false
  · obtain ⟨items, noIp⟩ := parse_of_isRulesText made plain
    obtain ⟨routingPage, rulesPage, -⟩ :=
      (isSingleLine_parse (normalizeRulesText text)).contentOf_pages
    have first := wordLines_of_trim routingPage
    have second := wordLines_of_trim rulesPage
    rw [items, List.filter_map, List.map_map, List.map_map] at first
    rw [rulesPageLines, items, noIp, List.filter_map, List.map_map, List.map_nil, List.append_nil,
      List.map_map] at second
    have routing : ∀ rule ∈ rules.filter (·.key = "nameserver"),
        splitWhitespace (nameserverLine rule.item) = splitWhitespace rule.line ↔
          rule.KeepsWords := by
      intro rule membership
      have key : rule.key = "nameserver" := by simpa using (List.mem_filter.mp membership).2
      simpa [CanonicalRule.savedLine, key] using rule.splitWhitespace_savedLine_iff
    have entries : ∀ rule ∈ rules.filter (·.key ≠ "nameserver"),
        splitWhitespace (ruleEntryLine rule.item) = splitWhitespace rule.line ↔
          rule.KeepsWords := by
      intro rule membership
      have key : rule.key ≠ "nameserver" := by simpa using (List.mem_filter.mp membership).2
      simpa [CanonicalRule.savedLine, key] using rule.splitWhitespace_savedLine_iff
    unfold SavesWords
    simp only [first, second]
    refine (and_congr (List.map_inj_left.trans (forall₂_congr routing))
      (List.map_inj_left.trans (forall₂_congr entries))).trans ?_
    constructor
    · rintro ⟨ns, others⟩ rule membership
      refine ⟨plain rule membership, ?_⟩
      by_cases key : rule.key = "nameserver"
      · exact ns rule (List.mem_filter.mpr ⟨membership, by simpa using key⟩)
      · exact others rule (List.mem_filter.mpr ⟨membership, by simpa using key⟩)
    · intro all
      exact ⟨fun rule membership => (all rule (List.mem_filter.mp membership).1).2,
        fun rule membership => (all rule (List.mem_filter.mp membership).1).2⟩
  · refine iff_of_false ?_ fun all => plain fun rule membership => (all rule membership).1
    intro saves
    simp only [not_forall, Bool.not_eq_false] at plain
    obtain ⟨rule, membership, ends⟩ := plain
    have content : contentOf text = rules.map (trim ·.line) := made
    have listed : trim rule.line ∈ contentOf text := by
      rw [content]
      exact List.mem_map_of_mem (f := fun rule : CanonicalRule => trim rule.line) membership
    have lost := countIn_logicalLines_lt listed ends
    have kept := countIn_lines_le_of_savesWords saves
    have trims : rules.map (trim ·.line) = (rules.map CanonicalRule.line).map trim := by
      rw [List.map_map]
      rfl
    rw [content, trims, countIn_map_trim (by simp)] at lost
    omega

/-- The template's own rules survive. -/
theorem savesWords_template :
    SavesWords "# [split]\nnameserver /example.com/office\n"
      [.nameserver ⟨"example.com", by decide, by decide⟩ ⟨"office", by decide, by decide⟩] := by
  have made : IsRulesText "# [split]\nnameserver /example.com/office\n"
      [.nameserver ⟨"example.com", by decide, by decide⟩ ⟨"office", by decide, by decide⟩] := by
    decide
  refine (savesWords_iff made).mpr fun rule membership => ?_
  obtain rfl := List.mem_singleton.mp membership
  exact ⟨by decide, by simp [CanonicalRule.KeepsWords]⟩

/-- An address rule comes back with a space in its argument. -/
theorem not_savesWords_address :
    ¬ ∀ (text : Text) (rules : List CanonicalRule), IsRulesText text rules →
      SavesWords text rules := by
  intro all
  have saves := all "address /ads.example.com/#\n"
    [.address ⟨"ads.example.com", by decide, by decide⟩ ⟨"#", by decide, by decide⟩] (by decide)
  revert saves
  decide

end SmartDnsPlusUi
