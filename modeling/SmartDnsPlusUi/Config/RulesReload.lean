import SmartDnsPlusUi.Config.RulesRoundTrip

/-!
# Which rules texts survive a save and a reload

The written lines end where the parsed arguments ended, except that a
nameserver rule drops the slash before a missing group and a set definition
moves its file to the end.  A backslash that comes to stand at the end of a
line there continues it.
-/

namespace SmartDnsPlusUi

open Text

theorem endsWith_trim_keyed {suffix : Char} {key : String} (token : IsToken key.toList)
    (absent : suffix ∉ key.toList) (argument : Text) :
    endsWith suffix (trim (keyed key argument)) = endsWith suffix (trim argument) := by
  by_cases empty : trim argument = []
  · rw [trim_keyed token, if_pos empty, empty, endsWith_of_not_mem absent, endsWith_nil]
  · have gap : trim (' ' :: argument) ≠ [] := by simpa using empty
    rw [keyed, endsWith_trim_append suffix _ gap, trim_space_cons]

theorem endsWith_line_of_value {line : Text} (trimmed : Trimmed line) {suffix : Char}
    (ends : endsWith suffix (splitDirective line).value = true) : endsWith suffix line = true := by
  rw [splitDirective, trim_eq_self trimmed] at ends
  rcases splitFirst_cases line with ⟨-, split⟩ | ⟨word, c, rest, equality, -, -, split⟩
  · simp [split] at ends
  · rw [split] at ends
    have nonempty : trim rest ≠ [] := by
      intro empty
      simp [empty] at ends
    have whole := endsWith_trim_append suffix (word ++ [c]) nonempty
    rw [List.append_assoc, List.singleton_append, ← equality, trim_eq_self trimmed] at whole
    rw [whole]
    exact ends

/-- The last words of the directive's line stay off a backslash when they are
written again. -/
def StaysPlain (directive : Directive) : Prop :=
  (directive.key = "nameserver" → ∀ target : Text,
    directive.value ≠ '/' :: (target ++ ['\\', '/'])) ∧
  (directive.key = "domain-set" ∨ directive.key = "ip-set" →
    (parseNamedOption directive.value "-name").isSome →
      ∀ file ∈ parseNamedOption directive.value "-file", endsWith '\\' file = false)

theorem assetKeyword_eq_domainSet_iff (key : String) :
    assetKeyword key = .domainSet ↔ key = "domain-set" := by
  unfold assetKeyword
  split <;> simp_all

theorem assetKeyword_eq_ipSet_iff (key : String) :
    assetKeyword key = .ipSet ↔ key = "ip-set" := by
  unfold assetKeyword
  split <;> simp_all

theorem endsWith_setArgument (head : Text) {file : Text} (solid : Solid file) :
    endsWith '\\' (trim (head ++ (" -file " : Text) ++ file)) = endsWith '\\' file := by
  by_cases empty : file = []
  · have option : trim (" -file " : Text) = ("-file" : Text) := by decide
    have stops : endsWith '\\' ("-file" : Text) = false := by decide
    rw [empty, List.append_nil, endsWith_trim_append '\\' head (by rw [option]; decide), option,
      stops, endsWith_nil]
  · rw [endsWith_trim_append '\\' _ (by rwa [trim_eq_self solid.trimmed]),
      trim_eq_self solid.trimmed]

theorem endsWith_domainSetLine {set : ManagedDomainSet} (solid : Solid set.file) :
    endsWith '\\' (trim (domainSetLine set)) = endsWith '\\' set.file := by
  rw [domainSetLine_eq, endsWith_trim_keyed (by decide) (by decide)]
  exact endsWith_setArgument _ solid

theorem endsWith_ipSetLine {set : ManagedIpSet} (solid : Solid set.file) :
    endsWith '\\' (trim (ipSetLine set)) = endsWith '\\' set.file := by
  rw [ipSetLine_eq, endsWith_trim_keyed (by decide) (by decide)]
  exact endsWith_setArgument _ solid

/-- An IP rule's line ends where its argument ended. -/
theorem endsWith_ip_line {key : String} (known : assetKeyword key ≠ .other) {value : Text}
    (trimmed : Trimmed value) :
    endsWith '\\' (trim (IpRuleCore.line
        ⟨key, (splitTargetOptions value).1, (splitTargetOptions value).2⟩)) =
      endsWith '\\' value := by
  obtain ⟨keyword, absent⟩ := isKeyword_of_assetKeyword known
  by_cases empty : (splitTargetOptions value).2 = []
  · rw [IpRuleCore.line, if_pos empty, endsWith_trim_keyed keyword.token absent,
      splitTargetOptions_target trimmed empty, trim_eq_self trimmed]
  · have options := trim_eq_self (trimmed_splitTargetOptions value)
    have gap : trim (' ' :: (splitTargetOptions value).2) ≠ [] := by
      rw [trim_space_cons, options]
      exact empty
    rw [IpRuleCore.line, if_neg empty, endsWith_trim_keyed keyword.token absent,
      endsWith_trim_append '\\' _ gap, trim_space_cons, options]
    exact endsWith_splitTargetOptions trimmed empty '\\'

/-- A slash form with a value ends where the value ends, on either page. -/
theorem endsWith_routing_line {key : String} (known : assetKeyword key ≠ .other) (target : Text)
    {tail : Text} (nonempty : trim tail ≠ []) :
    endsWith '\\' (trim (nameserverLine ⟨key, target, trim tail⟩)) = endsWith '\\' (trim tail) ∧
      endsWith '\\' (trim (ruleEntryLine ⟨key, target, trim tail⟩)) = endsWith '\\' (trim tail) := by
  obtain ⟨keyword, absent⟩ := isKeyword_of_assetKeyword known
  have inner : trim (trim tail) ≠ [] := by simpa using nonempty
  have gap : trim (' ' :: trim tail) ≠ [] := by simpa using nonempty
  constructor
  · have shape : target ++ '/' :: trim tail = target ++ ['/'] ++ trim tail := by simp
    simp only [nameserverLine, if_neg nonempty]
    rw [endsWith_trim_keyed keyword.token absent, shape, endsWith_trim_append '\\' _ inner,
      trim_trim]
  · simp only [ruleEntryLine, if_neg nonempty]
    rw [endsWith_trim_keyed keyword.token absent, endsWith_trim_append '\\' _ gap,
      trim_space_cons, trim_trim]

/-! ### Written lines that end in a backslash -/

theorem mem_routingItems {text : Text} {directive : Directive}
    (membership : directive ∈ directives text) (routing : assetKeyword directive.key = .routing) :
    (⟨directive.key, (splitTargetValue directive.value).1, (splitTargetValue directive.value).2⟩ :
      ManagedRoutingItem) ∈ (parseManagedAssetsFromText text).routingItems := by
  rw [parse_routingItems, List.mem_flatMap]
  exact ⟨directive, membership, by simp [routingOf, routing]⟩

/-- A nameserver rule without group whose target ends in a backslash. -/
theorem exists_continued_nameserver {text : Text} {directive : Directive}
    (membership : directive ∈ directives text) (key : directive.key = "nameserver")
    {target : Text} (value : directive.value = '/' :: (target ++ ['\\', '/'])) :
    ∃ line ∈ pageLines (parseManagedAssetsFromText text), endsWith '\\' (trim line) = true := by
  have known : assetKeyword "nameserver" = .routing := rfl
  have item := mem_routingItems membership (key ▸ known)
  have shape : '/' :: (target ++ ['\\', '/']) = '/' :: ((target ++ ['\\']) ++ '/' :: []) := by simp
  rw [key, value, shape, splitTargetValue_of_last_slash _ (by simp), trim_nil] at item
  refine ⟨_, List.mem_append_left _ (List.mem_append_left _ (List.mem_map_of_mem
    (List.mem_filter.mpr ⟨item, by simp⟩))), ?_⟩
  have last : trim ['\\'] = ['\\'] := rfl
  have keyword := isKeyword_of_assetKeyword (known.trans_ne (by decide))
  simp only [nameserverLine, if_true]
  rw [endsWith_trim_keyed keyword.1.token keyword.2, ← List.cons_append,
    endsWith_trim_append '\\' _ (by rw [last]; simp), last]
  rfl

theorem mem_domainSets_iff {text : Text} {set : ManagedDomainSet} :
    set ∈ (parseManagedAssetsFromText text).domainSets ↔
      ∃ directive ∈ directives text, directive.key = "domain-set" ∧
        parseNamedOption directive.value "-name" = some set.name ∧
        (parseNamedOption directive.value "-file").getD [] = set.file ∧
        (parseNamedOption directive.value "-type").getD "list" = set.setType := by
  obtain ⟨name, file, setType⟩ := set
  rw [parse_domainSets, List.mem_flatMap]
  refine exists_congr fun directive => and_congr_right fun _ => ?_
  rw [← assetKeyword_eq_domainSet_iff]
  by_cases key : assetKeyword directive.key = .domainSet
  · rw [domainSetOf, if_pos key, domainSetFrom_eq, List.mem_map]
    simp only [Option.mem_toList, ManagedDomainSet.mk.injEq, key, true_and]
    constructor
    · rintro ⟨_, found, rfl, sameFile, sameType⟩
      exact ⟨found, sameFile, sameType⟩
    · rintro ⟨found, sameFile, sameType⟩
      exact ⟨name, found, rfl, sameFile, sameType⟩
  · simp [domainSetOf, key]

theorem mem_ipSets_iff {text : Text} {set : ManagedIpSet} :
    set ∈ (parseManagedAssetsFromText text).ipSets ↔
      ∃ directive ∈ directives text, directive.key = "ip-set" ∧
        parseNamedOption directive.value "-name" = some set.name ∧
        (parseNamedOption directive.value "-file").getD [] = set.file := by
  obtain ⟨name, file⟩ := set
  rw [parse_ipSets, List.mem_flatMap]
  refine exists_congr fun directive => and_congr_right fun _ => ?_
  rw [← assetKeyword_eq_ipSet_iff]
  by_cases key : assetKeyword directive.key = .ipSet
  · rw [ipSetOf, if_pos key, ipSetFrom_eq, List.mem_map]
    simp only [Option.mem_toList, ManagedIpSet.mk.injEq, key, true_and]
    constructor
    · rintro ⟨_, found, rfl, sameFile⟩
      exact ⟨found, sameFile⟩
    · rintro ⟨found, sameFile⟩
      exact ⟨name, found, rfl, sameFile⟩
  · simp [ipSetOf, key]

theorem solid_file (value : Text) : Solid ((parseNamedOption value "-file").getD []) := by
  cases found : parseNamedOption value "-file" with
  | none => exact solid_nil
  | some word => exact (parseNamedOption_token found).2

theorem endsWith_file {found : Option Text}
    (plain : ∀ file ∈ found, endsWith '\\' file = false) :
    endsWith '\\' (found.getD []) = false := by
  cases found with
  | none => rfl
  | some file => exact plain file rfl

/-- A set whose file name ends in a backslash. -/
theorem exists_continued_set {text : Text} {directive : Directive}
    (membership : directive ∈ directives text)
    (key : directive.key = "domain-set" ∨ directive.key = "ip-set") {name file : Text}
    (nameFound : parseNamedOption directive.value "-name" = some name)
    (fileFound : parseNamedOption directive.value "-file" = some file)
    (ends : endsWith '\\' file = true) :
    ∃ line ∈ pageLines (parseManagedAssetsFromText text), endsWith '\\' (trim line) = true := by
  have solid := (parseNamedOption_token fileFound).2
  rcases key with domain | ip
  · have listed : (⟨name, file, (parseNamedOption directive.value "-type").getD "list"⟩ :
        ManagedDomainSet) ∈ (parseManagedAssetsFromText text).domainSets :=
      mem_domainSets_iff.mpr
        ⟨directive, membership, domain, nameFound, by rw [fileFound, Option.getD_some], rfl⟩
    refine ⟨_, List.mem_append_right _ (List.mem_append_left _ (List.mem_map_of_mem listed)), ?_⟩
    rw [endsWith_domainSetLine solid]
    exact ends
  · have listed : (⟨name, file⟩ : ManagedIpSet) ∈ (parseManagedAssetsFromText text).ipSets :=
      mem_ipSets_iff.mpr
        ⟨directive, membership, ip, nameFound, by rw [fileFound, Option.getD_some]⟩
    refine ⟨_, List.mem_append_right _ (List.mem_append_right _ (List.mem_map_of_mem listed)), ?_⟩
    rw [endsWith_ipSetLine solid]
    exact ends

namespace RegularRules

variable {text : Text} (regular : RegularRules text)
include regular

theorem endsWith_value {directive : Directive} (membership : directive ∈ directives text) :
    endsWith '\\' directive.value = false := by
  obtain ⟨line, lineMem, rfl⟩ := mem_directives_iff.mp membership
  by_contra ends
  have continued := endsWith_line_of_value (isLogical_of_mem lineMem).trimmed
    (Bool.not_eq_false _ |>.mp ends)
  simp [regular.not_continued line lineMem] at continued

/-- The line of a routing item, on the page it is written to. -/
theorem endsWith_routing_item
    (stays : ∀ directive ∈ directives text, StaysPlain directive) {item : ManagedRoutingItem}
    (membership : item ∈ (parseManagedAssetsFromText text).routingItems) :
    (item.ruleType = "nameserver" → endsWith '\\' (trim (nameserverLine item)) = false) ∧
      endsWith '\\' (trim (ruleEntryLine item)) = false := by
  rw [parse_routingItems, List.mem_flatMap] at membership
  obtain ⟨directive, directiveMem, own⟩ := membership
  obtain ⟨routing, rfl⟩ := eq_of_mem_routingOf own
  obtain ⟨target, tail, form, token, noSlash, free⟩ :=
    regular.routing directive directiveMem ((assetKeyword_eq_routing_iff _).mp routing)
  have known : assetKeyword directive.key ≠ .other := routing.trans_ne (by decide)
  obtain ⟨keyword, absent⟩ := isKeyword_of_assetKeyword known
  have ended := regular.endsWith_value directiveMem
  have trimmed := trimmed_value_of_mem directiveMem
  rw [form, splitTargetValue_of_last_slash target free]
  by_cases empty : trim tail = []
  · -- the value is the target between its slashes
    have missing : tail = [] := by
      have short := trim_append_of_blank ('/' :: (target ++ ['/'])) ((trim_eq_nil_iff tail).mp empty)
      have closed : Trimmed ('/' :: (target ++ ['/'])) := by
        have solid : Solid ('/' :: (target ++ ['/'])) := by simp [token.2]
        exact solid.trimmed
      have whole : '/' :: (target ++ ['/']) ++ tail = '/' :: (target ++ '/' :: tail) := by simp
      rw [whole, ← form, trim_eq_self trimmed, trim_eq_self closed, form] at short
      simpa using short
    have solid : Solid ('/' :: target) := by simp [token.2]
    constructor
    · intro key
      simp only [nameserverLine, empty, if_true]
      rw [endsWith_trim_keyed keyword.token absent, trim_eq_self solid.trimmed]
      by_contra ends
      obtain ⟨front, last, rfl⟩ := (List.eq_nil_or_concat' target).resolve_left token.1
      have same : last = '\\' := by
        rw [Bool.not_eq_false, ← List.cons_append, endsWith_append _ _ (by simp)] at ends
        simpa [endsWith] using ends
      apply (stays directive directiveMem).1 key front
      rw [form, missing, same]
      simp
    · have stops : endsWith '/' ('/' :: target) = false := (endsWith_slash_cons noSlash).mpr token.1
      simp only [ruleEntryLine, empty, if_true, stops, Bool.false_eq_true, if_false]
      rw [endsWith_trim_keyed keyword.token absent,
        endsWith_trim_append '\\' ('/' :: target) (t := ['/']) (by decide)]
      rfl
  · have whole := endsWith_trim_append '\\' ('/' :: (target ++ ['/'])) empty
    have shape : '/' :: (target ++ ['/']) ++ tail = '/' :: (target ++ '/' :: tail) := by simp
    rw [shape, ← form, trim_eq_self trimmed, ended] at whole
    obtain ⟨routingLine, entryLine⟩ := endsWith_routing_line known ('/' :: target) empty
    exact ⟨fun _ => routingLine.trans whole.symm, entryLine.trans whole.symm⟩

theorem plain_iff :
    (∀ line ∈ pageLines (parseManagedAssetsFromText text), endsWith '\\' (trim line) = false) ↔
      ∀ directive ∈ directives text, StaysPlain directive := by
  constructor
  · intro plain directive membership
    have none : ¬ ∃ line ∈ pageLines (parseManagedAssetsFromText text),
        endsWith '\\' (trim line) = true := by
      rintro ⟨line, lineMem, ends⟩
      simp [plain line lineMem] at ends
    refine ⟨fun key target value => none (exists_continued_nameserver membership key value), ?_⟩
    intro key named file fileFound
    obtain ⟨name, nameFound⟩ := Option.isSome_iff_exists.mp named
    by_contra ends
    exact none (exists_continued_set membership key nameFound fileFound
      (Bool.not_eq_false _ |>.mp ends))
  · intro stays line membership
    simp only [pageLines, rulesPageLines, List.mem_append, List.mem_map, List.mem_filter,
      decide_eq_true_eq] at membership
    rcases membership with
      (⟨item, ⟨itemMem, key⟩, rfl⟩ | ⟨item, ⟨itemMem, -⟩, rfl⟩ | ⟨rule, ruleMem, rfl⟩) |
        ⟨set, setMem, rfl⟩ | ⟨set, setMem, rfl⟩
    · exact (regular.endsWith_routing_item stays itemMem).1 key
    · exact (regular.endsWith_routing_item stays itemMem).2
    · have core := List.mem_map_of_mem (f := ManagedIpRule.core) ruleMem
      rw [parse_ipRuleCores, List.mem_flatMap] at core
      obtain ⟨directive, directiveMem, own⟩ := core
      obtain ⟨ipRule, equality⟩ := eq_of_mem_ipRuleOf own
      rw [ipRuleLine_eq, equality, endsWith_ip_line (ipRule.trans_ne (by decide))
        (trimmed_value_of_mem directiveMem)]
      exact regular.endsWith_value directiveMem
    · obtain ⟨directive, directiveMem, key, nameFound, sameFile, -⟩ :=
        mem_domainSets_iff.mp setMem
      rw [endsWith_domainSetLine (sameFile ▸ solid_file directive.value), ← sameFile]
      exact endsWith_file ((stays directive directiveMem).2 (.inl key) (by rw [nameFound]; rfl))
    · obtain ⟨directive, directiveMem, key, nameFound, sameFile⟩ := mem_ipSets_iff.mp setMem
      rw [endsWith_ipSetLine (sameFile ▸ solid_file directive.value), ← sameFile]
      exact endsWith_file ((stays directive directiveMem).2 (.inr key) (by rw [nameFound]; rfl))

end RegularRules

theorem parse_normalizeRulesText (text : Text) :
    parseManagedAssetsFromText (normalizeRulesText text) = parseManagedAssetsFromText text :=
  parse_congr (logicalLines_normalizeRulesText text)

/-- A regular rules text survives a save and a reload exactly when no backslash
moves to the end of a written line. -/
theorem reloads_iff {text : Text} (regular : RegularRules text) :
    Reloads (parseManagedAssetsFromText (normalizeRulesText text))
        (parseManagedAssetsFromText (reloadedRulesText
          (parseManagedAssetsFromText (normalizeRulesText text)))) ↔
      ∀ directive ∈ directives text, StaysPlain directive := by
  rw [parse_normalizeRulesText, ← regular.plain_iff]
  exact ⟨fun reloads => plain_of_backslashes reloads.backslashes, regular.reloads_of_plain⟩

theorem directives_example :
    directives "nameserver /a/g\nip-rules 1.1.1.1 -x" =
      [⟨"nameserver", "/a/g"⟩, ⟨"ip-rules", "1.1.1.1 -x"⟩] := by
  decide

theorem regularRules_example : RegularRules "nameserver /a/g\nip-rules 1.1.1.1 -x" where
  not_continued := by decide
  routing := by
    intro directive membership
    rw [directives_example, List.mem_cons, List.mem_singleton] at membership
    rcases membership with rfl | rfl
    · exact fun _ => ⟨"a", "g", by decide, by decide, by decide, by decide⟩
    · exact fun key => absurd key (by decide)
  ip := by decide
  domain_set := by decide
  ip_set := by decide

theorem staysPlain_example : ∀ directive ∈ directives "nameserver /a/g\nip-rules 1.1.1.1 -x",
    StaysPlain directive := by
  intro directive membership
  rw [directives_example, List.mem_cons, List.mem_singleton] at membership
  rcases membership with rfl | rfl
  · refine ⟨fun _ target equality => ?_, fun key => absurd key (by decide)⟩
    have last := congrArg (endsWith '/') equality
    rw [← List.cons_append, endsWith_append _ _ (by simp)] at last
    exact absurd last (by decide)
  · exact ⟨fun key => absurd key (by decide), fun key => absurd key (by decide)⟩

theorem reloads_example :
    Reloads
      (parseManagedAssetsFromText (normalizeRulesText "nameserver /a/g\nip-rules 1.1.1.1 -x"))
      (parseManagedAssetsFromText (reloadedRulesText (parseManagedAssetsFromText
        (normalizeRulesText "nameserver /a/g\nip-rules 1.1.1.1 -x")))) := by
  exact (reloads_iff regularRules_example).mpr staysPlain_example

/-- A backslash that ends a file name is lost when the file is written last. -/
theorem not_reloads_file :
    ¬ ∀ text : Text, RegularRules text →
      Reloads (parseManagedAssetsFromText (normalizeRulesText text))
        (parseManagedAssetsFromText (reloadedRulesText
          (parseManagedAssetsFromText (normalizeRulesText text)))) := by
  intro all
  have regular : RegularRules "domain-set -file a\\ -name n" :=
    { not_continued := by decide
      routing := by
        intro directive membership
        have none : ∀ directive ∈ directives "domain-set -file a\\ -name n",
            ¬ IsRoutingKey directive.key := by decide
        exact fun routing => absurd routing (none directive membership)
      ip := by decide
      domain_set := by decide
      ip_set := by decide }
  have sets := (all _ regular).domain_sets
  revert sets
  decide

end SmartDnsPlusUi
