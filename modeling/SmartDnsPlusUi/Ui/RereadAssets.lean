import SmartDnsPlusUi.Ui.ManagedTextReading

/-!
# Assets that are read back unchanged

For each kind of asset, when the line that the page writes for it is read back
as that asset.
-/

namespace SmartDnsPlusUi

open Text

/-! ### Splitting what was split -/

/-- An argument that starts with a slash is cut behind its first character. -/
theorem head?_splitTargetOptions {value : Text} (trimmed : Trimmed value) :
    (splitTargetOptions value).1.head? = some '/' ↔ value.head? = some '/' := by
  have word : ∀ t : Text, Trimmed t → (trim (splitFirst t).1).head? = t.head? := by
    intro t trimmed
    rw [trim_eq_self (splitFirst_fst_solid t).trimmed]
    cases t with
    | nil => rfl
    | cons c rest =>
        have first : isWhitespace c = false := trimmed.1 c (by simp)
        simp [splitFirst, first]
  by_cases slash : value.head? = some '/'
  · obtain ⟨rest, rfl⟩ := List.head?_eq_some_iff.mp slash
    cases found : splitAtFirst "/ " rest with
    | none => rw [splitTargetOptions_of_no_gap trimmed found, word _ trimmed]
    | some parts => simp [splitTargetOptions_of_gap trimmed found]
  · rw [splitTargetOptions_of_no_slash trimmed slash, word _ trimmed]

/-- The value is cut off behind the last slash of an argument that starts with one,
so it contains none. -/
theorem splitTargetValue_of_slash {rest : Text} (trimmed : Trimmed ('/' :: rest)) :
    (splitTargetValue ('/' :: rest)).1.head? = some '/' ∧
      '/' ∉ (splitTargetValue ('/' :: rest)).2 := by
  cases found : splitAtLast '/' rest with
  | none =>
      have single := (splitAtLast_eq_none_iff rest).mp found
      rw [splitTargetValue_of_single_slash trimmed fun rest' equality =>
        (List.cons.inj equality).2 ▸ single]
      have gap : splitAtFirst "/ " rest = none := by
        rw [splitAtFirst_eq_none_iff]
        rintro ⟨a, b, equality⟩
        exact single (by rw [← equality]; simp)
      refine ⟨(head?_splitTargetOptions trimmed).mpr rfl, ?_⟩
      rw [splitTargetOptions_of_no_gap trimmed gap]
      intro present
      have inside := mem_of_mem_trim present
      rcases splitFirst_cases ('/' :: rest) with
        ⟨-, split⟩ | ⟨word, c, tail, equality, -, space, split⟩
      · simp [split] at inside
      · rw [split] at inside
        cases word with
        | nil =>
            obtain ⟨rfl, -⟩ := List.cons.inj equality
            simp at space
        | cons d word =>
            obtain ⟨-, rfl⟩ := List.cons.inj equality
            exact single (by simp [inside])
  | some parts =>
      obtain ⟨before, after⟩ := parts
      obtain ⟨rfl, last⟩ := splitAtLast_eq_some found
      rw [splitTargetValue_of_last_slash before last]
      exact ⟨rfl, fun present => last (mem_of_mem_trim present)⟩

theorem splitTargetValue_of_no_slash {value : Text} (trimmed : Trimmed value)
    (noSlash : value.head? ≠ some '/') : splitTargetValue value = splitTargetOptions value := by
  refine splitTargetValue_of_single_slash trimmed ?_
  rintro rest rfl
  exact absurd rfl noSlash

/-- What the two parts of a routing argument are like. -/
structure IsRoutingPair (target value : Text) : Prop where
  trimmed : Trimmed value
  no_target : target = [] → value = []
  slash : target.head? = some '/' → '/' ∉ value

theorem isRoutingPair {argument : Text} (trimmed : Trimmed argument) :
    IsRoutingPair (splitTargetValue argument).1 (splitTargetValue argument).2 := by
  by_cases slash : argument.head? = some '/'
  · obtain ⟨rest, rfl⟩ := List.head?_eq_some_iff.mp slash
    obtain ⟨head, free⟩ := splitTargetValue_of_slash trimmed
    refine ⟨?_, fun empty => by simp [empty] at head, fun _ => free⟩
    cases found : splitAtLast '/' rest with
    | none =>
        have single := (splitAtLast_eq_none_iff rest).mp found
        rw [splitTargetValue_of_single_slash trimmed fun rest' equality =>
          (List.cons.inj equality).2 ▸ single]
        exact trimmed_splitTargetOptions _
    | some parts =>
        obtain ⟨before, after⟩ := parts
        obtain ⟨rfl, last⟩ := splitAtLast_eq_some found
        rw [splitTargetValue_of_last_slash before last]
        exact trimmed_trim _
  · rw [splitTargetValue_of_no_slash trimmed slash]
    refine ⟨trimmed_splitTargetOptions _, fun empty => ?_, fun head =>
      absurd ((head?_splitTargetOptions trimmed).mp head) slash⟩
    rw [splitTargetOptions_of_no_slash trimmed slash] at empty ⊢
    cases argument with
    | nil => rfl
    | cons c rest =>
        have first : isWhitespace c = false := trimmed.1 c (by simp)
        have solid := (splitFirst_fst_solid (c :: rest)).trimmed
        rw [trim_eq_self solid] at empty
        simp [splitFirst, first] at empty

theorem isRoutingPair_of_mem {assets : ManagedAssets} (parsed : IsParsed assets)
    {item : ManagedRoutingItem} (membership : item ∈ assets.routingItems) :
    IsRoutingPair item.target item.value := by
  obtain ⟨argument, trimmed, split⟩ := parsed.routing item membership
  have pair := isRoutingPair trimmed
  rwa [split] at pair

/-! ### Routing rules -/

/-- The target of a nameserver rule as the page's text can carry it. -/
def ManagedRoutingItem.KeepsNameserver (item : ManagedRoutingItem) : Prop :=
  item.target ≠ [] ∧ scriptTrim item.target = item.target ∧
    (item.value ≠ [] → item.target.head? = some '/') ∧
    (item.value = [] → item.target.head? = some '/' → '/' ∉ item.target.tail)

/-- The target of another rule: it starts with a slash or ends with one, not both. -/
def ManagedRoutingItem.KeepsEntry (item : ManagedRoutingItem) : Prop :=
  item.target = ['/'] ∨ (item.target.head? = some '/' ↔ endsWith '/' item.target = false)

theorem rereadRouting_eq_iff (item : ManagedRoutingItem) (argument : Text) :
    rereadRouting item.ruleType argument = item ↔
      splitTargetValue argument = (item.target, item.value) := by
  obtain ⟨ruleType, target, value⟩ := item
  simp [rereadRouting, Prod.ext_iff]

/-- Trimming the target loses byte order marks, which no value gives back. -/
theorem scriptTrim_of_reread {item : ManagedRoutingItem} (solid : Solid item.target)
    (same : splitTargetValue (nameserverArgument { item with target := scriptTrim item.target }) =
      (item.target, item.value)) : scriptTrim item.target = item.target := by
  have solidMark : isWhitespace byteOrderMark = false := rfl
  have bound := count_splitTargetValue_le solidMark
    (nameserverArgument { item with target := scriptTrim item.target })
  have slash : '/' ≠ byteOrderMark := by decide
  have written : (nameserverArgument { item with target := scriptTrim item.target }).count
      byteOrderMark = (scriptTrim item.target).count byteOrderMark +
        item.value.count byteOrderMark := by
    unfold nameserverArgument
    by_cases empty : item.value = [] <;> simp [empty, slash]
  rw [same, written] at bound
  exact solid.scriptTrim_eq_self (by simpa using bound)

/-- The first word of a target and what a slash separates from it is not the target. -/
theorem splitTargetValue_join_ne {target value rest : Text} (noSlash : target.head? ≠ some '/')
    (trimmed : Trimmed (target ++ '/' :: rest)) :
    splitTargetValue (target ++ '/' :: rest) ≠ (target, value) := by
  intro same
  have parts := congrArg Prod.fst same
  cases target with
  | nil =>
      have head := (splitTargetValue_of_slash trimmed).1
      rw [List.nil_append] at parts
      simp [parts] at head
  | cons c target =>
      have first : (c :: target ++ '/' :: rest).head? ≠ some '/' := by simpa using noSlash
      rw [splitTargetValue_of_no_slash trimmed first,
        splitTargetOptions_of_no_slash trimmed first] at parts
      rw [trim_eq_self (splitFirst_fst_solid _).trimmed] at parts
      exact splitFirst_fst_ne_before_slash _ _ parts

theorem rereadNameserver_eq_iff {item : ManagedRoutingItem} (solid : Solid item.target)
    (pair : IsRoutingPair item.target item.value) :
    rereadNameserver item = [item] ↔ item.KeepsNameserver := by
  simp only [rereadNameserver, ManagedRoutingItem.KeepsNameserver]
  by_cases empty : scriptTrim item.target = []
  · rw [if_pos empty]
    exact ⟨fun none => absurd none (by simp),
      fun keeps => absurd (keeps.2.1.symm.trans empty) keeps.1⟩
  rw [if_neg empty, List.cons.injEq, and_iff_left rfl, rereadRouting_eq_iff]
  by_cases same : scriptTrim item.target = item.target
  swap
  · exact ⟨fun reread => absurd (scriptTrim_of_reread solid reread) same,
      fun keeps => absurd keeps.2.1 same⟩
  rw [same] at empty ⊢
  obtain ⟨ruleType, target, value⟩ := item
  dsimp only at solid pair empty ⊢
  by_cases slash : target.head? = some '/'
  · obtain ⟨before, rfl⟩ := List.head?_eq_some_iff.mp slash
    by_cases noValue : value = []
    · simp only [nameserverArgument, noValue, if_true]
      by_cases inner : '/' ∈ before
      · obtain ⟨parts, found⟩ := Option.ne_none_iff_exists'.mp
          fun none => (splitAtLast_eq_none_iff before).mp none inner
        obtain ⟨front, back⟩ := parts
        obtain ⟨rfl, last⟩ := splitAtLast_eq_some found
        rw [splitTargetValue_of_last_slash front last]
        simp
      · have single : ∀ rest, '/' :: before = '/' :: rest → '/' ∉ rest :=
          fun rest equality => (List.cons.inj equality).2 ▸ inner
        have gap : splitAtFirst "/ " before = none := by
          rw [splitAtFirst_eq_none_iff]
          rintro ⟨a, b, equality⟩
          exact inner (by rw [← equality]; simp)
        rw [splitTargetValue_of_single_slash solid.trimmed single,
          splitTargetOptions_of_no_gap solid.trimmed gap, splitFirst_of_solid solid]
        simp [trim_eq_self solid.trimmed, inner]
    · simp only [nameserverArgument, noValue, if_false, List.cons_append]
      rw [splitTargetValue_of_last_slash before (pair.slash rfl), trim_eq_self pair.trimmed]
      simp
  · by_cases noValue : value = []
    · simp only [nameserverArgument, noValue, if_true]
      rw [splitTargetValue_of_no_slash solid.trimmed slash,
        splitTargetOptions_of_no_slash solid.trimmed slash, splitFirst_of_solid solid]
      simp [trim_eq_self solid.trimmed, empty, slash]
    · simp only [nameserverArgument, noValue, if_false]
      have trimmed : Trimmed (target ++ '/' :: value) := by
        simpa using solid.trimmed.append pair.trimmed ['/'] empty noValue
      simp [splitTargetValue_join_ne slash trimmed, slash, noValue]

/-- What is written behind a target. -/
def gapped (value : Text) : Text := if value = [] then [] else ' ' :: value

theorem trim_gapped {value : Text} (trimmed : Trimmed value) : trim (gapped value) = value := by
  unfold gapped
  split
  · simp [*]
  · rw [trim_space_cons, trim_eq_self trimmed]

theorem not_mem_gapped {c : Char} (noSpace : c ≠ ' ') {value : Text} (free : c ∉ value) :
    c ∉ gapped value := by
  unfold gapped
  split
  · simp
  · simp [noSpace, free]

section Gapped

variable {target value : Text} (token : IsToken target) (trimmed : Trimmed value)
include token

theorem splitFirst_gapped : splitFirst (target ++ gapped value) = (target, value) := by
  unfold gapped
  split
  · rw [List.append_nil, splitFirst_of_solid token.2]
    simp [*]
  · exact splitFirst_append_cons token.2 isWhitespace_space value

include trimmed

theorem trimmed_gapped : Trimmed (target ++ gapped value) := by
  unfold gapped
  split
  · rw [List.append_nil]
    exact token.trimmed
  · simpa using token.trimmed.append trimmed [' '] token.1 (by assumption)

/-- A target that does not start with a slash is the first word. -/
theorem splitTargetOptions_gapped (noSlash : target.head? ≠ some '/') :
    splitTargetOptions (target ++ gapped value) = (target, value) := by
  have first : (target ++ gapped value).head? ≠ some '/' := by
    rwa [List.head?_append_of_ne_nil _ token.1]
  rw [splitTargetOptions_of_no_slash (trimmed_gapped token trimmed) first, splitFirst_gapped token,
    trim_eq_self token.trimmed, trim_eq_self trimmed]

end Gapped

theorem ruleEntryArgument_of_closed {item : ManagedRoutingItem}
    (ends : endsWith '/' item.target = true) :
    ruleEntryArgument item = item.target ++ gapped item.value := by
  unfold ruleEntryArgument gapped
  by_cases empty : item.value = [] <;> simp [ends, empty]

theorem ruleEntryArgument_of_open {item : ManagedRoutingItem}
    (ends : endsWith '/' item.target = false) :
    ruleEntryArgument item = item.target ++ '/' :: gapped item.value := by
  unfold ruleEntryArgument gapped
  by_cases empty : item.value = [] <;> simp [ends, empty]

/-- A target of one slash is read back as the first word. -/
theorem splitTargetValue_slash {value : Text} (trimmed : Trimmed value) (free : '/' ∉ value) :
    splitTargetValue (['/'] ++ gapped value) = (['/'], value) := by
  have token : IsToken ['/'] := by decide
  have inner := not_mem_gapped (c := '/') (by decide) free
  have whole := trimmed_gapped token trimmed
  have gap : splitAtFirst "/ " (gapped value) = none := by
    rw [splitAtFirst_eq_none_iff]
    rintro ⟨a, b, equality⟩
    exact inner (by rw [← equality]; simp)
  have word : splitFirst (['/'] ++ gapped value) = (['/'], value) := splitFirst_gapped token
  rw [List.singleton_append] at whole word ⊢
  rw [splitTargetValue_of_single_slash whole fun rest equality =>
      (List.cons.inj equality).2 ▸ inner, splitTargetOptions_of_no_gap whole gap, word,
    trim_eq_self token.trimmed, trim_eq_self trimmed]

theorem rereadRuleEntry_eq_iff {item : ManagedRoutingItem} (solid : Solid item.target)
    (pair : IsRoutingPair item.target item.value) :
    rereadRuleEntry item = item ↔ item.KeepsEntry := by
  rw [rereadRuleEntry, rereadRouting_eq_iff, ManagedRoutingItem.KeepsEntry]
  have token : IsToken (item.target ++ ['/']) := 
    ⟨by simp, (solid_append _ _).mpr ⟨solid, by decide⟩⟩
  have opened := trimmed_gapped token pair.trimmed
  rw [List.append_assoc, List.singleton_append] at opened
  by_cases slash : item.target.head? = some '/'
  · have free := pair.slash slash
    have inner := not_mem_gapped (c := '/') (by decide) free
    obtain ⟨before, equality⟩ := List.head?_eq_some_iff.mp slash
    cases ends : endsWith '/' item.target with
    | false =>
        rw [ruleEntryArgument_of_open ends, equality, List.cons_append,
          splitTargetValue_of_last_slash before inner, trim_gapped pair.trimmed]
        simp
    | true =>
        rw [ruleEntryArgument_of_closed ends]
        rcases List.eq_nil_or_concat' before with rfl | ⟨front, last, rfl⟩
        · rw [equality, splitTargetValue_slash pair.trimmed free]
          simp
        · -- the inner part of the target ends at its last slash
          have lastSlash : last = '/' := by
            rw [equality, ← List.cons_append, endsWith_append _ _ (by simp)] at ends
            simpa [endsWith] using ends
          have shape : '/' :: (front ++ [last]) ++ gapped item.value =
              '/' :: (front ++ '/' :: gapped item.value) := by simp [lastSlash]
          rw [equality, shape, splitTargetValue_of_last_slash front inner]
          simp
  · have notSlash : item.target ≠ ['/'] := fun same => slash (by rw [same]; rfl)
    cases ends : endsWith '/' item.target with
    | false =>
        rw [ruleEntryArgument_of_open ends]
        simp [splitTargetValue_join_ne slash opened, slash, notSlash]
    | true =>
        have nonempty : item.target ≠ [] := fun empty => by simp [empty] at ends
        have word : IsToken item.target := ⟨nonempty, solid⟩
        have first : (item.target ++ gapped item.value).head? ≠ some '/' := by
          rwa [List.head?_append_of_ne_nil _ nonempty]
        rw [ruleEntryArgument_of_closed ends,
          splitTargetValue_of_no_slash (trimmed_gapped word pair.trimmed) first,
          splitTargetOptions_gapped word pair.trimmed slash]
        simp [slash]

/-! ### IP rules -/

/-- An IP rule whose target starts with a slash is cut again at the same place. -/
def ManagedIpRule.KeepsTarget (rule : ManagedIpRule) : Prop :=
  rule.target.head? = some '/' → rule.options ≠ [] →
    Solid rule.target ∧ ¬ ("/ " : Text) <:+: rule.target.tail ++ ' ' :: rule.options

theorem ipRuleArgument_eq (rule : ManagedIpRule) :
    ipRuleArgument rule = rule.target ++ gapped rule.options := by
  unfold ipRuleArgument gapped
  by_cases empty : rule.options = [] <;> simp [empty]

theorem splitTargetOptions_rejoin_iff {argument : Text} (trimmed : Trimmed argument)
    {rule : ManagedIpRule} (split : splitTargetOptions argument = (rule.target, rule.options)) :
    splitTargetOptions (ipRuleArgument rule) = (rule.target, rule.options) ↔ rule.KeepsTarget := by
  have head := head?_splitTargetOptions trimmed
  have optionsTrimmed := trimmed_splitTargetOptions argument
  have target := splitTargetOptions_target trimmed
  have rejoined := splitTargetOptions_rejoined trimmed
  simp only [split] at head optionsTrimmed target rejoined
  by_cases slash : rule.target.head? = some '/'
  · by_cases empty : rule.options = []
    · have keeps : rule.KeepsTarget := fun _ nonempty => absurd empty nonempty
      have same := target empty
      rw [ipRuleArgument, if_pos empty, iff_true_right keeps, ← split, same]
    · obtain ⟨before, equality⟩ := List.head?_eq_some_iff.mp slash
      have shape : rule.target ++ ' ' :: rule.options = '/' :: (before ++ ' ' :: rule.options) := by
        simp [equality]
      have whole : Trimmed ('/' :: (before ++ ' ' :: rule.options)) := by
        have slashTrimmed : Trimmed ['/'] := by decide
        simpa using slashTrimmed.append optionsTrimmed (before ++ [' ']) (by simp) empty
      have keeps : rule.KeepsTarget ↔
          Solid rule.target ∧ ¬ ("/ " : Text) <:+: before ++ ' ' :: rule.options := by
        simp [ManagedIpRule.KeepsTarget, empty, equality]
      rw [keeps, ← splitAtFirst_eq_none_iff, ipRuleArgument, if_neg empty, shape]
      cases found : splitAtFirst "/ " (before ++ ' ' :: rule.options) with
      | none =>
          rw [splitTargetOptions_of_no_gap whole found, ← shape]
          constructor
          · intro same
            have word := congrArg Prod.fst same
            simp only [] at word
            rw [trim_eq_self (splitFirst_fst_solid _).trimmed] at word
            exact ⟨word ▸ splitFirst_fst_solid _, rfl⟩
          · rintro ⟨solid, -⟩
            rw [splitFirst_append_cons solid (by simp)]
            simp [trim_eq_self solid.trimmed, trim_eq_self optionsTrimmed]
      | some parts =>
          obtain ⟨front, back⟩ := parts
          have cut := splitAtFirst_eq_some found
          rw [splitTargetOptions_of_gap whole found]
          simp only [reduceCtorEq, and_false, iff_false]
          intro same
          have word : front = before := by simpa [equality] using congrArg Prod.fst same
          rw [word] at cut
          simp at cut
  · have keeps : rule.KeepsTarget := fun starts => absurd starts slash
    have noSlash : argument.head? ≠ some '/' := fun starts => slash (head.mpr starts)
    simp [keeps, ipRuleArgument, rejoined noSlash]

theorem rereadIpRule_eq_iff {assets : ManagedAssets} (parsed : IsParsed assets)
    {rule : ManagedIpRule} (membership : rule ∈ assets.ipRules) :
    rereadIpRule rule = rule ↔ rule.groupName = [] ∧ rule.KeepsTarget := by
  obtain ⟨argument, trimmed, split⟩ := parsed.ip rule membership
  rw [← splitTargetOptions_rejoin_iff trimmed split]
  obtain ⟨ruleType, target, options, groupName⟩ := rule
  simp only [rereadIpRule, ManagedIpRule.mk.injEq, Prod.ext_iff]
  tauto

/-! ### Sets -/

/-- No word of a set takes the place of an option that is looked up after it. -/
def ManagedDomainSet.KeepsOptions (set : ManagedDomainSet) : Prop :=
  (set.name = "-type" → set.setType = "-type") ∧
    (set.name = "-file" → set.file = "-type") ∧
    (set.setType = "-file" → set.name ≠ "-file" → set.file = "-file")

def ManagedIpSet.KeepsOptions (set : ManagedIpSet) : Prop := set.name = "-file" → set.file = "-file"

theorem fieldsKept_iff {typeOption fileOption name file setType : Text} :
    ((if name = fileOption then typeOption
        else if setType = fileOption then fileOption else file) = file ∧
      (if name = typeOption then typeOption else setType) = setType) ↔
      (name = typeOption → setType = typeOption) ∧ (name = fileOption → file = typeOption) ∧
        (setType = fileOption → name ≠ fileOption → file = fileOption) := by
  grind

theorem domainSetFrom_argument_eq_iff {set : ManagedDomainSet} (name : IsToken set.name)
    (setType : IsToken set.setType) (file : Solid set.file) :
    domainSetFrom (domainSetArgument set) = [set] ↔ set.KeepsOptions := by
  have options : ∀ word, parseNamedOption (domainSetArgument set) word =
      lookupOption word ("-name".toList :: set.name :: "-type".toList :: set.setType ::
        "-file".toList :: splitWhitespace set.file) := fun word => by
    rw [parseNamedOption, splitWhitespace_domainSetArgument name setType]
  have distinct : "-name".toList ≠ "-type".toList ∧ "-name".toList ≠ "-file".toList ∧
      "-type".toList ≠ "-file".toList := by decide
  have typeFound : lookupOption "-type" ("-name".toList :: set.name :: "-type".toList ::
      set.setType :: "-file".toList :: splitWhitespace set.file) =
        some (if set.name = "-type" then ("-type" : Text) else set.setType) := by
    rw [lookupOption, if_neg distinct.1, lookupOption]
    split
    · rfl
    · rw [lookupOption, if_pos rfl, List.head?_cons]
  have fileFound : (lookupOption "-file" ("-name".toList :: set.name :: "-type".toList ::
      set.setType :: "-file".toList :: splitWhitespace set.file)).getD [] =
        if set.name = "-file" then ("-type" : Text)
        else if set.setType = "-file" then ("-file" : Text) else set.file := by
    rw [lookupOption, if_neg distinct.2.1, lookupOption]
    split
    · rfl
    · rw [lookupOption, if_neg distinct.2.2, lookupOption]
      split
      · rfl
      · rw [lookupOption, if_pos rfl, head?_splitWhitespace_getD file]
  rw [domainSetFrom_eq, options, options, options, typeFound, fileFound, lookupOption, if_pos rfl,
    ManagedDomainSet.KeepsOptions]
  obtain ⟨name, file, setType⟩ := set
  simp only [List.head?_cons, Option.toList_some, List.map_cons, List.map_nil, List.cons.injEq,
    ManagedDomainSet.mk.injEq, true_and, and_true, Option.getD_some]
  exact fieldsKept_iff

theorem ipSetFrom_argument_eq_iff {set : ManagedIpSet} (name : IsToken set.name)
    (file : Solid set.file) : ipSetFrom (ipSetArgument set) = [set] ↔ set.KeepsOptions := by
  have options : ∀ word, parseNamedOption (ipSetArgument set) word =
      lookupOption word ("-name".toList :: set.name :: "-file".toList ::
        splitWhitespace set.file) := fun word => by
    rw [parseNamedOption, splitWhitespace_ipSetArgument name]
  have distinct : "-name".toList ≠ "-file".toList := by decide
  have fileFound : (lookupOption "-file" ("-name".toList :: set.name :: "-file".toList ::
      splitWhitespace set.file)).getD [] =
        if set.name = "-file" then ("-file" : Text) else set.file := by
    rw [lookupOption, if_neg distinct, lookupOption]
    split
    · rfl
    · rw [lookupOption, if_pos rfl, head?_splitWhitespace_getD file]
  rw [ipSetFrom_eq, options, options, fileFound, lookupOption, if_pos rfl,
    ManagedIpSet.KeepsOptions]
  obtain ⟨name, file⟩ := set
  simp only [List.head?_cons, Option.toList_some, List.map_cons, List.map_nil, List.cons.injEq,
    ManagedIpSet.mk.injEq, true_and, and_true]
  exact ite_eq_right_iff.trans (imp_congr_right fun _ => eq_comm)

/-! ### Groups and client rules -/

/-- A group that is named like its option inherits nothing or that name. -/
def ManagedRuleGroup.KeepsInherit (group : ManagedRuleGroup) : Prop :=
  group.name = "-inherit" → group.inherit = [] ∨ group.inherit = "-inherit"

theorem splitWhitespace_groupBeginArgument {group : ManagedRuleGroup} (name : IsToken group.name)
    (inherited : Solid group.inherit) :
    splitWhitespace (groupBeginArgument group) =
      group.name :: if group.inherit = [] then [] else ["-inherit".toList, group.inherit] := by
  unfold groupBeginArgument
  by_cases empty : group.inherit = []
  · rw [if_pos empty, if_pos empty, splitWhitespace_of_token name]
  · have option : (" -inherit " : Text) = ' ' :: ("-inherit".toList ++ ' ' :: []) := by decide
    have token : IsToken "-inherit".toList := by decide
    rw [if_neg empty, if_neg empty, option]
    simp only [List.append_assoc, List.cons_append, List.nil_append]
    rw [splitWhitespace_append_space, splitWhitespace_append_space, splitWhitespace_of_token name,
      splitWhitespace_of_token token, splitWhitespace_of_token ⟨empty, inherited⟩]
    rfl

/-- The one option behind a name that may be the option's own. -/
theorem lookupOption_behind_name {option name value : Text} :
    (lookupOption option (name :: if value = [] then [] else [option, value])).getD [] =
      if name = option ∧ value ≠ [] then option else value := by
  by_cases empty : value = [] <;> by_cases same : name = option <;>
    simp [lookupOption, empty, same]

theorem beginGroup_argument {group : ManagedRuleGroup} (parsed : IsParsedGroup group) :
    beginGroup (groupBeginArgument group) =
      ⟨group.name, if group.name = "-inherit" ∧ group.inherit ≠ [] then ("-inherit" : Text)
        else group.inherit, []⟩ := by
  by_cases empty : group.name = []
  · have other : group.name ≠ "-inherit" := by
      rw [empty]
      decide
    have inherited := parsed.inherit_of_no_name empty
    rw [groupBeginArgument, if_pos inherited, if_neg fun both => other both.1, inherited, empty]
    rfl
  · have words := splitWhitespace_groupBeginArgument ⟨empty, parsed.name⟩ parsed.inherit
    rw [beginGroup, parseNamedOption, words, lookupOption_behind_name, List.head?_cons,
      Option.getD_some, trim_eq_self parsed.name.trimmed]

theorem rereadGroup_eq_iff {group : ManagedRuleGroup} (parsed : IsParsedGroup group) :
    rereadGroup group = group ↔ group.KeepsInherit := by
  have matchers : group.matchers.map trim = group.matchers :=
    (map_eq_self_iff _).mpr fun value membership => trim_eq_self (parsed.matchers value membership).1
  rw [rereadGroup, beginGroup_argument parsed, matchers, ManagedRuleGroup.KeepsInherit]
  obtain ⟨name, inherited, values⟩ := group
  simp only [ManagedRuleGroup.mk.injEq, true_and, and_true]
  generalize "-inherit".toList = option
  by_cases same : name = option ∧ inherited ≠ []
  · simp [same.1, same.2, eq_comm]
  · rw [if_neg same]
    simp only [true_iff]
    exact fun named => .inl (by_contra fun nonempty => same ⟨named, nonempty⟩)

theorem rereadClientRule_eq_iff {assets : ManagedAssets} (parsed : IsParsed assets)
    {rule : ManagedClientRule} (membership : rule ∈ assets.clientRules) :
    (⟨trim rule.matcher, []⟩ : ManagedClientRule) = rule ↔ rule.groupName = [] := by
  rw [trim_eq_self (parsed.client rule membership).1]
  obtain ⟨matcher, groupName⟩ := rule
  simp [eq_comm]

end SmartDnsPlusUi
