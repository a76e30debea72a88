import SmartDnsPlusUi.Config.LogicalSpans
import SmartDnsPlusUi.Config.RulesReload
import SmartDnsPlusUi.Table.Covering

/-!
# Which IP rules are read back

The lines of the IP rules close their page, with an empty line in front of them.  A line that
ends in a backslash is merged with the next one, and an argument may be cut at another place
than it was joined at.  Where every rule is read back from some line, neither happens to any.
-/

namespace SmartDnsPlusUi

open Text Table

/-! ### Cutting a joined argument -/

namespace IpRuleCore

def argument (core : IpRuleCore) : Text :=
  if core.options = [] then core.target else core.target ++ ' ' :: core.options

/-- What is read of the rule's own line. -/
def reread (core : IpRuleCore) : IpRuleCore :=
  ⟨core.ruleType, (splitTargetOptions core.argument).1, (splitTargetOptions core.argument).2⟩

def slashes (core : IpRuleCore) : Nat := core.target.count '/' + core.options.count '/'

theorem line_eq_keyed (core : IpRuleCore) : core.line = keyed core.ruleType core.argument := by
  unfold line argument
  split <;> rfl

theorem count_argument {pattern : Char} (solid : isWhitespace pattern = false)
    (core : IpRuleCore) :
    core.argument.count pattern = core.target.count pattern + core.options.count pattern := by
  have space : ' ' ≠ pattern := by
    rintro rfl
    cases solid
  by_cases empty : core.options = [] <;> simp [argument, empty, space]

theorem slashes_reread_le (core : IpRuleCore) : core.reread.slashes ≤ core.slashes :=
  (count_splitTargetOptions_le (by decide) core.argument).trans_eq (count_argument (by decide) core)

end IpRuleCore

/-- The first word and what is behind it, joined by one space, come apart again. -/
theorem splitFirst_rejoined {value : Text} (trimmed : Trimmed value) (ruleType : String) :
    let core : IpRuleCore := ⟨ruleType, (splitFirst value).1, trim (splitFirst value).2⟩
    Trimmed core.argument ∧ (splitFirst core.argument).1 = core.target ∧
      trim (splitFirst core.argument).2 = core.options := by
  intro core
  have solid := splitFirst_fst_solid value
  have behind : trim core.options = core.options := trim_trim _
  by_cases empty : core.options = []
  · rw [IpRuleCore.argument, if_pos empty, splitFirst_of_solid solid]
    exact ⟨solid.trimmed, rfl, empty.symm⟩
  · have word : core.target ≠ [] := by
      intro missing
      have none := (splitFirst_fst_eq_nil_iff trimmed).mp missing
      apply empty
      simp only [core, none]
      rfl
    rw [IpRuleCore.argument, if_neg empty, splitFirst_append_cons solid (by decide)]
    refine ⟨?_, rfl, behind⟩
    rw [← List.singleton_append, ← List.append_assoc]
    exact solid.trimmed.append (trimmed_trim _) [' '] word empty

/-- Two cuts that lose no slash come to the same as one. -/
theorem IpRuleCore.reread_reread {core : IpRuleCore} (keeps : core.reread.slashes = core.slashes)
    (again : core.reread.reread.slashes = core.reread.slashes) :
    core.reread.reread = core.reread := by
  have cut : splitTargetOptions core.argument =
      ((splitFirst (trim core.argument)).1, trim (splitFirst (trim core.argument)).2) := by
    rw [← splitTargetOptions_trim]
    apply splitTargetOptions_of_slashes (trimmed_trim _)
    rw [splitTargetOptions_trim, count_trim (by decide), core.count_argument (by decide)]
    exact keeps
  have first : core.reread = ⟨core.ruleType, (splitFirst (trim core.argument)).1,
      trim (splitFirst (trim core.argument)).2⟩ := by
    rw [reread, cut]
  obtain ⟨trimmed, word, behind⟩ := splitFirst_rejoined (trimmed_trim core.argument) core.ruleType
  rw [← first] at trimmed word behind
  have second : splitTargetOptions core.reread.argument =
      ((splitFirst core.reread.argument).1, trim (splitFirst core.reread.argument).2) := by
    apply splitTargetOptions_of_slashes trimmed
    rw [core.reread.count_argument (by decide)]
    exact again
  rw [reread.eq_1 core.reread, second, word, behind]

/-- Rules that are all read back, each from the line of some rule, are each read back from
their own. -/
theorem reread_eq_self_of_covered {cores : List IpRuleCore}
    (covered : ∀ core ∈ cores, ∃ own ∈ cores, own.reread = core) :
    ∀ core ∈ cores, core.reread = core := by
  intro core membership
  apply @eq_self_of_covers _ _ cores.toFinset _ IpRuleCore.slashes
  · intro own listed
    obtain ⟨source, sourceMem, equality⟩ := covered own (List.mem_toFinset.mp listed)
    exact Finset.mem_image.mpr ⟨source, List.mem_toFinset.mpr sourceMem, equality⟩
  · exact fun own _ => own.slashes_reread_le
  · exact fun own _ => IpRuleCore.reread_reread
  · exact List.mem_toFinset.mpr membership

/-! ### Lines that are merged -/

theorem count_mergeSpan {pattern : Char} (solid : isWhitespace pattern = false)
    (span : List Text) :
    (mergeSpan span).count pattern =
      total (fun line => (withoutBackslashes line).count pattern) span := by
  rw [← countIn_splitWhitespace solid, splitWhitespace_mergeSpan, countIn, total_flatMap]
  exact congrArg (total · span) (funext fun line => countIn_splitWhitespace solid _)

theorem count_trimEnd {pattern : Char} (solid : isWhitespace pattern = false) (t : Text) :
    (trimEnd t).count pattern = t.count pattern := by
  rw [← count_trim solid (trimEnd t), trim_trimEnd, count_trim solid]

theorem count_withoutBackslashes {pattern : Char} (solid : isWhitespace pattern = false)
    (other : pattern ≠ '\\') (line : Text) :
    (withoutBackslashes line).count pattern = line.count pattern := by
  have split := List.rdropWhile_append_rtakeWhile (p := (· == '\\')) (l := trimEnd line)
  have none : ((trimEnd line).rtakeWhile (· == '\\')).count pattern = 0 := by
    apply List.count_eq_zero_of_not_mem
    intro present
    have same := List.mem_rtakeWhile_imp (p := (· == '\\')) present
    exact other (beq_iff_eq.mp same)
  have whole := congrArg (List.count pattern) split
  rw [List.count_append, none, Nat.add_zero, count_trimEnd solid] at whole
  exact whole

theorem count_withoutBackslashes_lt {line : Text} (ends : endsWith '\\' (trim line) = true) :
    (withoutBackslashes line).count '\\' < line.count '\\' := by
  rw [endsWith_trim] at ends
  have fewer := count_pieceOf_lt ends
  rw [pieceOf, count_trimEnd (by decide), count_trimEnd (by decide)] at fewer
  exact fewer

/-- A span that a line closes ends where that line ends. -/
theorem endsWith_mergeSpan_concat (run : List Text) {line : Text} (full : trim line ≠ [])
    (plain : endsWith '\\' (trim line) = false) :
    endsWith '\\' (mergeSpan (run ++ [line])) = false := by
  have same : trim (withoutBackslashes line) = trim line := by
    rw [endsWith_trim] at plain
    rw [withoutBackslashes_of_not_endsWith (by simp [plain]), trim_trimEnd]
  rw [mergeSpan_concat, same, if_neg full, appendPiece]
  split_ifs
  · exact plain
  · rw [endsWith_append _ _ (List.cons_ne_nil _ _), ← List.singleton_append,
      endsWith_append _ _ full]
    exact plain

/-- A rule that is read of a line ends where the line ends. -/
theorem endsWith_of_mem_ipRuleOf {line : Text} (trimmed : Trimmed line) {core : IpRuleCore}
    (read : core ∈ ipRuleOf (splitDirective line)) (ends : endsWith '\\' (trim core.line) = true) :
    endsWith '\\' line = true := by
  obtain ⟨ipRule, rfl⟩ := eq_of_mem_ipRuleOf read
  have value : Trimmed (splitDirective line).value := trimmed_trim _
  rw [endsWith_ip_line (ipRule.trans_ne (by decide)) value] at ends
  exact endsWith_line_of_value trimmed ends

/-- The keyword and the parts of a rule have the characters of its line, slashes and white
space apart. -/
theorem count_of_mem_ipRuleOf {pattern : Char} (solid : isWhitespace pattern = false)
    (other : pattern ≠ '/') {line : Text} {core : IpRuleCore}
    (read : core ∈ ipRuleOf (splitDirective line)) :
    core.line.count pattern = line.count pattern := by
  obtain ⟨-, rfl⟩ := eq_of_mem_ipRuleOf read
  rw [IpRuleCore.line_eq_keyed, count_keyed solid, IpRuleCore.count_argument solid]
  dsimp only
  rw [count_splitTargetOptions solid other, splitDirective]
  dsimp only
  rw [String.toList_ofList, count_trim solid, count_trim solid, count_splitFirst solid,
    count_trim solid]

theorem i_mem_of_ipRule {key : String} (ipRule : assetKeyword key = .ipRule) :
    'i' ∈ key.toList := by
  unfold assetKeyword at ipRule
  split at ipRule <;> first | decide | cases ipRule

section

variable {cores : List IpRuleCore} (types : ∀ core ∈ cores, assetKeyword core.ruleType = .ipRule)
include types

theorem isLogical_of_mem_lines {line : Text} (membership : line ∈ cores.map IpRuleCore.line) :
    IsLogical (trim line) := by
  obtain ⟨core, listed, rfl⟩ := List.mem_map.mp membership
  have keyword := isKeyword_of_assetKeyword ((types core listed).trans_ne (by decide))
  rw [core.line_eq_keyed]
  exact isLogical_keyed keyword.1 core.argument

/-- The lines are merged as they are: none of them is a comment. -/
theorem exists_cut_of_lines :
    ∃ closed last, IsCut Continues (cores.map IpRuleCore.line) closed last ∧
      mergeLines [] (cores.map IpRuleCore.line) =
        ((closed ++ [last]).map mergeSpan).filter (· ≠ []) := by
  have whole : (cores.map IpRuleCore.line).filter (fun line => ¬ IsComment line) =
      cores.map IpRuleCore.line := by
    rw [List.filter_eq_self]
    intro line membership
    exact decide_eq_true (isLogical_of_mem_lines types membership).no_comment
  have merged := mergeLines_eq (cores.map IpRuleCore.line) []
  obtain ⟨closed, last, spans, cut⟩ := @isCut_spansFrom _ Continues _
    (cores.map IpRuleCore.line) [] (List.forall_mem_nil _)
  rw [whole, spans] at merged
  exact ⟨closed, last, cut, merged⟩

/-- Only the lines that nothing closes can end in a backslash when they are merged. -/
theorem eq_last_of_ends {closed : List (List Text)} {last span : List Text}
    (cut : IsCut Continues (cores.map IpRuleCore.line) closed last)
    (listed : span ∈ closed ++ [last]) (ends : endsWith '\\' (mergeSpan span) = true) :
    span = last := by
  rcases List.mem_append.mp listed with inner | final
  · obtain ⟨run, line, rfl, -, stops⟩ := cut.closes span inner
    have member : line ∈ cores.map IpRuleCore.line := by
      rw [← cut.flatten]
      apply List.mem_append_left
      exact List.mem_flatten_of_mem inner (List.mem_append_right _ (List.mem_singleton_self line))
    have logical := isLogical_of_mem_lines types member
    have plain : endsWith '\\' (trim line) = false := by
      by_contra goesOn
      exact stops ⟨logical.no_comment, Bool.not_eq_false _ ▸ goesOn⟩
    rw [endsWith_mergeSpan_concat run logical.nonempty plain] at ends
    cases ends
  · exact List.mem_singleton.mp final

/-- A rule whose line is continued is read back from the last line only, and that line has one
keyword and fewer backslashes. -/
theorem not_continued_of_covered
    (covered : ∀ core ∈ cores, ∃ line ∈ mergeLines [] (cores.map IpRuleCore.line),
      core ∈ ipRuleOf (splitDirective line)) :
    ∀ core ∈ cores, endsWith '\\' (trim core.line) = false := by
  obtain ⟨closed, last, cut, merged⟩ := exists_cut_of_lines types
  have read : ∀ core ∈ cores, endsWith '\\' (trim core.line) = true →
      core ∈ ipRuleOf (splitDirective (mergeSpan last)) := by
    intro core membership ends
    obtain ⟨line, lineMem, own⟩ := covered core membership
    rw [merged] at lineMem
    obtain ⟨span, listed, rfl⟩ := List.mem_map.mp (List.mem_filter.mp lineMem).1
    have closes := endsWith_of_mem_ipRuleOf (trimmed_mergeSpan span) own ends
    rwa [← eq_last_of_ends types cut listed closes]
  intro core membership
  by_contra continued
  have ends := Bool.not_eq_false _ ▸ continued
  have own := read core membership ends
  have same : ∀ line ∈ last, line = core.line := by
    intro line lineMem
    have listed : line ∈ cores.map IpRuleCore.line := by
      rw [← cut.flatten]
      exact List.mem_append_right _ lineMem
    obtain ⟨other, otherMem, rfl⟩ := List.mem_map.mp listed
    have otherOwn := read other otherMem (cut.goesOn _ lineMem).2
    rw [(eq_of_mem_ipRuleOf otherOwn).2, ← (eq_of_mem_ipRuleOf own).2]
  have counts : ∀ pattern : Char, isWhitespace pattern = false → pattern ≠ '/' →
      core.line.count pattern =
        last.length * (withoutBackslashes core.line).count pattern := by
    intro pattern solid other
    rw [count_of_mem_ipRuleOf solid other own, count_mergeSpan solid, total,
      List.sum_eq_card_nsmul _ ((withoutBackslashes core.line).count pattern), List.length_map]
    · rfl
    rw [List.forall_mem_map]
    intro line lineMem
    rw [same line lineMem]
  have keyword := counts 'i' (by decide) (by decide)
  rw [count_withoutBackslashes (by decide) (by decide)] at keyword
  have backslashes := counts '\\' (by decide) (by decide)
  have fewer := count_withoutBackslashes_lt ends
  have present : 0 < core.line.count 'i' := by
    apply List.count_pos_iff.mpr
    rw [core.line_eq_keyed, keyed]
    exact List.mem_append_left _ (i_mem_of_ipRule (types core membership))
  have once : last.length = 1 := Nat.eq_of_mul_eq_mul_right present (by omega)
  rw [once, Nat.one_mul] at backslashes
  omega

end

end SmartDnsPlusUi
