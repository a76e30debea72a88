import SmartDnsPlusUi.Config.Assets

/-!
# Pages

Banners, titles and placeholders are comments, so a reader finds the lines of
the sections of a page and nothing else.  `contentOf` is that view of a text;
while no line ends in a backslash it is also the list of logical lines, and
otherwise a count of backslashes separates the two.
-/

namespace SmartDnsPlusUi

open Text

/-- The lines of a text that are neither empty nor comments, trimmed. -/
def contentOf (text : Text) : List Text := contentLines (lines text)

theorem contentLines_of_isLogical {ls : List Text} (logical : ∀ line ∈ ls, IsLogical line) :
    contentLines ls = ls := by
  have trims : ls.map trim = ls := by
    conv_rhs => rw [← List.map_id ls]
    exact List.map_congr_left fun line membership => trim_eq_self (logical line membership).trimmed
  rw [contentLines, trims, List.filter_eq_self]
  intro line membership
  simp [(logical line membership).nonempty, (logical line membership).no_comment]

theorem exists_continues_iff (ls : List Text) :
    (∃ line ∈ ls, Continues line) ↔ ∃ line ∈ contentLines ls, endsWith '\\' line = true := by
  constructor
  · rintro ⟨line, membership, continues⟩
    refine ⟨trim line, ?_, continues.2⟩
    have nonempty : trim line ≠ [] := by
      intro empty
      simp [Continues, empty, endsWith] at continues
    simp only [contentLines, List.mem_filter, decide_eq_true_eq]
    exact ⟨List.mem_map_of_mem membership, nonempty, continues.1⟩
  · rintro ⟨line, membership, ends⟩
    simp only [contentLines, List.mem_filter, List.mem_map, decide_eq_true_eq] at membership
    obtain ⟨⟨raw, rawMem, rfl⟩, -, noComment⟩ := membership
    exact ⟨raw, rawMem, noComment, ends⟩

/-- Without a continued line the logical lines are the content of the text. -/
theorem logicalLines_eq_contentOf {text : Text}
    (plain : ∀ line ∈ contentOf text, endsWith '\\' line = false) :
    logicalLines text = contentOf text := by
  apply mergeLines_of_not_continues
  intro line membership continues
  obtain ⟨content, contentMem, ends⟩ :=
    (exists_continues_iff (lines text)).mp ⟨line, membership, continues⟩
  simp [plain content contentMem] at ends

theorem countIn_logicalLines_le (text : Text) :
    countIn '\\' (logicalLines text) ≤ countIn '\\' (contentOf text) := by
  have bound := countIn_mergeLines_le (lines text) []
  simp only [List.count_nil, Nat.zero_add] at bound
  rw [logicalLines, contentOf]
  omega

/-- A continued line costs a backslash. -/
theorem countIn_logicalLines_lt {text line : Text} (membership : line ∈ contentOf text)
    (ends : endsWith '\\' line = true) :
    countIn '\\' (logicalLines text) < countIn '\\' (contentOf text) := by
  have bound := countIn_mergeLines_le (lines text) []
  obtain ⟨raw, rawMem, continues⟩ := (exists_continues_iff (lines text)).mpr ⟨line, membership, ends⟩
  have positive : 0 < (lines text).countP (Continues ·) :=
    List.countP_pos_iff.mpr ⟨raw, rawMem, by simpa using continues⟩
  simp only [List.count_nil, Nat.zero_add] at bound
  rw [logicalLines, contentOf]
  omega

/-! ### Pages and joined sections -/

/-- Lines that are empty or start with a hash sign are no content. -/
theorem contentLines_of_skipped {ls : List Text}
    (skipped : ∀ line ∈ ls, line = [] ∨ line.head? = some '#') : contentLines ls = [] := by
  simp only [contentLines, List.filter_eq_nil_iff, List.mem_map, decide_eq_true_eq, not_and,
    not_not]
  rintro _ ⟨line, membership, rfl⟩ nonempty
  rcases skipped line membership with rfl | hash
  · exact absurd rfl nonempty
  · obtain ⟨rest, rfl⟩ := List.head?_eq_some_iff.mp hash
    exact head?_trim_cons isWhitespace_hash rest

theorem contentOf_unlines {ls : List Text} (free : ∀ line ∈ ls, '\n' ∉ line) :
    contentOf (unlines ls) = contentLines ls := by
  rw [contentOf, lines_unlines free, ← contentLines_map_trim, ← contentLines_map_trim ls,
    List.map_map]
  congr 1
  exact List.map_congr_left fun line _ => trim_dropReturn line

/-- A line that no reader takes for content. -/
def IsBanner (line : Text) : Prop := (line = [] ∨ line.head? = some '#') ∧ '\n' ∉ line

instance (line : Text) : Decidable (IsBanner line) := inferInstanceAs (Decidable (_ ∧ _))

theorem contentLines_titled {title : Text} (banner : IsBanner title) (ls : List Text) :
    contentLines (titled title ls) = contentLines ls := by
  have comment : contentLines [title] = [] := contentLines_of_skipped (by simp [banner.1])
  by_cases empty : ls = []
  · simp [titled, empty]
  · rw [titled, if_neg empty, contentLines_append, contentLines_cons, comment]
    simp [contentLines]

theorem not_mem_titled {title : Text} (banner : IsBanner title) {ls : List Text}
    (free : ∀ line ∈ ls, '\n' ∉ line) : ∀ line ∈ titled title ls, '\n' ∉ line := by
  intro line membership
  by_cases empty : ls = []
  · simp [titled, empty] at membership
  · simp only [titled, if_neg empty, List.cons_append, List.mem_cons, List.mem_append,
      List.not_mem_nil, or_false] at membership
    rcases membership with rfl | listed | rfl
    · exact banner.2
    · exact free line listed
    · simp

/-- A page contains its sections; its header and its placeholder are banners. -/
theorem contentOf_closePage {placeholder : Text} {header sections : List Text}
    (banners : ∀ line ∈ placeholder :: header, IsBanner line)
    (free : ∀ line ∈ sections, '\n' ∉ line) :
    contentOf (closePage placeholder (header ++ sections)) = contentLines sections := by
  simp only [List.mem_cons, forall_eq_or_imp] at banners
  have title : contentLines header = [] :=
    contentLines_of_skipped fun line membership => (banners.2 line membership).1
  have closing : contentLines [placeholder] = [] :=
    contentLines_of_skipped (by simp [banners.1.1])
  have page : ∀ line ∈ header ++ sections, '\n' ∉ line := by
    intro line membership
    rcases List.mem_append.mp membership with above | listed
    · exact (banners.2 line above).2
    · exact free line listed
  rw [closePage, join_append_nil]
  by_cases short : (header ++ sections).length ≤ 3
  · rw [if_pos short, contentOf_unlines, contentLines_append, contentLines_append, title, closing]
    · simp
    intro line membership
    rcases List.mem_append.mp membership with listed | last
    · exact page line listed
    · simpa [List.mem_singleton.mp last] using banners.1.2
  · rw [if_neg short, contentOf_unlines page, contentLines_append, title, List.nil_append]

theorem lineKind_of_hash {line : Text} (hash : line.head? = some '#') :
    lineKind line = .comment := by
  obtain ⟨rest, rfl⟩ := List.head?_eq_some_iff.mp hash
  have first : (trim ('#' :: rest)).head? = some '#' := head?_trim_cons isWhitespace_hash rest
  simp only [lineKind, trim_trimEnd, first, if_true]

theorem mergeLines_banners {banners : List Text} (all : ∀ line ∈ banners, IsBanner line)
    (rest : List Text) : mergeLines [] (banners ++ rest) = mergeLines [] rest := by
  induction banners with
  | nil => rfl
  | cons banner banners inductionHypothesis =>
      obtain ⟨⟨own, -⟩, later⟩ := List.forall_mem_cons.mp all
      rw [List.cons_append, mergeLines]
      rcases own with rfl | hash
      · rw [lineKind_nil]
        exact inductionHypothesis later
      · rw [lineKind_of_hash hash]
        exact inductionHypothesis later

/-- Neither the header nor the placeholder shows in the logical lines of a page. -/
theorem logicalLines_closePage {placeholder : Text} {header sections : List Text}
    (banners : ∀ line ∈ placeholder :: header, IsBanner line)
    (free : ∀ line ∈ sections, '\n' ∉ line) :
    logicalLines (closePage placeholder (header ++ sections)) = mergeLines [] sections := by
  obtain ⟨⟨closing, closingFree⟩, title⟩ := List.forall_mem_cons.mp banners
  have page : ∀ line ∈ header ++ sections, '\n' ∉ line :=
    List.forall_mem_append.mpr ⟨fun line membership => (title line membership).2, free⟩
  rw [closePage, logicalLines_join, mergeLines_append_nil]
  · split_ifs
    · rw [List.append_assoc, mergeLines_banners title]
      rcases closing with rfl | hash
      · exact mergeLines_append_nil [] sections
      · rw [mergeLines_append_comment [] sections (lineKind_of_hash hash), List.append_nil]
    · exact mergeLines_banners title sections
  · refine List.forall_mem_append.mpr ⟨?_, by simp⟩
    split_ifs
    · exact List.forall_mem_append.mpr ⟨page, List.forall_mem_singleton.mpr closingFree⟩
    · exact page

/-- The empty line behind a section closes its last line. -/
theorem mergeLines_titled {title : Text} (hash : title.head? = some '#') (ls rest : List Text) :
    mergeLines [] (titled title ls ++ rest) = mergeLines [] ls ++ mergeLines [] rest := by
  by_cases empty : ls = []
  · rw [titled, if_pos empty, empty]
    rfl
  · rw [titled, if_neg empty, List.cons_append, List.cons_append, List.append_assoc,
      List.singleton_append, mergeLines, lineKind_of_hash hash]
    exact mergeLines_append_blank [] ls lineKind_nil rest

theorem logicalLines_joinNonemptySections (parts : List Text) :
    logicalLines (joinNonemptySections parts) = parts.flatMap logicalLines := by
  have joined : ∀ sections : List Text,
      logicalLines (join "\n\n" sections) = sections.flatMap logicalLines := by
    intro sections
    induction sections with
    | nil => rfl
    | cons part rest inductionHypothesis =>
        by_cases empty : rest = []
        · simp [join, empty]
        · have gap := logicalLines_append_gap part (join "\n\n" rest)
          rw [inductionHypothesis] at gap
          rw [join, List.intercalate_cons_of_ne_nil empty, List.flatMap_cons, ← gap]
          simp [join]
  rw [joinNonemptySections, joined]
  induction parts with
  | nil => rfl
  | cons part parts inductionHypothesis =>
      by_cases empty : trim part = []
      · have none : logicalLines part = [] := by rw [← logicalLines_trim, empty]; rfl
        simpa [empty, none] using inductionHypothesis
      · simpa [empty, logicalLines_trim] using inductionHypothesis

/-! ### Normalizing the rules text -/

/-- Removing carriage returns before line feeds changes the ends of lines
only. -/
theorem map_trimEnd_splitOn_replaceReturns (t : Text) :
    ((replaceReturns t).splitOn '\n').map trimEnd = (t.splitOn '\n').map trimEnd := by
  fun_induction replaceReturns t with
  | case1 t inductionHypothesis =>
      have ended : trimEnd ['\r'] = [] := rfl
      simp [List.splitOn_cons_eq_if_modifyHead, inductionHypothesis, ended]
  | case2 c t _ inductionHypothesis =>
      rw [List.splitOn_cons_eq_if_modifyHead, List.splitOn_cons_eq_if_modifyHead]
      by_cases newline : c = '\n'
      · simp [newline, inductionHypothesis]
      · obtain ⟨head, tail, equality⟩ :=
          List.exists_cons_of_ne_nil (List.splitOn_ne_nil '\n' t)
        obtain ⟨head', tail', equality'⟩ :=
          List.exists_cons_of_ne_nil (List.splitOn_ne_nil '\n' (replaceReturns t))
        rw [equality, equality'] at inductionHypothesis ⊢
        simp only [List.map_cons, List.cons.injEq] at inductionHypothesis
        have heads : trimEnd (c :: head') = trimEnd (c :: head) := by
          have same := inductionHypothesis.1
          rw [trimEnd, trimEnd] at same ⊢
          rw [← List.singleton_append, ← List.singleton_append (l := head), rdropWhile_append,
            rdropWhile_append, same]
        simp [newline, heads, inductionHypothesis.2]
  | case3 => rfl

theorem map_trim_splitOn_replaceReturns (t : Text) :
    ((replaceReturns t).splitOn '\n').map trim = (t.splitOn '\n').map trim := by
  have ends := congrArg (List.map trim) (map_trimEnd_splitOn_replaceReturns t)
  simpa [List.map_map, Function.comp_def, trim_trimEnd] using ends

theorem logicalLines_replaceReturns (t : Text) :
    logicalLines (replaceReturns t) = logicalLines t := by
  rw [logicalLines_eq, logicalLines_eq, map_trim_splitOn_replaceReturns]

theorem contentOf_defaultRulesText : contentOf defaultRulesText = [] := by
  have closed := join_append_nil
    ["# Generated by smartdns-plus-ui",
      "# 这份文件专门放图形界面管理的规则。",
      "# 如果你还不熟悉 SmartDNS，建议先从少量规则开始。",
      "",
      "# [block]",
      "# 这里可以添加你想屏蔽的域名",
      "# address /ads.example.com/#",
      "",
      "# [split]",
      "# 这里可以添加你想分流的域名",
      "# nameserver /example.com/office",
      "# domain-rules /example.com/ -speed-check-mode ping"]
  rw [show defaultRulesText = _ from closed, contentOf_unlines (by decide)]
  exact contentLines_of_skipped (by decide)

theorem logicalLines_defaultRulesText : logicalLines defaultRulesText = [] := by
  rw [logicalLines_eq_contentOf] <;> simp [contentOf_defaultRulesText]

theorem logicalLines_of_blank {text : Text} (blank : Blank text) : logicalLines text = [] := by
  rw [← logicalLines_trim, (trim_eq_nil_iff text).mpr blank]
  rfl

theorem logicalLines_normalizeRulesText (text : Text) :
    logicalLines (normalizeRulesText text) = logicalLines text := by
  simp only [normalizeRulesText]
  split
  · rename_i empty
    rw [logicalLines_defaultRulesText, ← logicalLines_replaceReturns, ← logicalLines_trim, empty]
    rfl
  · split
    · exact logicalLines_replaceReturns text
    · rw [logicalLines_append_space _ (by simp), logicalLines_replaceReturns]

end SmartDnsPlusUi
