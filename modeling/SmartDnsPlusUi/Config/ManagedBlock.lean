import Mathlib.Logic.Function.Iterate
import SmartDnsPlusUi.Config.MainConfig

/-!
# Inserting the managed block

A second insertion finds the block of the first one and replaces it by itself,
unless the text had a begin marker without an end marker after it: then the
second insertion takes everything from that marker on for the block.
-/

namespace SmartDnsPlusUi

open Text

/-- A text without markers. -/
structure IsMarkerFree (text : Text) : Prop where
  no_begin : ¬ managedBegin <:+: text
  no_end : ¬ managedEnd <:+: text

/-- An end marker follows the first begin marker, if there is one. -/
def IsTerminated (text : Text) : Prop :=
  ∀ before rest, splitAtFirst managedBegin text = some (before, rest) → managedEnd <:+: rest

theorem managedBegin_ne_nil : managedBegin ≠ [] := by decide

theorem managedEnd_ne_nil : managedEnd ≠ [] := by decide

theorem plain_managedFileNames :
    ∀ name ∈ managedFileNames, '#' ∉ name ∧ name.head? ≠ some '/' := by
  decide

/-- No marker comes about by including a file of the managed directory. -/
theorem not_infix_includeLine {tail : Text} (noSlash : '/' ∉ '#' :: tail) {rulesDir : Text}
    (free : ¬ '#' :: tail <:+: managedConfDir rulesDir) :
    ∀ line ∈ includeLines rulesDir, ¬ '#' :: tail <:+: line := by
  intro line membership occurs
  obtain ⟨name, nameMem, rfl⟩ := List.mem_map.mp membership
  obtain ⟨fresh, relative⟩ := plain_managedFileNames name nameMem
  have inPath := infix_append_of_head_not_mem (s := "conf-file ") (by decide) occurs
  exact free (infix_of_infix_pathJoin noSlash fresh relative inPath)

/-- The managed directory has the marker only if the rules directory has it. -/
theorem IsMarkerFree.not_infix_managedConfDir {rulesDir : Text} (free : IsMarkerFree rulesDir) :
    ¬ managedEnd <:+: managedConfDir rulesDir := by
  intro occurs
  have shape : managedEnd = '#' :: managedEnd.tail := by decide
  rw [shape] at occurs
  have inParent := infix_of_infix_pathJoin (by decide) (by decide) (by decide) occurs
  rw [← shape] at inParent
  cases found : parent rulesDir with
  | none => exact free.no_end (by simpa [found] using inParent)
  | some dir =>
      rw [found, Option.getD_some] at inParent
      exact free.no_end (inParent.trans (parent_isPrefix found).isInfix)

theorem managedBlock_eq (rulesDir : Text) :
    managedBlock rulesDir = unlines (managedBegin :: includeLines rulesDir) ++ managedEnd :=
  join_append_singleton _ _

theorem not_infix_managedBegin : ¬ managedEnd <:+: managedBegin := by
  rw [← splitAtFirst_eq_none_iff]
  decide

/-- A search for the end marker passes the begin marker. -/
theorem splitAtFirst_managedBegin_append (rest : Text) :
    splitAtFirst managedEnd (managedBegin ++ rest) =
      (splitAtFirst managedEnd rest).map fun parts => (managedBegin ++ parts.1, parts.2) := by
  have shape : managedBegin = '#' :: managedBegin.tail := by decide
  have fresh : '#' ∉ managedBegin.tail := by decide
  have shape' : managedEnd = '#' :: managedEnd.tail := by decide
  have starts : ¬ managedEnd <+: '#' :: (managedBegin.tail ++ rest) := by
    rintro ⟨tail, equality⟩
    rw [← List.cons_append, ← shape] at equality
    have third := congrArg (List.take 3) equality
    rw [List.take_append_of_le_length (by decide),
      List.take_append_of_le_length (by decide)] at third
    exact absurd third (by decide)
  have pass : splitAtFirst managedEnd (managedBegin.tail ++ rest) =
      (splitAtFirst managedEnd rest).map fun parts => (managedBegin.tail ++ parts.1, parts.2) := by
    rw [shape']
    exact splitAtFirst_append_of_head_not_mem fresh rest
  conv_lhs => rw [shape, List.cons_append, splitAtFirst, if_neg starts, pass, Option.map_map]
  rfl

theorem infix_managedBegin_append_iff (rest : Text) :
    managedEnd <:+: managedBegin ++ rest ↔ managedEnd <:+: rest := by
  rw [← not_iff_not, ← splitAtFirst_eq_none_iff, ← splitAtFirst_eq_none_iff,
    splitAtFirst_managedBegin_append, Option.map_eq_none_iff]

/-! ### Finding the block again -/

/-- A search for a marker passes what stands before the block. -/
theorem splitAtFirst_textBeforeBlock {marker text : Text} (nonempty : marker ≠ [])
    (oneLine : '\n' ∉ marker) (absent : ¬ marker <:+: text) (t : Text) :
    splitAtFirst marker (textBeforeBlock text ++ t) =
      (splitAtFirst marker t).map fun parts => (textBeforeBlock text ++ parts.1, parts.2) := by
  unfold textBeforeBlock
  by_cases empty : trimEnd text = []
  · simp [empty]
  · have absent' : ¬ marker <:+: trimEnd text := fun occurs =>
      absent (occurs.trans (trimEnd_isPrefix text).isInfix)
    have none : ∀ line ∈ [trimEnd text, []], ¬ marker <:+: line := by simp [absent', nonempty]
    have pass := splitAtFirst_unlines_append nonempty oneLine none t
    simpa [empty] using pass

/-- The end of the block is the first end marker in it. -/
theorem splitAtFirst_managedBlock {rulesDir : Text}
    (free : ¬ managedEnd <:+: managedConfDir rulesDir) (after : Text) :
    splitAtFirst managedEnd (managedBlock rulesDir ++ after) =
      some (unlines (managedBegin :: includeLines rulesDir), after) := by
  have none : ∀ line ∈ managedBegin :: includeLines rulesDir, ¬ managedEnd <:+: line := by
    rw [List.forall_mem_cons]
    exact ⟨not_infix_managedBegin, not_infix_includeLine (by decide) free⟩
  rw [managedBlock_eq, List.append_assoc,
    splitAtFirst_unlines_append managedEnd_ne_nil (by decide) none,
    splitAtFirst_self_append managedEnd_ne_nil]
  simp

theorem findManagedBlock_inserted {rulesDir before : Text}
    (free : ¬ managedEnd <:+: managedConfDir rulesDir) (absent : ¬ managedBegin <:+: before) (after : Text) :
    findManagedBlock (textBeforeBlock before ++ managedBlock rulesDir ++ after) =
      some (textBeforeBlock before, after) := by
  have opened : managedBlock rulesDir ++ after =
      managedBegin ++ (managedBlock rulesDir ++ after).drop managedBegin.length := by
    rw [managedBlock_eq, unlines_cons]
    simp
  unfold findManagedBlock
  rw [List.append_assoc, splitAtFirst_textBeforeBlock (by decide) (by decide) absent]
  rw [opened, splitAtFirst_self_append (by decide)]
  simp only [Option.map_some, List.append_nil]
  rw [← opened, splitAtFirst_managedBlock free]

theorem textBeforeBlock_idempotent (text : Text) :
    textBeforeBlock (textBeforeBlock text) = textBeforeBlock text := by
  have gap : trimEnd (trimEnd text ++ ['\n', '\n']) = trimEnd text := by
    rw [trimEnd_append_of_blank _ (by simp), trimEnd_trimEnd]
  unfold textBeforeBlock
  by_cases empty : trimEnd text = []
  · simp [empty]
  · simp [empty, gap]

theorem textAfterBlock_idempotent (after : Text) :
    textAfterBlock (textAfterBlock after) = textAfterBlock after := by
  have newline : isLineBreak '\n' = true := rfl
  unfold textAfterBlock
  generalize rest : after.dropWhile isLineBreak = cut
  have again : cut.dropWhile isLineBreak = cut := by rw [← rest, List.dropWhile_idempotent]
  by_cases blank : trim cut = []
  · simp [blank, newline]
  · simp [blank, newline, again]

theorem ensureManagedBlock_of_found {text rulesDir before after : Text}
    (found : findManagedBlock text = some (before, after)) :
    ensureManagedBlock text rulesDir =
      textBeforeBlock before ++ managedBlock rulesDir ++ textAfterBlock after := by
  simp only [ensureManagedBlock, found]

theorem ensureManagedBlock_of_none {text rulesDir : Text} (none : findManagedBlock text = none) :
    ensureManagedBlock text rulesDir =
      textBeforeBlock text ++ managedBlock rulesDir ++ textAfterBlock [] := by
  simp only [ensureManagedBlock, none]
  rfl

/-- Once the block stands in the text, inserting it again changes nothing. -/
theorem ensureManagedBlock_inserted {rulesDir before : Text}
    (free : ¬ managedEnd <:+: managedConfDir rulesDir) (absent : ¬ managedBegin <:+: before) (after : Text) :
    ensureManagedBlock
        (textBeforeBlock before ++ managedBlock rulesDir ++ textAfterBlock after) rulesDir =
      textBeforeBlock before ++ managedBlock rulesDir ++ textAfterBlock after := by
  rw [ensureManagedBlock_of_found (findManagedBlock_inserted free absent _),
    textBeforeBlock_idempotent, textAfterBlock_idempotent]

/-! ### When a second insertion changes nothing -/

theorem not_infix_of_findManagedBlock {text before after : Text}
    (found : findManagedBlock text = some (before, after)) : ¬ managedBegin <:+: before := by
  unfold findManagedBlock at found
  split at found
  · rename_i before' rest opened
    split at found
    · simp only [Option.some.injEq, Prod.mk.injEq] at found
      exact found.1 ▸ not_infix_of_splitAtFirst (by decide) opened
    · simp at found
  · simp at found

/-- A terminated text without a block to replace has no begin marker. -/
theorem not_infix_of_isTerminated {text : Text} (terminated : IsTerminated text)
    (none : findManagedBlock text = none) : ¬ managedBegin <:+: text := by
  rw [← splitAtFirst_eq_none_iff]
  cases opened : splitAtFirst managedBegin text with
  | none => rfl
  | some parts =>
      obtain ⟨before, rest⟩ := parts
      have closed := terminated before rest opened
      rw [← infix_managedBegin_append_iff] at closed
      simp only [findManagedBlock, opened] at none
      split at none
      · simp at none
      · rename_i missing
        exact absurd closed ((splitAtFirst_eq_none_iff _).mp missing)

theorem ensureManagedBlock_of_isTerminated {text rulesDir : Text}
    (free : ¬ managedEnd <:+: managedConfDir rulesDir) (terminated : IsTerminated text) :
    ensureManagedBlock (ensureManagedBlock text rulesDir) rulesDir =
      ensureManagedBlock text rulesDir := by
  cases found : findManagedBlock text with
  | some parts =>
      obtain ⟨before, after⟩ := parts
      rw [ensureManagedBlock_of_found found,
        ensureManagedBlock_inserted free (not_infix_of_findManagedBlock found)]
  | none =>
      rw [ensureManagedBlock_of_none found,
        ensureManagedBlock_inserted free (not_infix_of_isTerminated terminated found)]

/-- The first begin marker survives trimming; what is cut is behind it. -/
theorem trimEnd_eq_of_opened {text before rest : Text}
    (opened : splitAtFirst managedBegin text = some (before, rest))
    (missing : ¬ managedEnd <:+: rest) :
    ∃ shorter, trimEnd text = before ++ managedBegin ++ shorter ∧ ¬ managedEnd <:+: shorter := by
  rw [splitAtFirst_eq_some opened, trimEnd_append]
  by_cases blank : trim rest = []
  · refine ⟨[], ?_, fun occurs => managedEnd_ne_nil (List.infix_nil.mp occurs)⟩
    rw [if_pos blank, trimEnd_append_of_trimmed before (by decide) (by decide), List.append_nil]
  · refine ⟨trimEnd rest, by rw [if_neg blank], fun occurs => missing ?_⟩
    exact occurs.trans (trimEnd_isPrefix rest).isInfix

/-- An unterminated marker: the second insertion drops the text from the marker
on. -/
theorem ensureManagedBlock_of_unterminated {text rulesDir before rest : Text}
    (free : IsMarkerFree rulesDir) (opened : splitAtFirst managedBegin text = some (before, rest))
    (missing : ¬ managedEnd <:+: rest) :
    ensureManagedBlock text rulesDir =
        trimEnd text ++ ['\n', '\n'] ++ managedBlock rulesDir ++ ['\n'] ∧
      ensureManagedBlock (ensureManagedBlock text rulesDir) rulesDir =
        textBeforeBlock before ++ managedBlock rulesDir ++ ['\n'] := by
  have none : splitAtFirst managedEnd (managedBegin ++ rest) = none := by
    rwa [splitAtFirst_eq_none_iff, infix_managedBegin_append_iff]
  obtain ⟨shorter, ended, absent⟩ := trimEnd_eq_of_opened opened missing
  have nonempty : trimEnd text ≠ [] := by
    rw [ended]
    simp [managedBegin_ne_nil]
  have first : ensureManagedBlock text rulesDir =
      trimEnd text ++ ['\n', '\n'] ++ managedBlock rulesDir ++ ['\n'] := by
    simp only [ensureManagedBlock, findManagedBlock, opened, none, textBeforeBlock,
      if_neg nonempty]
  refine ⟨first, ?_⟩
  have shape : ensureManagedBlock text rulesDir = before ++ managedBegin ++
      (unlines [shorter, []] ++ (managedBlock rulesDir ++ ['\n'])) := by
    rw [first, ended]
    simp
  have refound : findManagedBlock (ensureManagedBlock text rulesDir) = some (before, ['\n']) := by
    have again := splitAtFirst_append_of_eq_some managedBegin_ne_nil opened
      (unlines [shorter, []] ++ (managedBlock rulesDir ++ ['\n']))
    have passed : ∀ line ∈ [managedBegin ++ shorter, []], ¬ managedEnd <:+: line := by
      simp [infix_managedBegin_append_iff, absent, managedEnd_ne_nil]
    have joined : managedBegin ++ (unlines [shorter, []] ++ (managedBlock rulesDir ++ ['\n'])) =
        unlines [managedBegin ++ shorter, []] ++ (managedBlock rulesDir ++ ['\n']) := by simp
    have closed := splitAtFirst_unlines_append managedEnd_ne_nil (by decide) passed
      (managedBlock rulesDir ++ ['\n'])
    rw [splitAtFirst_managedBlock free.not_infix_managedConfDir, ← joined] at closed
    rw [shape]
    simp only [findManagedBlock, again, closed, Option.map_some]
  rw [ensureManagedBlock_of_found refound]
  rfl

theorem isTerminated_of_ensureManagedBlock {text rulesDir : Text} (free : IsMarkerFree rulesDir)
    (same : ensureManagedBlock (ensureManagedBlock text rulesDir) rulesDir =
      ensureManagedBlock text rulesDir) : IsTerminated text := by
  intro before rest opened
  by_contra missing
  obtain ⟨first, second⟩ := ensureManagedBlock_of_unterminated free opened missing
  rw [second, first] at same
  have lengths := congrArg List.length same
  have kept : before.length + managedBegin.length ≤ (trimEnd text).length := by
    obtain ⟨shorter, ended, -⟩ := trimEnd_eq_of_opened opened missing
    simp [ended]
  have gap : (textBeforeBlock before).length ≤ before.length + 2 := by
    have shorter := (trimEnd_isPrefix before).length_le
    unfold textBeforeBlock
    split
    · simp
    · simpa using shorter
  have positive : 0 < managedBegin.length := List.length_pos_iff.mpr managedBegin_ne_nil
  simp only [List.length_append, List.length_cons, List.length_nil] at lengths
  omega

/-- Inserting the managed block is idempotent, and every further insertion
leaves the text alone, exactly when the first begin marker is not left without
an end marker. -/
theorem ensureManagedBlock_idempotent_iff {rulesDir : Text} (free : IsMarkerFree rulesDir)
    (text : Text) :
    (ensureManagedBlock (ensureManagedBlock text rulesDir) rulesDir =
        ensureManagedBlock text rulesDir ∧
      ∀ n, (ensureManagedBlock · rulesDir)^[n + 1] text = ensureManagedBlock text rulesDir) ↔
      IsTerminated text := by
  constructor
  · exact fun same => isTerminated_of_ensureManagedBlock free same.1
  · intro terminated
    have once := ensureManagedBlock_of_isTerminated free.not_infix_managedConfDir terminated
    refine ⟨once, fun n => ?_⟩
    induction n with
    | zero => rfl
    | succ n inductionHypothesis =>
        rw [Function.iterate_succ_apply', inductionHypothesis, once]

/-- The user's text around a block of an older version. -/
def textAroundBlock : Text :=
  ("server 1.1.1.1\n\n" : Text) ++ (managedBegin ++ (("\nconf-file old.conf\n" : Text) ++
    (managedEnd ++ ("\ncache-size 0\n" : Text))))

theorem isTerminated_textAroundBlock : IsTerminated textAroundBlock := by
  intro before rest opened
  have block : splitAtFirst managedBegin textAroundBlock = some (("server 1.1.1.1\n\n" : Text),
      ("\nconf-file old.conf\n" : Text) ++ (managedEnd ++ ("\ncache-size 0\n" : Text))) := by
    decide +kernel
  rw [block] at opened
  cases opened
  exact List.infix_append' _ _ _

theorem ensureManagedBlock_idempotent_iff_example :
    ensureManagedBlock (ensureManagedBlock textAroundBlock "/etc/smartdns/rules")
        "/etc/smartdns/rules" = ensureManagedBlock textAroundBlock "/etc/smartdns/rules" := by
  have free : IsMarkerFree "/etc/smartdns/rules" := by
    constructor <;> rw [← splitAtFirst_eq_none_iff] <;> decide
  have same := (ensureManagedBlock_idempotent_iff free textAroundBlock).mpr
    isTerminated_textAroundBlock
  exact same.1

/-- A begin marker alone: the upstream after it is dropped by the second save. -/
theorem not_ensureManagedBlock_idempotent :
    ¬ ∀ text rulesDir : Text, IsMarkerFree rulesDir →
      ensureManagedBlock (ensureManagedBlock text rulesDir) rulesDir =
        ensureManagedBlock text rulesDir := by
  intro all
  have free : IsMarkerFree "/etc/smartdns/rules" := by
    constructor <;> rw [← splitAtFirst_eq_none_iff] <;> decide
  have same := all (managedBegin ++ ("\nserver 1.1.1.1" : Text)) _ free
  have terminated := isTerminated_of_ensureManagedBlock free same [] "\nserver 1.1.1.1"
    (splitAtFirst_self_append managedBegin_ne_nil _)
  revert terminated
  rw [imp_false, ← splitAtFirst_eq_none_iff]
  decide

/-! ### What the insertion keeps -/

/-- The user's text before the first begin marker and after the first end marker behind it;
without such a pair all of the text stands before. -/
def userParts (mainConfigText : Text) : Text × Text :=
  match splitAtFirst managedBegin mainConfigText with
  | none => (mainConfigText, [])
  | some (before, rest) =>
      match splitAtFirst managedEnd rest with
      | none => (mainConfigText, [])
      | some (_, after) => (before, after)

/-- The block that is replaced is the one between the user's parts. -/
theorem findManagedBlock_getD (text : Text) :
    (findManagedBlock text).getD (text, []) = userParts text := by
  unfold findManagedBlock userParts
  cases opened : splitAtFirst managedBegin text with
  | none => rfl
  | some parts =>
      obtain ⟨before, rest⟩ := parts
      simp only [splitAtFirst_managedBegin_append]
      cases splitAtFirst managedEnd rest with
      | none => rfl
      | some ended => rfl

theorem visibleLines_textBeforeBlock_append (text t : Text) :
    visibleLines (textBeforeBlock text ++ t) = visibleLines text ++ visibleLines t := by
  unfold textBeforeBlock
  split_ifs with empty
  · rw [visibleLines_of_blank ((trimEnd_eq_nil_iff text).mp empty)]
    rfl
  · have gap : trimEnd text ++ ['\n', '\n'] ++ t = trimEnd text ++ '\n' :: '\n' :: t := by simp
    rw [gap, visibleLines_append_newline, visibleLines_trimEnd]
    exact congrArg _ (visibleLines_append_newline [] t)

theorem visibleLines_append_textAfterBlock (t after : Text) :
    visibleLines (t ++ textAfterBlock after) = visibleLines t ++ visibleLines after := by
  have shown : visibleLines (after.dropWhile isLineBreak) = visibleLines after := by
    have breaks : Blank (after.takeWhile isLineBreak) := by
      intro c membership
      have lineBreak := List.mem_takeWhile_imp membership
      rcases (by simpa [isLineBreak] using lineBreak : c = '\r' ∨ c = '\n') with rfl | rfl <;> rfl
    conv_rhs => rw [← List.takeWhile_append_dropWhile (p := isLineBreak) (l := after)]
    exact (visibleLines_blank_append breaks _).symm
  unfold textAfterBlock
  dsimp only
  split_ifs with visible
  · rw [visibleLines_append_newline, ← shown]
    exact congrArg _ (visibleLines_append_newline [] _)
  · rw [visibleLines_append_newline, ← shown,
      visibleLines_of_blank ((trim_eq_nil_iff _).mp (not_not.mp visible)), visibleLines_nil]

/-- What a reader sees of the text with the block: the user's lines before it, the lines of
the block, the user's lines after it. -/
theorem visibleLines_ensureManagedBlock (text rulesDir : Text) :
    visibleLines (ensureManagedBlock text rulesDir) =
      visibleLines (userParts text).1 ++ visibleLines (managedBlock rulesDir) ++
        visibleLines (userParts text).2 := by
  rw [← findManagedBlock_getD]
  cases found : findManagedBlock text with
  | some parts =>
      obtain ⟨before, after⟩ := parts
      rw [ensureManagedBlock_of_found found, List.append_assoc,
        visibleLines_textBeforeBlock_append, visibleLines_append_textAfterBlock, List.append_assoc]
      rfl
  | none =>
      rw [ensureManagedBlock_of_none found, List.append_assoc,
        visibleLines_textBeforeBlock_append, visibleLines_append_textAfterBlock, List.append_assoc]
      rfl

end SmartDnsPlusUi
