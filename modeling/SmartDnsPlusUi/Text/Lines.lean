import Mathlib.Data.List.Basic
import SmartDnsPlusUi.Text.Split

/-!
# Lines of a text

`lines` splits at line feeds, drops the carriage return before a line feed and
does not count the empty piece after the last line feed.  `unlines` writes a
list of lines with a line feed after each of them.
-/

namespace SmartDnsPlusUi.Text

/-- Remove one carriage return from the end. -/
def dropReturn (line : Text) : Text :=
  if line.getLast? = some '\r' then line.dropLast else line

def lines (t : Text) : List Text :=
  let pieces := t.splitOn '\n'
  pieces.dropLast.map dropReturn ++ pieces.getLast?.toList.filter (· ≠ [])

/-- `join` of a sequence of texts. -/
def join (separator : Text) (parts : List Text) : Text := separator.intercalate parts

def unlines (ls : List Text) : Text := ls.flatMap (· ++ ['\n'])

@[simp] theorem lines_nil : lines [] = [] := rfl

@[simp] theorem unlines_nil : unlines [] = [] := rfl

@[simp] theorem unlines_cons (line : Text) (ls : List Text) :
    unlines (line :: ls) = line ++ '\n' :: unlines ls := by simp [unlines]

@[simp] theorem unlines_append (ls rest : List Text) :
    unlines (ls ++ rest) = unlines ls ++ unlines rest := by simp [unlines]

theorem dropReturn_eq_or (line : Text) :
    dropReturn line = line ∨ line = dropReturn line ++ ['\r'] := by
  by_cases ends : line.getLast? = some '\r'
  · right
    have split := List.dropLast_append_getLast? '\r' ends
    simp [dropReturn, ends, split]
  · simp [dropReturn, ends]

theorem trim_dropReturn (line : Text) : trim (dropReturn line) = trim line := by
  rcases dropReturn_eq_or line with same | split
  · rw [same]
  · conv_rhs => rw [split]
    exact (trim_append_of_blank _ (by simp)).symm

theorem dropReturn_of_trimmed {line : Text} (trimmed : Trimmed line) : dropReturn line = line := by
  by_cases ends : line.getLast? = some '\r'
  · have := trimmed.2 '\r' (by simp [ends])
    simp at this
  · simp [dropReturn, ends]

theorem lines_append_newline {line : Text} (free : '\n' ∉ line) (t : Text) :
    lines (line ++ '\n' :: t) = dropReturn line :: lines t := by
  have nonempty := List.splitOn_ne_nil '\n' t
  simp only [lines, List.splitOn_append_cons_self_of_not_mem free]
  rw [List.dropLast_cons_of_ne_nil nonempty, List.getLast?_cons_of_ne_nil nonempty]
  simp

theorem lines_append_cons (s t : Text) :
    lines (s ++ '\n' :: t) = (s.splitOn '\n').map dropReturn ++ lines t := by
  have nonempty := List.splitOn_ne_nil '\n' t
  simp only [lines, List.splitOn_append_cons_self]
  rw [List.dropLast_append_of_ne_nil nonempty, List.getLast?_append_of_ne_nil _ nonempty,
    List.map_append, List.append_assoc]

theorem lines_unlines_append {ls : List Text} (free : ∀ line ∈ ls, '\n' ∉ line) (t : Text) :
    lines (unlines ls ++ t) = ls.map dropReturn ++ lines t := by
  induction ls with
  | nil => rfl
  | cons line ls inductionHypothesis =>
      simp only [List.mem_cons, forall_eq_or_imp] at free
      simp [lines_append_newline free.1, inductionHypothesis free.2]

theorem lines_unlines {ls : List Text} (free : ∀ line ∈ ls, '\n' ∉ line) :
    lines (unlines ls) = ls.map dropReturn := by
  simpa using lines_unlines_append free []

/-- Lines joined by line feeds: the last one has none after it. -/
theorem join_append_singleton (ls : List Text) (last : Text) :
    join ['\n'] (ls ++ [last]) = unlines ls ++ last := by
  induction ls with
  | nil => simp [join]
  | cons line ls inductionHypothesis =>
      rw [List.cons_append, join, List.intercalate_cons_of_ne_nil (by simp)]
      rw [join] at inductionHypothesis
      simp [inductionHypothesis]

theorem join_append_nil (ls : List Text) : join ['\n'] (ls ++ [[]]) = unlines ls := by
  rw [join_append_singleton, List.append_nil]

/-- A search passes lines that do not contain the substring. -/
theorem splitAtFirst_unlines_append {needle : Text} (nonempty : needle ≠ [])
    (oneLine : '\n' ∉ needle) {ls : List Text} (absent : ∀ line ∈ ls, ¬ needle <:+: line)
    (t : Text) :
    splitAtFirst needle (unlines ls ++ t) =
      (splitAtFirst needle t).map fun parts => (unlines ls ++ parts.1, parts.2) := by
  induction ls with
  | nil => simp
  | cons line ls inductionHypothesis =>
      simp only [List.mem_cons, forall_eq_or_imp] at absent
      rw [unlines_cons, List.append_assoc, List.cons_append,
        splitAtFirst_append_cons nonempty oneLine absent.1, inductionHypothesis absent.2,
        Option.map_map]
      simp [Function.comp_def]

theorem not_mem_of_mem_splitOn {separator : Char} (t : Text) :
    ∀ piece ∈ t.splitOn separator, separator ∉ piece := by
  induction t with
  | nil => simp
  | cons c t inductionHypothesis =>
      rw [List.splitOn_cons_eq_if_modifyHead]
      by_cases here : c = separator
      · simpa [here] using inductionHypothesis
      · obtain ⟨head, tail, equality⟩ :=
          List.exists_cons_of_ne_nil (List.splitOn_ne_nil separator t)
        simp_all [Ne.symm here]

theorem infix_join_of_mem {separator part : Text} {parts : List Text}
    (membership : part ∈ parts) : part <:+: join separator parts := by
  induction parts with
  | nil => simp at membership
  | cons first parts inductionHypothesis =>
      by_cases last : parts = []
      · simp_all [join]
      · rw [join, List.intercalate_cons_of_ne_nil last]
        rcases List.mem_cons.mp membership with rfl | later
        · exact ⟨[], separator ++ separator.intercalate parts, by simp⟩
        · exact (inductionHypothesis later).trans ( List.suffix_append _ _).isInfix

theorem infix_of_mem_splitOn {separator : Char} {t piece : Text}
    (membership : piece ∈ t.splitOn separator) : piece <:+: t := by
  have within : piece <:+: join [separator] (t.splitOn separator) := infix_join_of_mem membership
  have whole : join [separator] (t.splitOn separator) = t := List.intercalate_splitOn separator
  rwa [whole] at within

/-- A text without separator extends the last piece. -/
theorem splitOn_append_of_not_mem {separator : Char} (t : Text) {s : Text}
    (free : separator ∉ s) :
    ∃ front last, t.splitOn separator = front ++ [last] ∧
      (t ++ s).splitOn separator = front ++ [last ++ s] := by
  induction t with
  | nil => exact ⟨[], [], by simp, by simpa using List.splitOn_eq_singleton free⟩
  | cons c t inductionHypothesis =>
      obtain ⟨front, last, equality, longer⟩ := inductionHypothesis
      rw [List.cons_append, List.splitOn_cons_eq_if_modifyHead,
        List.splitOn_cons_eq_if_modifyHead, equality, longer]
      by_cases here : c = separator
      · exact ⟨[] :: front, last, by simp [here], by simp [here]⟩
      · cases front with
        | nil => exact ⟨[], c :: last, by simp [here], by simp [here]⟩
        | cons head front =>
            exact ⟨(c :: head) :: front, last, by simp [here], by simp [here]⟩

theorem not_mem_of_mem_lines {t line : Text} (membership : line ∈ lines t) : '\n' ∉ line := by
  simp only [lines, List.mem_append, List.mem_map, List.mem_filter, Option.mem_toList] at membership
  rcases membership with ⟨piece, pieceMem, rfl⟩ | ⟨last, -⟩
  · have free := not_mem_of_mem_splitOn t piece (List.dropLast_subset _ pieceMem)
    rcases dropReturn_eq_or piece with same | split
    · rwa [same]
    · intro present
      apply free
      rw [split]
      exact List.mem_append_left _ present
  · exact not_mem_of_mem_splitOn t line (List.mem_of_getLast? last)

/-- Up to white space around each of them, the lines are the pieces between
line feeds, possibly followed by an empty piece. -/
theorem map_trim_splitOn (t : Text) :
    (t.splitOn '\n').map trim = (lines t).map trim ∨
      (t.splitOn '\n').map trim = (lines t).map trim ++ [[]] := by
  obtain ⟨front, last, equality⟩ :=
    (List.eq_nil_or_concat' (t.splitOn '\n')).resolve_left (List.splitOn_ne_nil '\n' t)
  have trims : front.map (trim ∘ dropReturn) = front.map trim :=
    List.map_congr_left fun line _ => trim_dropReturn line
  by_cases empty : last = []
  · right
    simp [lines, equality, empty, trims]
  · left
    simp [lines, equality, empty, trims]

/-! ### What a reader sees -/

/-- The lines of a text that are not blank, each trimmed. -/
def visibleLines (t : Text) : List Text := ((lines t).map trim).filter (· ≠ [])

theorem visibleLines_eq_splitOn (t : Text) :
    visibleLines t = ((t.splitOn '\n').map trim).filter (· ≠ []) := by
  unfold visibleLines
  rcases map_trim_splitOn t with same | extra
  · rw [same]
  · rw [extra]
    simp

@[simp] theorem visibleLines_nil : visibleLines [] = [] := rfl

theorem visibleLines_append_newline (s t : Text) :
    visibleLines (s ++ '\n' :: t) = visibleLines s ++ visibleLines t := by
  simp only [visibleLines_eq_splitOn, List.splitOn_append_cons_self, List.map_append,
    List.filter_append]

/-- White space at the end of a text shows nothing. -/
theorem visibleLines_append_blank (t : Text) {w : Text} (blank : Blank w) :
    visibleLines (t ++ w) = visibleLines t := by
  induction w using List.reverseRecOn with
  | nil => rw [List.append_nil]
  | append_singleton w c inductionHypothesis =>
      obtain ⟨blankFront, blankLast⟩ := (blank_append w [c]).mp blank
      rw [← List.append_assoc, ← inductionHypothesis blankFront]
      by_cases newline : c = '\n'
      · rw [newline, visibleLines_append_newline, visibleLines_nil, List.append_nil]
      · obtain ⟨front, last, pieces, longer⟩ :=
          splitOn_append_of_not_mem (t ++ w) (s := [c]) (by simpa using Ne.symm newline)
        have same : trim (last ++ [c]) = trim last := trim_append_of_blank last blankLast
        simp only [visibleLines_eq_splitOn, pieces, longer, List.map_append, List.map_cons,
          List.map_nil, same]

/-- White space at the start of a text shows nothing. -/
theorem visibleLines_blank_append {w : Text} (blank : Blank w) (t : Text) :
    visibleLines (w ++ t) = visibleLines t := by
  induction w with
  | nil => rfl
  | cons c w inductionHypothesis =>
      obtain ⟨space, blankRest⟩ := (blank_cons c w).mp blank
      rw [← inductionHypothesis blankRest, List.cons_append]
      by_cases newline : c = '\n'
      · rw [newline]
        exact visibleLines_append_newline [] (w ++ t)
      · obtain ⟨first, rest, pieces⟩ :=
          List.exists_cons_of_ne_nil (List.splitOn_ne_nil '\n' (w ++ t))
        have same : trim (c :: first) = trim first :=
          trim_append_blank_left (w := [c]) (by simpa using space) first
        simp [visibleLines_eq_splitOn, List.splitOn_cons_eq_if_modifyHead, newline, pieces, same]

theorem visibleLines_trimEnd (t : Text) : visibleLines (trimEnd t) = visibleLines t := by
  have split : t = trimEnd t ++ t.rtakeWhile isWhitespace :=
    List.rdropWhile_append_rtakeWhile.symm
  conv_rhs => rw [split]
  exact (visibleLines_append_blank _ fun c membership => List.mem_rtakeWhile_imp membership).symm

theorem visibleLines_of_blank {t : Text} (blank : Blank t) : visibleLines t = [] :=
  visibleLines_append_blank [] blank

end SmartDnsPlusUi.Text
