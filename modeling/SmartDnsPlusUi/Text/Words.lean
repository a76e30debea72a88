import SmartDnsPlusUi.Text.Count
import SmartDnsPlusUi.Text.Lines

/-!
# Words of a line

Words written with a space between them are read back as the same words, and
what holds of the ends of such a line is decided by its first and last word.
-/

namespace SmartDnsPlusUi.Text

theorem join_cons_of_ne_nil (separator first : Text) {rest : List Text} (nonempty : rest ≠ []) :
    join separator (first :: rest) = first ++ separator ++ join separator rest := by
  rw [join, join, List.intercalate_cons_of_ne_nil nonempty]

@[simp] theorem join_singleton (separator word : Text) : join separator [word] = word := by
  simp [join]

theorem join_space_cons (first : Text) {rest : List Text} (nonempty : rest ≠ []) :
    join [' '] (first :: rest) = first ++ ' ' :: join [' '] rest := by
  rw [join_cons_of_ne_nil _ _ nonempty]
  simp

theorem join_append_of_ne_nil (separator : Text) {first rest : List Text} (nonempty : first ≠ [])
    (nonempty' : rest ≠ []) :
    join separator (first ++ rest) = join separator first ++ separator ++ join separator rest := by
  induction first with
  | nil => exact absurd rfl nonempty
  | cons word first inductionHypothesis =>
      by_cases last : first = []
      · simp [last, join_cons_of_ne_nil _ _ nonempty']
      · rw [List.cons_append, join_cons_of_ne_nil _ _ (by simp [last]),
          join_cons_of_ne_nil _ _ last, inductionHypothesis last]
        simp

theorem splitOn_of_not_mem {entry : Text} {separator : Char} (absent : separator ∉ entry) :
    entry.splitOn separator = [entry] := by
  have single : (join [separator] [entry]).splitOn separator = [entry] :=
    List.splitOn_intercalate separator (by simpa using absent) (by simp)
  rwa [join_singleton] at single

/-- Lines that are joined are read again. -/
theorem lines_join {ls : List Text}
    (full : ∀ line ∈ ls, Trimmed line ∧ line ≠ [] ∧ '\n' ∉ line) :
    lines (join ['\n'] ls) = ls := by
  rcases List.eq_nil_or_concat' ls with rfl | ⟨front, last, rfl⟩
  · rfl
  · simp only [List.mem_append, List.mem_singleton, or_imp, forall_and, forall_eq] at full
    obtain ⟨⟨trimmed, -⟩, ⟨-, nonempty⟩, free, free'⟩ := full
    have single : last.splitOn '\n' = [last] := splitOn_of_not_mem free'
    have kept : front.map dropReturn = front := by
      conv_rhs => rw [← List.map_id front]
      exact List.map_congr_left fun line membership => dropReturn_of_trimmed (trimmed line membership)
    rw [join_append_singleton, lines_unlines_append free, kept]
    simp [lines, single, nonempty]
/-- Joining what was joined from pieces. -/
theorem join_map_join (separator : Text) {parts : List (List Text)}
    (nonempty : ∀ part ∈ parts, part ≠ []) :
    join separator (parts.map (join separator)) = join separator parts.flatten := by
  induction parts with
  | nil => rfl
  | cons part parts inductionHypothesis =>
      simp only [List.mem_cons, forall_eq_or_imp] at nonempty
      by_cases last : parts = []
      · simp [last]
      · have flat : parts.flatten ≠ [] := by
          obtain ⟨next, rest, rfl⟩ := List.exists_cons_of_ne_nil last
          simp [nonempty.2 next (by simp)]
        rw [List.map_cons, join_cons_of_ne_nil _ _ (by simpa using last),
          inductionHypothesis nonempty.2, List.flatten_cons,
          join_append_of_ne_nil _ nonempty.1 flat]

variable {words : List Text}

theorem join_full_ne_nil (separator : Text) (full : ∀ word ∈ words, word ≠ [])
    (nonempty : words ≠ []) : join separator words ≠ [] := by
  obtain ⟨first, rest, rfl⟩ := List.exists_cons_of_ne_nil nonempty
  have head := full first List.mem_cons_self
  by_cases last : rest = []
  · simpa [last] using head
  · simp [join_cons_of_ne_nil _ _ last, head]

theorem trimmed_join_space (full : ∀ word ∈ words, word ≠ [])
    (trimmed : ∀ word ∈ words, Trimmed word) : Trimmed (join [' '] words) := by
  induction words with
  | nil => exact trimmed_nil
  | cons first rest inductionHypothesis =>
      simp only [List.mem_cons, forall_eq_or_imp] at full trimmed
      by_cases last : rest = []
      · simpa [last] using trimmed.1
      · rw [join_space_cons _ last]
        have whole := trimmed.1.append (inductionHypothesis full.2 trimmed.2) [' '] full.1
          (join_full_ne_nil _ full.2 last)
        simpa using whole

/-- Joining keeps the words of the parts. -/
theorem splitWhitespace_join_space (parts : List Text) :
    splitWhitespace (join [' '] parts) = parts.flatMap splitWhitespace := by
  induction parts with
  | nil => rfl
  | cons first rest inductionHypothesis =>
      rw [List.flatMap_cons]
      by_cases last : rest = []
      · simp [last]
      · rw [join_space_cons _ last, splitWhitespace_append_cons _ _ isWhitespace_space,
          inductionHypothesis]

theorem join_ne_nil (tokens : ∀ word ∈ words, IsToken word) (nonempty : words ≠ []) :
    join [' '] words ≠ [] :=
  join_full_ne_nil _ (fun word membership => (tokens word membership).1) nonempty

theorem trimmed_join (tokens : ∀ word ∈ words, IsToken word) : Trimmed (join [' '] words) :=
  trimmed_join_space (fun word membership => (tokens word membership).1)
    fun word membership => (tokens word membership).trimmed

theorem splitWhitespace_join (tokens : ∀ word ∈ words, IsToken word) :
    splitWhitespace (join [' '] words) = words := by
  rw [splitWhitespace_join_space]
  exact (List.flatMap_congr fun word membership =>
    splitWhitespace_of_token (tokens word membership)).trans (List.flatMap_singleton' words)

/-- Whether the last word ends in the character, if there is a word. -/
def lastEndsWith (suffix : Char) (words : List Text) : Option Bool :=
  words.getLast?.map (endsWith suffix)

theorem lastEndsWith_append (suffix : Char) (words rest : List Text) :
    lastEndsWith suffix (words ++ rest) =
      (lastEndsWith suffix rest).or (lastEndsWith suffix words) := by
  simp only [lastEndsWith, List.getLast?_append]
  cases rest.getLast? <;> rfl

theorem endsWith_join (tokens : ∀ word ∈ words, IsToken word) (suffix : Char) :
    endsWith suffix (join [' '] words) = (lastEndsWith suffix words).getD false := by
  induction words with
  | nil => rfl
  | cons first rest inductionHypothesis =>
      simp only [List.mem_cons, forall_eq_or_imp] at tokens
      by_cases last : rest = []
      · simp [last, lastEndsWith]
      · rw [join_space_cons _ last, ← List.singleton_append, ← List.append_assoc,
          endsWith_append _ _ (join_ne_nil tokens.2 last), inductionHypothesis tokens.2,
          lastEndsWith, lastEndsWith, List.getLast?_cons_of_ne_nil last]

theorem count_join {pattern : Char} (noSpace : pattern ≠ ' ') (words : List Text) :
    (join [' '] words).count pattern = countIn pattern words := by
  induction words with
  | nil => rfl
  | cons first rest inductionHypothesis =>
      by_cases last : rest = []
      · simp [last]
      · rw [join_space_cons _ last]
        simp [inductionHypothesis, Ne.symm noSpace]

theorem not_mem_join {c : Char} (noSpace : c ≠ ' ') (absent : ∀ word ∈ words, c ∉ word) :
    c ∉ join [' '] words := by
  induction words with
  | nil => simp [join]
  | cons first rest inductionHypothesis =>
      simp only [List.mem_cons, forall_eq_or_imp] at absent
      by_cases last : rest = []
      · simpa [last] using absent.1
      · rw [join_space_cons _ last]
        simp [absent.1, noSpace, inductionHypothesis absent.2]

end SmartDnsPlusUi.Text
