import SmartDnsPlusUi.Text.Lines

/-!
# Logical lines and directives

Every reader of a configuration text goes through `logicalLines`, which merges
continued lines and skips comments, and splits each logical line into a keyword
and an argument.
-/

namespace SmartDnsPlusUi

open Text

/-- What `logical_lines` makes of one physical line. -/
inductive LineKind where
  | comment
  | continued (piece : Text)
  | content (line : Text)
  | blank
  deriving DecidableEq

/-- What is left of a continued line before its run of backslashes. -/
def pieceOf (line : Text) : Text := trimEnd (trimEndMatches '\\' line)

def lineKind (rawLine : Text) : LineKind :=
  let trimmedEnd := trimEnd rawLine
  let trimmed := trim trimmedEnd
  if trimmed.head? = some '#' then .comment
  else if endsWith '\\' trimmedEnd then .continued (pieceOf trimmedEnd)
  else if trimmed ≠ [] then .content trimmed
  else .blank

/-- The pieces merged so far, pushed as one line unless there are none. -/
def flush (current : Text) : List Text := if current = [] then [] else [trim current]

/-- Add one piece of a continued line to the ones before it. -/
def appendPiece (current piece : Text) : Text :=
  if current = [] then piece else current ++ ' ' :: piece

/-- The loop of `logical_lines`; `current` holds the pieces of the line being
continued. -/
def mergeLines (current : Text) : List Text → List Text
  | [] => flush current
  | rawLine :: rest =>
      match lineKind rawLine with
      | .comment => mergeLines current rest
      | .continued piece =>
          if piece = [] then mergeLines current rest
          else mergeLines (appendPiece current (trim piece)) rest
      | .content trimmed =>
          if current = [] then trimmed :: mergeLines [] rest
          else trim (current ++ ' ' :: trimmed) :: mergeLines [] rest
      | .blank => flush current ++ mergeLines [] rest

def logicalLines (text : Text) : List Text := mergeLines [] (lines text)

/-- A keyword and its argument. -/
structure Directive where
  key : String
  value : Text
  deriving DecidableEq

/-- `splitn(2, char::is_whitespace)` of a trimmed line, both parts trimmed. -/
def splitDirective (line : Text) : Directive :=
  let parts := splitFirst (trim line)
  ⟨String.ofList (trim parts.1), trim parts.2⟩

/-- The header of every parser's loop: skip empty lines and comments, split the
others. -/
def directives (text : Text) : List Directive :=
  ((logicalLines text).filter fun line =>
    trim line ≠ [] ∧ (trim line).head? ≠ some '#').map splitDirective

/-! ### Merging -/

theorem mergeLines_append_blank (current : Text) (ls : List Text) {b : Text}
    (blank : lineKind b = .blank) (rest : List Text) :
    mergeLines current (ls ++ b :: rest) = mergeLines current ls ++ mergeLines [] rest := by
  induction ls generalizing current with
  | nil => simp [mergeLines, blank]
  | cons line ls inductionHypothesis =>
      simp only [List.cons_append, mergeLines]
      cases lineKind line with
      | comment => exact inductionHypothesis current
      | continued piece =>
          by_cases empty : piece = []
          · simpa [empty] using inductionHypothesis current
          · simpa [empty] using inductionHypothesis _
      | content trimmed =>
          by_cases empty : current = [] <;> simp [empty, inductionHypothesis]
      | blank => simp [inductionHypothesis]

theorem mergeLines_append_comment (current : Text) (ls : List Text) {b : Text}
    (comment : lineKind b = .comment) (rest : List Text) :
    mergeLines current (ls ++ b :: rest) = mergeLines current (ls ++ rest) := by
  induction ls generalizing current with
  | nil => simp [mergeLines, comment]
  | cons line ls inductionHypothesis =>
      simp only [List.cons_append, mergeLines]
      cases lineKind line <;> simp [inductionHypothesis]

@[simp] theorem lineKind_nil : lineKind [] = .blank := rfl

theorem mergeLines_append_nil (current : Text) (ls : List Text) :
    mergeLines current (ls ++ [[]]) = mergeLines current ls := by
  rw [mergeLines_append_blank current ls lineKind_nil]
  simp [mergeLines, flush]

/-- The kind of a line depends on the line only up to white space around it. -/
theorem lineKind_trim (line : Text) :
    lineKind (trim line) =
      match lineKind line with
      | .continued piece => .continued (trim piece)
      | other => other := by
  obtain ⟨margin, rest, before, after, equality⟩ := trim_split line
  generalize core : trim line = inner at equality
  have trimmed : Trimmed inner := core ▸ trimmed_trim line
  by_cases empty : inner = []
  · have none : trimEnd line = [] := by
      rw [trimEnd_eq_nil_iff, equality, empty]
      simp [before, after]
    simp [lineKind, none, empty, endsWith]
  · have whole : trimEnd line = margin ++ inner := by
      rw [equality, trimEnd_append_of_blank _ after, trimEnd_append_of_trimmed _ trimmed empty]
    have own : trimEnd inner = inner := by simpa using trimEnd_append_of_trimmed [] trimmed empty
    have trims : trim (margin ++ inner) = inner := by
      rw [trim_append_blank_left before, trim_eq_self trimmed]
    have ends : endsWith '\\' (margin ++ inner) = endsWith '\\' inner := by
      rw [endsWith, endsWith, List.getLast?_append_of_ne_nil _ empty]
    have piece : trim (pieceOf (margin ++ inner)) = pieceOf inner := by
      rw [pieceOf, trim_trimEnd, trimEndMatches, rdropWhile_append]
      by_cases gone : inner.rdropWhile (· == '\\') = []
      · have blank : Blank (margin.rdropWhile (· == '\\')) := fun c membership =>
          before c ((List.rdropWhile_prefix _ _).subset membership)
        simp only [gone, if_true, pieceOf, trimEndMatches, trimEnd_nil]
        exact (trim_eq_nil_iff _).mpr blank
      · have head : ∀ c ∈ (inner.rdropWhile (· == '\\')).head?, isWhitespace c = false := by
          obtain ⟨tail, split⟩ := List.rdropWhile_prefix (· == '\\') inner
          intro c membership
          apply trimmed.1 c
          rw [← split, List.head?_append]
          simp_all
        simp only [gone, if_false, trim_append_blank_left before, pieceOf, trimEndMatches]
        rw [trim, trimStart_of_head head]
    simp only [lineKind, whole, own, trims, ends, trim_eq_self trimmed]
    by_cases comment : inner.head? = some '#'
    · simp [comment]
    · by_cases continued : endsWith '\\' inner = true
      · simp [comment, continued, piece]
      · simp [comment, continued, empty]

theorem trim_pieceOf_eq_nil_iff (line : Text) : trim (pieceOf line) = [] ↔ pieceOf line = [] := by
  rw [pieceOf, trim_trimEnd, trim_eq_nil_iff, trimEnd_eq_nil_iff]

theorem piece_of_lineKind {line piece : Text} (kind : lineKind line = .continued piece) :
    piece = pieceOf (trimEnd line) := by
  simp only [lineKind] at kind
  split at kind
  · simp at kind
  · split at kind
    · exact (LineKind.continued.inj kind).symm
    · split at kind <;> simp at kind

theorem mergeLines_map_trim (current : Text) (ls : List Text) :
    mergeLines current (ls.map trim) = mergeLines current ls := by
  induction ls generalizing current with
  | nil => rfl
  | cons line ls inductionHypothesis =>
      simp only [List.map_cons, mergeLines, lineKind_trim]
      cases kind : lineKind line with
      | comment => exact inductionHypothesis current
      | continued piece =>
          have noMargin : trim piece = [] ↔ piece = [] := by
            rw [piece_of_lineKind kind]
            exact trim_pieceOf_eq_nil_iff _
          simp [noMargin, inductionHypothesis]
      | content trimmed => simp [inductionHypothesis]
      | blank => simp [inductionHypothesis]

/-- Only the pieces between line feeds matter, up to white space around them. -/
theorem logicalLines_eq (text : Text) :
    logicalLines text = mergeLines [] ((text.splitOn '\n').map trim) := by
  rw [logicalLines, ← mergeLines_map_trim]
  rcases map_trim_splitOn text with same | extra
  · rw [same]
  · rw [extra, mergeLines_append_nil]

theorem logicalLines_eq_splitOn (text : Text) :
    logicalLines text = mergeLines [] (text.splitOn '\n') := by
  rw [logicalLines_eq, mergeLines_map_trim]

theorem logicalLines_join {ls : List Text} (free : ∀ line ∈ ls, '\n' ∉ line) :
    logicalLines (join ['\n'] ls) = mergeLines [] ls := by
  cases ls with
  | nil => rfl
  | cons line ls =>
      rw [logicalLines_eq_splitOn, join, List.splitOn_intercalate '\n' free (by simp)]

theorem logicalLines_cons_of_space {c : Char} (space : isWhitespace c = true) (text : Text) :
    logicalLines (c :: text) = logicalLines text := by
  rw [logicalLines_eq, logicalLines_eq, List.splitOn_cons_eq_if_modifyHead]
  by_cases newline : c = '\n'
  · simp [newline, mergeLines, flush]
  · obtain ⟨head, tail, equality⟩ := List.exists_cons_of_ne_nil (List.splitOn_ne_nil '\n' text)
    have margin : trim (c :: head) = trim head :=
      trim_append_blank_left (w := [c]) (by simp [space]) head
    simp [newline, equality, margin]

theorem logicalLines_append_space (text : Text) {c : Char} (space : isWhitespace c = true) :
    logicalLines (text ++ [c]) = logicalLines text := by
  rw [logicalLines_eq, logicalLines_eq]
  by_cases newline : c = '\n'
  · rw [newline, List.splitOn_append_cons_self]
    simp [mergeLines_append_nil]
  · obtain ⟨front, last, equality, longer⟩ := splitOn_append_of_not_mem text (s := [c])
      (by simpa using Ne.symm newline)
    have margin : trim (last ++ [c]) = trim last := trim_append_of_blank _ (by simp [space])
    simp [equality, longer, margin]

theorem logicalLines_trim (text : Text) : logicalLines (trim text) = logicalLines text := by
  obtain ⟨a, b, before, after, equality⟩ := trim_split text
  have starts : ∀ w : Text, Blank w → ∀ t, logicalLines (w ++ t) = logicalLines t := by
    intro w blank t
    induction w with
    | nil => rfl
    | cons c w inductionHypothesis =>
        rw [blank_cons] at blank
        rw [List.cons_append, logicalLines_cons_of_space blank.1, inductionHypothesis blank.2]
  have ends : ∀ w : Text, Blank w → ∀ t, logicalLines (t ++ w) = logicalLines t := by
    intro w blank t
    induction w using List.reverseRecOn with
    | nil => simp
    | append_singleton w c inductionHypothesis =>
        simp only [blank_append, blank_cons, blank_nil, and_true] at blank
        rw [← List.append_assoc, logicalLines_append_space _ blank.2, inductionHypothesis blank.1]
  conv_rhs => rw [equality, ends b after, starts a before]

/-- An empty line ends whatever was being continued. -/
theorem logicalLines_append_gap (s t : Text) :
    logicalLines (s ++ '\n' :: '\n' :: t) = logicalLines s ++ logicalLines t := by
  simp only [logicalLines_eq_splitOn]
  have gap : List.splitOn '\n' ('\n' :: t) = [] :: List.splitOn '\n' t := by
    simp [List.splitOn_cons_eq_if_modifyHead]
  rw [List.splitOn_append_cons_self, gap, mergeLines_append_blank _ _ lineKind_nil]

end SmartDnsPlusUi
