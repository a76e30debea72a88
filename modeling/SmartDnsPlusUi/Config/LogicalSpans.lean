import SmartDnsPlusUi.Config.LogicalLines
import SmartDnsPlusUi.Table.Spans
import SmartDnsPlusUi.Text.Words

/-!
# What a logical line is made of

The lines of a text that are not comments are cut behind each line that no backslash
continues.  Every span is merged to one logical line, without the backslashes that continue
its lines, and so no word is lost, added or moved.
-/

namespace SmartDnsPlusUi

open Text Table

def IsComment (line : Text) : Prop := (trim line).head? = some '#'

instance : DecidablePred IsComment := fun _ => inferInstanceAs (Decidable (_ = _))

def physicalLines (text : Text) : List Text := (lines text).filter fun line => ¬ IsComment line

/-- The line without the run of backslashes that it ends in, up to white space behind it. -/
def withoutBackslashes (line : Text) : Text := trimEndMatches '\\' (trimEnd line)

def mergeSpan (span : List Text) : Text :=
  join [' '] ((span.map fun line => trim (withoutBackslashes line)).filter (· ≠ []))

/-! ### Merging one more line -/

theorem mergeSpan_nil : mergeSpan [] = [] := rfl

theorem full_of_mem_pieces {span : List Text} : ∀ piece ∈ (span.map fun line =>
    trim (withoutBackslashes line)).filter (· ≠ []), piece ≠ [] := by
  intro piece membership
  exact of_decide_eq_true (List.mem_filter.mp membership).2

theorem trimmed_mergeSpan (span : List Text) : Trimmed (mergeSpan span) := by
  apply trimmed_join_space
  · exact full_of_mem_pieces
  · intro piece membership
    obtain ⟨line, -, rfl⟩ := List.mem_map.mp (List.mem_filter.mp membership).1
    exact trimmed_trim _

theorem mergeSpan_concat (run : List Text) (line : Text) :
    mergeSpan (run ++ [line]) =
      if trim (withoutBackslashes line) = [] then mergeSpan run
      else appendPiece (mergeSpan run) (trim (withoutBackslashes line)) := by
  unfold mergeSpan
  rw [List.map_append, List.filter_append, List.map_singleton]
  by_cases empty : trim (withoutBackslashes line) = []
  · rw [if_pos empty, empty, List.filter_cons_of_neg (by simp), List.filter_nil,
      List.append_nil]
  · rw [if_neg empty, List.filter_cons_of_pos (by simpa using empty), List.filter_nil, appendPiece]
    generalize pieces : (run.map fun line => trim (withoutBackslashes line)).filter (· ≠ []) = parts
    by_cases first : parts = []
    · rw [first, List.nil_append, join_singleton]
      rfl
    · have started : join [' '] parts ≠ [] := by
        subst pieces
        exact join_full_ne_nil _ full_of_mem_pieces first
      rw [if_neg started, join_append_of_ne_nil _ first (List.cons_ne_nil _ _), join_singleton,
        List.append_assoc, List.singleton_append]

theorem splitWhitespace_mergeSpan (span : List Text) :
    splitWhitespace (mergeSpan span) =
      span.flatMap fun line => splitWhitespace (withoutBackslashes line) := by
  rw [mergeSpan, splitWhitespace_join_space]
  induction span with
  | nil => rfl
  | cons line span inductionHypothesis =>
      rw [List.map_cons, List.flatMap_cons, ← splitWhitespace_trim (withoutBackslashes line)]
      by_cases empty : trim (withoutBackslashes line) = []
      · rw [List.filter_cons_of_neg (by simpa using empty), inductionHypothesis, empty]
        rfl
      · rw [List.filter_cons_of_pos (by simpa using empty), List.flatMap_cons,
          inductionHypothesis]

/-! ### The loop -/

theorem withoutBackslashes_of_not_endsWith {line : Text}
    (plain : ¬ endsWith '\\' (trimEnd line) = true) : withoutBackslashes line = trimEnd line := by
  rw [withoutBackslashes, trimEndMatches, List.rdropWhile_eq_self_iff]
  intro nonempty last
  rw [endsWith, List.getLast?_eq_getLast_of_ne_nil nonempty] at plain
  exact plain (by simpa using last)

/-- What each kind of line adds to the span that it stands in. -/
theorem lineKind_adds (rawLine : Text) :
    match lineKind rawLine with
    | .comment => IsComment rawLine
    | .continued piece => ¬ IsComment rawLine ∧ Continues rawLine ∧
        (piece = [] ↔ trim (withoutBackslashes rawLine) = []) ∧
        trim piece = trim (withoutBackslashes rawLine)
    | .content trimmed => ¬ IsComment rawLine ∧ ¬ Continues rawLine ∧
        trim (withoutBackslashes rawLine) ≠ [] ∧ trimmed = trim (withoutBackslashes rawLine)
    | .blank => ¬ IsComment rawLine ∧ ¬ Continues rawLine ∧
        trim (withoutBackslashes rawLine) = [] := by
  rw [lineKind]
  simp only [trim_trimEnd]
  by_cases comment : (trim rawLine).head? = some '#'
  · rw [if_pos comment]
    exact comment
  rw [if_neg comment]
  by_cases ends : endsWith '\\' (trimEnd rawLine) = true
  · rw [if_pos ends]
    have trims : trim (pieceOf (trimEnd rawLine)) = trim (withoutBackslashes rawLine) := by
      rw [pieceOf, trim_trimEnd, withoutBackslashes]
    refine ⟨comment, ⟨comment, ?_⟩, ?_, trims⟩
    · rwa [endsWith_trim]
    · rw [← trims, trim_pieceOf_eq_nil_iff]
  · have stops : ¬ Continues rawLine := by
      rw [Continues, endsWith_trim]
      exact fun continues => ends continues.2
    have whole : trim (withoutBackslashes rawLine) = trim rawLine := by
      rw [withoutBackslashes_of_not_endsWith ends, trim_trimEnd]
    rw [if_neg ends, whole]
    by_cases empty : trim rawLine = []
    · rw [if_neg (not_not_intro empty)]
      exact ⟨comment, stops, empty⟩
    · rw [if_pos empty]
      exact ⟨comment, stops, empty, rfl⟩

/-- The line being merged is the merge of the span that is open, through any mix of lines. -/
theorem mergeLines_eq (ls run : List Text) :
    mergeLines (mergeSpan run) ls =
      ((spansFrom Continues run (ls.filter fun line => ¬ IsComment line)).map mergeSpan).filter
        (· ≠ []) := by
  induction ls generalizing run with
  | nil =>
      rw [List.filter_nil, spansFrom, List.map_singleton, mergeLines, flush,
        trim_eq_self (trimmed_mergeSpan run)]
      by_cases empty : mergeSpan run = [] <;> simp [empty]
  | cons rawLine ls inductionHypothesis =>
      have adds := lineKind_adds rawLine
      rw [mergeLines]
      cases kind : lineKind rawLine with
      | comment =>
          rw [kind] at adds
          rw [List.filter_cons_of_neg (by simpa using adds)]
          exact inductionHypothesis run
      | continued piece =>
          rw [kind] at adds
          obtain ⟨counts, continues, gone, trims⟩ := adds
          rw [List.filter_cons_of_pos (by simpa using counts), spansFrom, if_pos continues,
            ← inductionHypothesis, mergeSpan_concat]
          simp only [gone, trims]
          split <;> rfl
      | content trimmed =>
          rw [kind] at adds
          obtain ⟨counts, stops, full, rfl⟩ := adds
          have merged := mergeSpan_concat run rawLine
          rw [if_neg full, appendPiece] at merged
          have later := inductionHypothesis []
          rw [mergeSpan_nil] at later
          rw [List.filter_cons_of_pos (by simpa using counts), spansFrom, if_neg stops,
            List.map_cons, later]
          by_cases first : mergeSpan run = []
          · rw [if_pos first] at merged
            rw [merged, List.filter_cons_of_pos (by simpa using full)]
            simp only [first, if_true]
          · rw [if_neg first] at merged
            rw [merged, List.filter_cons_of_pos (by simp)]
            simp only [first, if_false]
            rw [← merged, trim_eq_self (trimmed_mergeSpan _)]
      | blank =>
          rw [kind] at adds
          obtain ⟨counts, stops, empty⟩ := adds
          have later := inductionHypothesis []
          rw [mergeSpan_nil] at later
          rw [List.filter_cons_of_pos (by simpa using counts), spansFrom, if_neg stops,
            List.map_cons, mergeSpan_concat, if_pos empty, List.filter_cons]
          simp only [later, flush, trim_eq_self (trimmed_mergeSpan run)]
          by_cases none : mergeSpan run = [] <;> simp [none]

theorem logicalLines_eq_spans (text : Text) :
    ∃ closed last, IsCut Continues (physicalLines text) closed last ∧
      logicalLines text = ((closed ++ [last]).map mergeSpan).filter (· ≠ []) := by
  obtain ⟨closed, last, spans, cut⟩ :=
    @isCut_spansFrom _ Continues _ (physicalLines text) [] nofun
  refine ⟨closed, last, cut, ?_⟩
  rw [← spans]
  exact mergeLines_eq (lines text) []

theorem flatMap_splitWhitespace_filter (parts : List Text) :
    (parts.filter (· ≠ [])).flatMap splitWhitespace = parts.flatMap splitWhitespace := by
  induction parts with
  | nil => rfl
  | cons part parts inductionHypothesis =>
      rw [List.flatMap_cons, ← inductionHypothesis, List.filter_cons]
      by_cases empty : part = [] <;> simp [empty]

theorem flatMap_splitWhitespace_logicalLines (text : Text) :
    (logicalLines text).flatMap splitWhitespace =
      (physicalLines text).flatMap fun line => splitWhitespace (withoutBackslashes line) := by
  obtain ⟨closed, last, cut, merged⟩ := logicalLines_eq_spans text
  have whole : (closed ++ [last]).flatten = physicalLines text := by
    rw [List.flatten_append, List.flatten_singleton]
    exact cut.flatten
  rw [merged, flatMap_splitWhitespace_filter, List.flatMap_map, ← whole,
    List.flatten_eq_flatMap, List.flatMap_assoc]
  exact List.flatMap_congr fun span _ => splitWhitespace_mergeSpan span

/-- For every text: the words of the logical lines are those of the lines that are not
comments, without the backslashes that the lines end in; every logical line is the merge of a
longest run of continued lines with the line that ends it, if one does; and it is not empty,
trimmed and free of line feeds. -/
theorem logicalLines_exact (text : Text) :
    (logicalLines text).flatMap splitWhitespace =
        (physicalLines text).flatMap (fun line => splitWhitespace (withoutBackslashes line)) ∧
      (∃ closed last, IsCut Continues (physicalLines text) closed last ∧
        logicalLines text = ((closed ++ [last]).map mergeSpan).filter (· ≠ [])) ∧
      ∀ line ∈ logicalLines text, line ≠ [] ∧ Trimmed line ∧ '\n' ∉ line := by
  refine ⟨flatMap_splitWhitespace_logicalLines text, logicalLines_eq_spans text, ?_⟩
  intro line membership
  have logical := isLogical_of_mem membership
  exact ⟨logical.nonempty, logical.trimmed, not_mem_of_mem_logicalLines membership⟩

end SmartDnsPlusUi
