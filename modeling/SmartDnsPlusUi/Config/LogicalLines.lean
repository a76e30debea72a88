import SmartDnsPlusUi.Config.Directive
import SmartDnsPlusUi.Text.Count

/-!
# What merging does to the lines of a text

Lines that no backslash continues are passed on trimmed, comments and empty
lines left out.  Every line produced is trimmed, nonempty and no comment.  A
continuation drops at least one backslash, so counting backslashes bounds what
a text with continued lines can yield.
-/

namespace SmartDnsPlusUi

open Text

/-- The lines that are neither empty nor comments, trimmed. -/
def contentLines (ls : List Text) : List Text :=
  (ls.map trim).filter fun line => line ≠ [] ∧ line.head? ≠ some '#'

/-- The line goes on in the next one. -/
def Continues (line : Text) : Prop :=
  (trim line).head? ≠ some '#' ∧ endsWith '\\' (trim line) = true

instance (line : Text) : Decidable (Continues line) := inferInstanceAs (Decidable (_ ∧ _))

/-- The shape of a logical line. -/
structure IsLogical (line : Text) : Prop where
  trimmed : Trimmed line
  nonempty : line ≠ []
  no_comment : line.head? ≠ some '#'

@[simp] theorem contentLines_nil : contentLines [] = [] := rfl

theorem contentLines_append (ls rest : List Text) :
    contentLines (ls ++ rest) = contentLines ls ++ contentLines rest := by
  simp [contentLines]

theorem contentLines_flatMap {Item : Type} (items : List Item) (f : Item → List Text) :
    contentLines (items.flatMap f) = items.flatMap fun item => contentLines (f item) := by
  induction items with
  | nil => rfl
  | cons item items inductionHypothesis =>
      rw [List.flatMap_cons, contentLines_append, inductionHypothesis, List.flatMap_cons]

theorem contentLines_cons (line : Text) (ls : List Text) :
    contentLines (line :: ls) = contentLines [line] ++ contentLines ls :=
  contentLines_append [line] ls

theorem contentLines_map_trim (ls : List Text) : contentLines (ls.map trim) = contentLines ls := by
  simp [contentLines, Function.comp_def]

theorem continues_trim (line : Text) : Continues (trim line) ↔ Continues line := by
  simp [Continues]

theorem lineKind_of_trimmed {line : Text} (trimmed : Trimmed line) :
    lineKind line =
      if line.head? = some '#' then .comment
      else if endsWith '\\' line then .continued (pieceOf line)
      else if line ≠ [] then .content line
      else .blank := by
  simp only [lineKind, trimEnd_of_last trimmed.2, trim_eq_self trimmed]

/-- The four kinds, each with what it says about a trimmed line. -/
theorem lineKind_cases {line : Text} (trimmed : Trimmed line) :
    (lineKind line = .comment ∧ line.head? = some '#') ∨
      (lineKind line = .continued (pieceOf line) ∧ Continues line) ∨
      (lineKind line = .content line ∧ IsLogical line ∧ ¬ Continues line) ∨
      (lineKind line = .blank ∧ line = []) := by
  rw [lineKind_of_trimmed trimmed]
  by_cases comment : line.head? = some '#'
  · exact .inl ⟨by simp [comment], comment⟩
  by_cases ends : endsWith '\\' line = true
  · exact .inr (.inl ⟨by simp [comment, ends], by simp [Continues, trim_eq_self trimmed, comment, ends]⟩)
  by_cases empty : line = []
  · exact .inr (.inr (.inr ⟨by simp [empty, endsWith], empty⟩))
  · refine .inr (.inr (.inl ⟨by simp [comment, ends, empty], ⟨trimmed, empty, comment⟩, ?_⟩))
    exact fun continues => ends (trim_eq_self trimmed ▸ continues.2)

/-- What the kind of a line says about the trimmed line. -/
theorem lineKind_spec (raw : Text) :
    match lineKind raw with
    | .comment => (trim raw).head? = some '#'
    | .continued piece => trim piece = pieceOf (trim raw) ∧ Continues raw
    | .content line => line = trim raw ∧ IsLogical line
    | .blank => trim raw = [] := by
  have own := lineKind_trim raw
  rcases lineKind_cases (trimmed_trim raw) with
    ⟨kind, comment⟩ | ⟨kind, continues⟩ | ⟨kind, logical, -⟩ | ⟨kind, empty⟩
  all_goals
    rw [kind] at own
    cases raws : lineKind raw <;> simp only [raws, reduceCtorEq] at own
  · exact comment
  · exact ⟨(LineKind.continued.inj own).symm, (continues_trim raw).mp continues⟩
  · exact ⟨(LineKind.content.inj own).symm, LineKind.content.inj own ▸ logical⟩
  · exact empty

theorem mergeLines_of_not_continues {ls : List Text} (plain : ∀ line ∈ ls, ¬ Continues line) :
    mergeLines [] ls = contentLines ls := by
  rw [← mergeLines_map_trim, ← contentLines_map_trim]
  induction ls with
  | nil => rfl
  | cons line ls inductionHypothesis =>
      simp only [List.mem_cons, forall_eq_or_imp] at plain
      have tail := inductionHypothesis plain.2
      rw [List.map_cons, contentLines_cons, mergeLines]
      rcases lineKind_cases (trimmed_trim line) with
        ⟨kind, comment⟩ | ⟨-, continues⟩ | ⟨kind, logical, -⟩ | ⟨kind, empty⟩
      · simp [kind, contentLines, comment, tail]
      · exact absurd ((continues_trim line).mp continues) plain.1
      · simp [kind, contentLines, logical.nonempty, logical.no_comment, tail]
      · simp [contentLines, empty, tail, flush]

/-! ### The shape of a logical line -/

theorem pieceOf_isPrefix (line : Text) : pieceOf line <+: line :=
  (trimEnd_isPrefix _).trans (List.rdropWhile_prefix _ _)

theorem pieceOf_trimmed {line : Text} (trimmed : Trimmed line) : Trimmed (pieceOf line) := by
  obtain ⟨rest, split⟩ := pieceOf_isPrefix line
  have head : ∀ c ∈ (pieceOf line).head?, isWhitespace c = false := by
    intro c membership
    apply trimmed.1 c
    rw [← split, List.head?_append]
    simp_all
  have same : trim (pieceOf line) = pieceOf line := by
    rw [pieceOf, trim_trimEnd, trim, trimStart_of_head]
    intro c membership
    obtain ⟨rest, split⟩ := List.rdropWhile_prefix (· == '\\') line
    apply trimmed.1 c
    rw [← split, List.head?_append]
    have started : (List.rdropWhile (· == '\\') line).head? = some c := membership
    simp [started]
  exact same ▸ trimmed_trim _

theorem IsLogical.append {current piece : Text} (first : IsLogical current)
    (trimmed : Trimmed piece) (nonempty : piece ≠ []) :
    IsLogical (current ++ ' ' :: piece) := by
  have whole := first.trimmed.append trimmed [' '] first.nonempty nonempty
  refine ⟨by simpa using whole, by simp, ?_⟩
  obtain ⟨c, rest, rfl⟩ := List.exists_cons_of_ne_nil first.nonempty
  simpa using first.no_comment

theorem isLogical_pieceOf {line : Text} (trimmed : Trimmed line)
    (noComment : line.head? ≠ some '#') (nonempty : pieceOf line ≠ []) :
    IsLogical (pieceOf line) := by
  refine ⟨pieceOf_trimmed trimmed, nonempty, ?_⟩
  obtain ⟨rest, split⟩ := pieceOf_isPrefix line
  obtain ⟨c, tail, equality⟩ := List.exists_cons_of_ne_nil nonempty
  rw [← split, equality] at noComment
  simpa [equality] using noComment

/-- The lines being merged keep the shape; `current` is empty or has it. -/
theorem isLogical_of_mem_mergeLines {ls : List Text} {current : Text}
    (started : current = [] ∨ IsLogical current) :
    ∀ line ∈ mergeLines current ls, IsLogical line := by
  rw [← mergeLines_map_trim]
  induction ls generalizing current with
  | nil =>
      intro line membership
      rcases started with rfl | logical
      · simp [mergeLines, flush] at membership
      · simp only [List.map_nil, mergeLines, flush, logical.nonempty, if_false,
          List.mem_singleton, trim_eq_self logical.trimmed] at membership
        exact membership ▸ logical
  | cons rawLine ls inductionHypothesis =>
      intro line membership
      have trimmed := trimmed_trim rawLine
      rw [List.map_cons, mergeLines] at membership
      rcases lineKind_cases trimmed with
        ⟨kind, -⟩ | ⟨kind, continues⟩ | ⟨kind, own, -⟩ | ⟨kind, -⟩ <;>
        simp only [kind] at membership
      · exact inductionHypothesis started line membership
      · by_cases empty : pieceOf (trim rawLine) = []
        · simp only [empty, if_true] at membership
          exact inductionHypothesis started line membership
        · simp only [empty, if_false] at membership
          have piece := isLogical_pieceOf trimmed (by simpa using continues.1) empty
          refine inductionHypothesis (.inr ?_) line membership
          rw [trim_eq_self piece.trimmed, appendPiece]
          rcases started with rfl | logical
          · simpa using piece
          · simpa [logical.nonempty] using logical.append piece.trimmed empty
      · rcases started with rfl | logical
        · rcases List.mem_cons.mp membership with pushed | later
          · exact pushed ▸ own
          · exact inductionHypothesis (.inl rfl) line later
        · have merged := logical.append trimmed own.nonempty
          simp only [logical.nonempty, if_false, trim_eq_self merged.trimmed] at membership
          rcases List.mem_cons.mp membership with pushed | later
          · exact pushed ▸ merged
          · exact inductionHypothesis (.inl rfl) line later
      · rcases List.mem_append.mp membership with pushed | later
        · rcases started with rfl | logical
          · simp [flush] at pushed
          · simp only [flush, logical.nonempty, if_false, List.mem_singleton,
              trim_eq_self logical.trimmed] at pushed
            exact pushed ▸ logical
        · exact inductionHypothesis (.inl rfl) line later

theorem isLogical_of_mem {text line : Text} (membership : line ∈ logicalLines text) :
    IsLogical line :=
  isLogical_of_mem_mergeLines (.inl rfl) line membership

/-- Merging adds no characters but spaces. -/
theorem forall_mem_mergeLines {p : Char → Prop} (space : p ' ') {ls : List Text} {current : Text}
    (all : ∀ line ∈ ls, ∀ c ∈ line, p c) (started : ∀ c ∈ current, p c) :
    ∀ line ∈ mergeLines current ls, ∀ c ∈ line, p c := by
  have trims : ∀ {t : Text}, (∀ c ∈ t, p c) → ∀ c ∈ trim t, p c := fun holds c membership =>
    holds c (mem_of_mem_trim membership)
  have joins : ∀ {s t : Text}, (∀ c ∈ s, p c) → (∀ c ∈ t, p c) → ∀ c ∈ s ++ ' ' :: t, p c := by
    intro s t first second c membership
    simp only [List.mem_append, List.mem_cons] at membership
    rcases membership with before | rfl | after
    · exact first c before
    · exact space
    · exact second c after
  have flushed : ∀ {t : Text}, (∀ c ∈ t, p c) → ∀ line ∈ flush t, ∀ c ∈ line, p c := by
    intro t holds line membership
    by_cases empty : t = []
    · simp [flush, empty] at membership
    · simp only [flush, if_neg empty, List.mem_singleton] at membership
      exact membership ▸ trims holds
  rw [← mergeLines_map_trim]
  induction ls generalizing current with
  | nil => exact flushed started
  | cons rawLine ls inductionHypothesis =>
      simp only [List.mem_cons, forall_eq_or_imp] at all
      have own := trims all.1
      have later : ∀ {current : Text}, (∀ c ∈ current, p c) →
          ∀ line ∈ mergeLines current (ls.map trim), ∀ c ∈ line, p c :=
        inductionHypothesis all.2
      have fresh : ∀ c ∈ ([] : Text), p c := by simp
      rw [List.map_cons, mergeLines]
      rcases lineKind_cases (trimmed_trim rawLine) with
        ⟨kind, -⟩ | ⟨kind, -⟩ | ⟨kind, -, -⟩ | ⟨kind, -⟩ <;> simp only [kind]
      · exact later started
      · have piece : ∀ c ∈ pieceOf (trim rawLine), p c := fun c membership =>
          own c ((pieceOf_isPrefix _).subset membership)
        by_cases empty : pieceOf (trim rawLine) = []
        · simpa only [empty, if_true] using later started
        · simp only [empty, if_false]
          apply later
          by_cases first : current = []
          · simpa only [appendPiece, first, if_true] using trims piece
          · simpa only [appendPiece, first, if_false] using joins started (trims piece)
      · by_cases first : current = []
        · simp only [first, if_true, List.mem_cons, forall_eq_or_imp]
          exact ⟨own, later fresh⟩
        · simp only [first, if_false, List.mem_cons, forall_eq_or_imp]
          exact ⟨trims (joins started own), later fresh⟩
      · intro line membership
        rcases List.mem_append.mp membership with pushed | rest
        · exact flushed started line pushed
        · exact later fresh line rest

theorem not_mem_of_mem_logicalLines {text line : Text} (membership : line ∈ logicalLines text) :
    '\n' ∉ line := by
  have all : ∀ raw ∈ lines text, ∀ c ∈ raw, c ≠ '\n' := by
    rintro raw rawMem c present rfl
    exact not_mem_of_mem_lines rawMem present
  intro present
  exact forall_mem_mergeLines (p := (· ≠ '\n')) (by simp) all (by simp) line membership _ present rfl

/-! ### Counting backslashes -/

/-- A continuation loses at least one backslash. -/
theorem count_pieceOf_lt {line : Text} (ends : endsWith '\\' line = true) :
    (pieceOf line).count '\\' < line.count '\\' := by
  rw [endsWith, beq_iff_eq] at ends
  have split := List.dropLast_append_getLast? '\\' ends
  have shorter : (pieceOf line).Sublist line.dropLast := by
    rw [← split, pieceOf, trimEndMatches, List.rdropWhile_concat_pos _ _ _ (by simp)]
    simpa using ((trimEnd_isPrefix _).trans (List.rdropWhile_prefix _ _)).sublist
  have dropped := shorter.count_le '\\'
  have whole : line.count '\\' = line.dropLast.count '\\' + 1 := by
    conv_lhs => rw [← split]
    simp
  omega

/-- Merging keeps the backslashes of the lines that are not comments, except
for at least one for each continued line. -/
theorem countIn_mergeLines_le (ls : List Text) (current : Text) :
    countIn '\\' (mergeLines current ls) + ls.countP (Continues ·) ≤
      current.count '\\' + countIn '\\' (contentLines ls) := by
  have trims : ∀ t : Text, (trim t).count '\\' = t.count '\\' := count_trim (by simp)
  have continued : (ls.map trim).countP (Continues ·) = ls.countP (Continues ·) := by
    rw [List.countP_map]
    exact List.countP_congr fun line _ => by simp [continues_trim]
  rw [← mergeLines_map_trim, ← contentLines_map_trim, ← continued]
  clear continued
  induction ls generalizing current with
  | nil =>
      by_cases empty : current = [] <;> simp [mergeLines, flush, empty, trims]
  | cons rawLine ls inductionHypothesis =>
      have trimmed := trimmed_trim rawLine
      rw [List.map_cons, contentLines_cons, mergeLines, List.countP_cons, countIn_append]
      rcases lineKind_cases trimmed with
        ⟨kind, comment⟩ | ⟨kind, continues⟩ | ⟨kind, own, stops⟩ | ⟨kind, empty⟩
      · have stops : ¬ Continues (trim rawLine) := fun continues => by
          simp [Continues, comment] at continues
        have tail := inductionHypothesis current
        simp only [kind, stops, decide_false, Bool.false_eq_true, if_false]
        omega
      · have fewer := count_pieceOf_lt (by simpa using continues.2)
        have nonempty : trim rawLine ≠ [] := by
          intro empty
          simp [Continues, empty, endsWith] at continues
        have own : countIn '\\' (contentLines [trim rawLine]) = (trim rawLine).count '\\' := by
          have noComment : (trim rawLine).head? ≠ some '#' := by simpa using continues.1
          simp [contentLines, nonempty, noComment]
        simp only [kind, continues, decide_true, if_true, own]
        by_cases gone : pieceOf (trim rawLine) = []
        · have tail := inductionHypothesis current
          simp only [gone, if_true]
          omega
        · have tail := inductionHypothesis (appendPiece current (trim (pieceOf (trim rawLine))))
          have added : (appendPiece current (trim (pieceOf (trim rawLine)))).count '\\' =
              current.count '\\' + (pieceOf (trim rawLine)).count '\\' := by
            by_cases empty : current = [] <;> simp [appendPiece, empty, trims]
          simp only [gone, if_false]
          omega
      · have tail := inductionHypothesis []
        have same : countIn '\\' (contentLines [trim rawLine]) = (trim rawLine).count '\\' := by
          simp [contentLines, own.nonempty, own.no_comment]
        have pushed : (trim (current ++ ' ' :: trim rawLine)).count '\\' =
            current.count '\\' + (trim rawLine).count '\\' := by
          simp [trims]
        simp only [kind, stops, decide_false, Bool.false_eq_true, if_false, same]
        by_cases empty : current = []
        · simp only [empty, if_true, countIn_cons, List.count_nil] at tail ⊢
          omega
        · simp only [empty, if_false, countIn_cons, List.count_nil, pushed] at tail ⊢
          omega
      · have stops : ¬ Continues (trim rawLine) := fun continues => by
          simp [Continues, empty, endsWith] at continues
        have tail := inductionHypothesis []
        have flushed : countIn '\\' (flush current) = current.count '\\' := by
          by_cases empty : current = [] <;> simp [flush, empty, trims]
        simp only [kind, stops, decide_false, Bool.false_eq_true, if_false, countIn_append,
          flushed, List.count_nil] at tail ⊢
        omega

theorem directives_eq_map (text : Text) :
    directives text = (logicalLines text).map splitDirective := by
  rw [directives, List.filter_eq_self.mpr]
  intro line membership
  have logical := isLogical_of_mem membership
  simp [trim_eq_self logical.trimmed, logical.nonempty, logical.no_comment]

end SmartDnsPlusUi
