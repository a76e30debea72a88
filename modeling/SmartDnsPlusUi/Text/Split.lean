import SmartDnsPlusUi.Text.Basic

/-!
# Splitting texts

Words, the first word and the rest, the parts around the first occurrence of a
substring or around the last occurrence of a character.  Each operation comes
with the rule that computes it on a text given as a concatenation.
-/

namespace SmartDnsPlusUi.Text

/-- `split_whitespace`: the maximal runs of characters other than white space. -/
def splitWhitespace (t : Text) : List Text :=
  (t.splitOnP isWhitespace).filter (· ≠ [])

/-- `splitn(2, char::is_whitespace)`: the text before the first white space
character and the text after it, empty when there is none. -/
def splitFirst (t : Text) : Text × Text :=
  (t.takeWhile (!isWhitespace ·), (t.dropWhile (!isWhitespace ·)).drop 1)

/-- `find` of a substring: the texts before and after its first occurrence. -/
def splitAtFirst (needle : Text) : Text → Option (Text × Text)
  | [] => if needle = [] then some ([], []) else none
  | c :: t =>
      if needle <+: c :: t then some ([], (c :: t).drop needle.length)
      else (splitAtFirst needle t).map fun parts => (c :: parts.1, parts.2)

/-- `contains` of a substring. -/
def contains (needle t : Text) : Bool := (splitAtFirst needle t).isSome

/-- `rfind` of a character: the texts before and after its last occurrence. -/
def splitAtLast (pattern : Char) : Text → Option (Text × Text)
  | [] => none
  | c :: t =>
      match splitAtLast pattern t with
      | some (before, after) => some (c :: before, after)
      | none => if c = pattern then some ([], t) else none

@[simp] theorem splitWhitespace_nil : splitWhitespace [] = [] := rfl

theorem splitWhitespace_append_cons (s t : Text) {c : Char} (space : isWhitespace c = true) :
    splitWhitespace (s ++ c :: t) = splitWhitespace s ++ splitWhitespace t := by
  simp only [splitWhitespace]
  rw [List.splitOnP_append_cons s t space, List.filter_append]

theorem splitWhitespace_of_token {t : Text} (token : IsToken t) : splitWhitespace t = [t] := by
  simp only [splitWhitespace]
  rw [List.splitOnP_eq_singleton token.2]
  simp [token.1]

theorem splitWhitespace_of_blank {t : Text} (blank : Blank t) : splitWhitespace t = [] := by
  induction t with
  | nil => rfl
  | cons c t inductionHypothesis =>
      rw [blank_cons] at blank
      have split := splitWhitespace_append_cons [] t blank.1
      simpa [inductionHypothesis blank.2] using split

theorem splitWhitespace_append_blank (t : Text) {w : Text} (blank : Blank w) :
    splitWhitespace (t ++ w) = splitWhitespace t := by
  cases w with
  | nil => simp
  | cons c w =>
      rw [blank_cons] at blank
      rw [splitWhitespace_append_cons t w blank.1, splitWhitespace_of_blank blank.2,
        List.append_nil]

theorem splitWhitespace_blank_append {w : Text} (blank : Blank w) (t : Text) :
    splitWhitespace (w ++ t) = splitWhitespace t := by
  induction w with
  | nil => rfl
  | cons c w inductionHypothesis =>
      rw [blank_cons] at blank
      have split := splitWhitespace_append_cons [] (w ++ t) blank.1
      simpa [inductionHypothesis blank.2] using split

theorem splitWhitespace_trim (t : Text) : splitWhitespace (trim t) = splitWhitespace t := by
  obtain ⟨a, b, before, after, equality⟩ := trim_split t
  conv_rhs => rw [equality, List.append_assoc, splitWhitespace_blank_append before,
    splitWhitespace_append_blank _ after]

theorem token_of_mem_splitWhitespace {t word : Text} (membership : word ∈ splitWhitespace t) :
    IsToken word := by
  rw [splitWhitespace, List.mem_filter] at membership
  refine ⟨by simpa using membership.2, ?_⟩
  -- every piece between two separators is free of separators
  have pieces : ∀ t : Text, ∀ piece ∈ t.splitOnP isWhitespace, Solid piece := by
    intro t
    induction t with
    | nil => simp
    | cons c t inductionHypothesis =>
        rw [List.splitOnP_cons_eq_if_modifyHead]
        by_cases space : isWhitespace c = true
        · simpa [space] using inductionHypothesis
        · obtain ⟨head, tail, equality⟩ :=
            List.exists_cons_of_ne_nil (List.splitOnP_ne_nil isWhitespace t)
          simp_all
  exact pieces t word membership.1

theorem mem_of_mem_splitWhitespace {t word : Text} (membership : word ∈ splitWhitespace t) {c : Char}
    (inside : c ∈ word) : c ∈ t := by
  have pieces : ∀ t : Text, ∀ piece ∈ t.splitOnP isWhitespace, piece ⊆ t := by
    intro t
    induction t with
    | nil => simp
    | cons d t inductionHypothesis =>
        rw [List.splitOnP_cons_eq_if_modifyHead]
        obtain ⟨head, tail, equality⟩ :=
          List.exists_cons_of_ne_nil (List.splitOnP_ne_nil isWhitespace t)
        rw [equality, List.forall_mem_cons] at inductionHypothesis
        have later : ∀ piece ∈ tail, piece ⊆ d :: t := fun piece listed =>
          List.subset_cons_of_subset d (inductionHypothesis.2 piece listed)
        by_cases space : isWhitespace d = true
        · rw [if_pos space, equality, List.forall_mem_cons, List.forall_mem_cons]
          exact ⟨List.nil_subset _, List.subset_cons_of_subset d inductionHypothesis.1, later⟩
        · rw [if_neg space, equality, List.modifyHead_cons, List.forall_mem_cons]
          exact ⟨List.cons_subset_cons d inductionHypothesis.1, later⟩
  exact pieces t word (List.mem_filter.mp membership).1 inside

theorem splitFirst_append_cons {word : Text} (solid : Solid word) {c : Char}
    (space : isWhitespace c = true) (rest : Text) :
    splitFirst (word ++ c :: rest) = (word, rest) := by
  have all : ∀ d ∈ word, (!isWhitespace d) = true := fun d membership => by
    simp [solid d membership]
  simp [splitFirst, List.takeWhile_append_of_pos all, List.dropWhile_append_of_pos all, space]

theorem splitFirst_of_solid {word : Text} (solid : Solid word) :
    splitFirst word = (word, []) := by
  have all : ∀ d ∈ word, (!isWhitespace d) = true := fun d membership => by
    simp [solid d membership]
  have taken : word.takeWhile (!isWhitespace ·) = word := List.takeWhile_eq_self_iff.mpr all
  have dropped : word.dropWhile (!isWhitespace ·) = [] := List.dropWhile_eq_nil_iff.mpr all
  simp [splitFirst, taken, dropped]

/-- Either the text is one solid word, or white space ends its first word. -/
theorem splitFirst_cases (t : Text) :
    (Solid t ∧ splitFirst t = (t, [])) ∨
      ∃ word c rest, t = word ++ c :: rest ∧ Solid word ∧ isWhitespace c = true ∧
        splitFirst t = (word, rest) := by
  by_cases solid : Solid t
  · exact .inl ⟨solid, splitFirst_of_solid solid⟩
  · right
    have split : t.takeWhile (!isWhitespace ·) ++ t.dropWhile (!isWhitespace ·) = t :=
      List.takeWhile_append_dropWhile
    have wordSolid : Solid (t.takeWhile (!isWhitespace ·)) := by
      intro d membership
      simpa using List.mem_takeWhile_imp membership
    cases tail : t.dropWhile (!isWhitespace ·) with
    | nil =>
        rw [tail, List.append_nil] at split
        exact absurd (split ▸ wordSolid) solid
    | cons c rest =>
        have space : isWhitespace c = true := by
          have head := List.head?_dropWhile_not (!isWhitespace ·) t
          simpa [tail] using head
        refine ⟨_, c, rest, (tail ▸ split).symm, wordSolid, space, ?_⟩
        simp [splitFirst, tail]

theorem splitFirst_fst_solid (t : Text) : Solid (splitFirst t).1 := by
  rcases splitFirst_cases t with ⟨solid, split⟩ | ⟨word, c, rest, -, solid, -, split⟩ <;>
    simpa [split] using solid

/-- The first word of a trimmed text is its first word. -/
theorem splitWhitespace_eq_cons_splitFirst {t : Text} (trimmed : Trimmed t) (nonempty : t ≠ []) :
    splitWhitespace t = (splitFirst t).1 :: splitWhitespace (splitFirst t).2 := by
  rcases splitFirst_cases t with ⟨solid, split⟩ | ⟨word, c, rest, equality, solid, space, split⟩
  · simp [split, splitWhitespace_of_token ⟨nonempty, solid⟩]
  · have wordNonempty : word ≠ [] := by
      rintro rfl
      have := trimmed.1 c (by simp [equality])
      simp [space] at this
    rw [split, equality, splitWhitespace_append_cons _ _ space,
      splitWhitespace_of_token ⟨wordNonempty, solid⟩, List.singleton_append]

/-- The first word of a trimmed text is empty only if the text is. -/
theorem splitFirst_fst_eq_nil_iff {t : Text} (trimmed : Trimmed t) :
    (splitFirst t).1 = [] ↔ t = [] := by
  refine ⟨fun empty => ?_, fun empty => by simp [empty, splitFirst]⟩
  by_contra nonempty
  have first := splitWhitespace_eq_cons_splitFirst trimmed nonempty
  have word : (splitFirst t).1 ∈ splitWhitespace t := first ▸ List.mem_cons_self
  exact (token_of_mem_splitWhitespace word).1 empty

/-- What is left of a text behind its first word and the white space after it. -/
theorem trimStart_splitFirst (t : Text) :
    trimStart (splitFirst t).2 = (t.dropWhile (!isWhitespace ·)).dropWhile isWhitespace := by
  rw [splitFirst, trimStart]
  cases tail : t.dropWhile (!isWhitespace ·) with
  | nil => rfl
  | cons c rest =>
      have space : isWhitespace c = true := by
        have head := List.head?_dropWhile_not (!isWhitespace ·) t
        simpa [tail] using head
      simp [space]

theorem trim_splitFirst {t : Text} (trimmed : Trimmed t) :
    trim (splitFirst t).2 = (t.dropWhile (!isWhitespace ·)).dropWhile isWhitespace := by
  rw [trim, trimStart_splitFirst]
  apply trimEnd_of_last
  intro c last
  have suffix := (List.dropWhile_suffix isWhitespace (l := t.dropWhile (!isWhitespace ·))).trans
    (List.dropWhile_suffix (!isWhitespace ·))
  obtain ⟨front, equality⟩ := suffix
  apply trimmed.2 c
  rw [← equality, List.getLast?_append, last]
  rfl

/-- The first word of a text that starts with a token. -/
theorem splitWhitespace_token_append {token : Text} (isToken : IsToken token) (t : Text) :
    splitWhitespace (token ++ t) =
      (token ++ t.takeWhile (!isWhitespace ·)) ::
        splitWhitespace (t.dropWhile (!isWhitespace ·)) := by
  have solid : Solid (token ++ t.takeWhile (!isWhitespace ·)) := by
    rw [solid_append]
    exact ⟨isToken.2, fun c membership => by simpa using List.mem_takeWhile_imp membership⟩
  have word : IsToken (token ++ t.takeWhile (!isWhitespace ·)) :=
    ⟨by simp [isToken.1], solid⟩
  conv_lhs => rw [← List.takeWhile_append_dropWhile (p := (!isWhitespace ·)) (l := t)]
  rw [← List.append_assoc]
  cases tail : t.dropWhile (!isWhitespace ·) with
  | nil => rw [List.append_nil, splitWhitespace_of_token word, splitWhitespace_nil]
  | cons c rest =>
      have space : isWhitespace c = true := by
        have head := List.head?_dropWhile_not (!isWhitespace ·) t
        simpa [tail] using head
      have dropped := splitWhitespace_append_cons [] rest space
      rw [splitWhitespace_append_cons _ rest space, splitWhitespace_of_token word,
        List.singleton_append]
      simpa using dropped.symm

theorem Solid.head_space_iff {t : Text} (solid : Solid t) :
    (∀ c ∈ t.head?, isWhitespace c = true) ↔ t = [] := by
  cases t with
  | nil => simp
  | cons c t =>
      rw [solid_cons] at solid
      simp [solid.1]

theorem endsWith_slash_cons {t : Text} (noSlash : '/' ∉ t) :
    endsWith '/' ('/' :: t) = false ↔ t ≠ [] := by
  rcases List.eq_nil_or_concat' t with rfl | ⟨front, last, rfl⟩
  · decide
  · have other : last ≠ '/' := by
      rintro rfl
      simp at noSlash
    have shape : '/' :: (front ++ [last]) = ('/' :: front) ++ [last] := rfl
    rw [endsWith, shape, List.getLast?_concat]
    simp [other]

/-! ### Occurrences of a substring -/

theorem prefix_of_prefix_append_cons {needle s t : Text} {c : Char} (avoids : c ∉ needle)
    (starts : needle <+: s ++ c :: t) : needle <+: s := by
  obtain ⟨rest, equality⟩ := starts
  rw [List.append_eq_append_iff] at equality
  rcases equality with ⟨m, rfl, -⟩ | ⟨m, rfl, equality⟩
  · exact List.prefix_append _ _
  · cases m with
    | nil => simp
    | cons d m =>
        simp only [List.cons_append, List.cons.injEq] at equality
        simp [equality.1] at avoids

/-- A substring that avoids a character lies on one side of it. -/
theorem infix_append_cons {needle s t : Text} {c : Char} (avoids : c ∉ needle)
    (occurs : needle <:+: s ++ c :: t) : needle <:+: s ∨ needle <:+: t := by
  obtain ⟨a, b, equality⟩ := occurs
  rw [List.append_assoc, List.append_eq_append_iff] at equality
  rcases equality with ⟨m, rfl, equality⟩ | ⟨m, rfl, equality⟩
  · rw [List.append_eq_append_iff] at equality
    rcases equality with ⟨m', rfl, -⟩ | ⟨m', rfl, equality⟩
    · exact .inl ⟨a, m', by simp⟩
    · cases m' with
      | nil => exact .inl ⟨a, [], by simp⟩
      | cons d m' =>
          simp only [List.cons_append, List.cons.injEq] at equality
          simp [equality.1] at avoids
  · cases m with
    | nil =>
        cases needle with
        | nil => exact .inl (List.nil_infix)
        | cons d needle =>
            simp only [List.nil_append, List.cons_append, List.cons.injEq] at equality
            simp [equality.1] at avoids
    | cons d m =>
        simp only [List.cons_append, List.cons.injEq] at equality
        exact .inr ⟨m, b, by simp [equality.2]⟩

/-- A substring whose first character is missing from a prefix lies after it. -/
theorem infix_append_of_head_not_mem {d : Char} {needle s t : Text} (fresh : d ∉ s)
    (occurs : d :: needle <:+: s ++ t) : d :: needle <:+: t := by
  induction s with
  | nil => exact occurs
  | cons c s inductionHypothesis =>
      simp only [List.mem_cons, not_or] at fresh
      rcases List.infix_cons_iff.mp occurs with starts | later
      · obtain ⟨rest, equality⟩ := starts
        simp only [List.cons_append, List.cons.injEq] at equality
        exact absurd equality.1 fresh.1
      · exact inductionHypothesis fresh.2 later

theorem splitAtFirst_eq_none_iff {needle : Text} (t : Text) :
    splitAtFirst needle t = none ↔ ¬ needle <:+: t := by
  induction t with
  | nil => by_cases empty : needle = [] <;> simp [splitAtFirst, empty]
  | cons c t inductionHypothesis =>
      by_cases starts : needle <+: c :: t
      · simp [splitAtFirst, starts, List.infix_cons_iff]
      · simp [splitAtFirst, starts, List.infix_cons_iff, inductionHypothesis]

theorem contains_iff_isInfix (needle t : Text) : contains needle t = true ↔ needle <:+: t := by
  rw [contains, Option.isSome_iff_ne_none, Ne, splitAtFirst_eq_none_iff, not_not]

theorem splitAtFirst_eq_some {needle t before after : Text}
    (found : splitAtFirst needle t = some (before, after)) :
    t = before ++ needle ++ after := by
  induction t generalizing before with
  | nil =>
      by_cases empty : needle = []
      · simp_all [splitAtFirst]
      · simp [splitAtFirst, empty] at found
  | cons c t inductionHypothesis =>
      by_cases starts : needle <+: c :: t
      · obtain ⟨rest, equality⟩ := starts
        simp only [splitAtFirst, ← equality, List.prefix_append, if_true, List.drop_left,
          Option.some.injEq, Prod.mk.injEq] at found
        simp [← found.1, ← found.2]
        exact equality.symm
      · simp only [splitAtFirst, starts, if_false, Option.map_eq_some_iff] at found
        obtain ⟨⟨before', after'⟩, found, equality⟩ := found
        simp only [Prod.mk.injEq] at equality
        obtain ⟨rfl, rfl⟩ := equality
        simpa using inductionHypothesis found

/-- The text before the first occurrence, with any proper part of the
occurrence, contains no occurrence; with a character outside the substring it
contains none at all. -/
theorem not_infix_of_splitAtFirst {needle t before after : Text} (nonempty : needle ≠ [])
    (found : splitAtFirst needle t = some (before, after)) : ¬ needle <:+: before := by
  induction t generalizing before with
  | nil => simp [splitAtFirst, nonempty] at found
  | cons c t inductionHypothesis =>
      by_cases starts : needle <+: c :: t
      · simp only [splitAtFirst, starts, if_true, Option.some.injEq, Prod.mk.injEq] at found
        simpa [← found.1] using nonempty
      · have whole := splitAtFirst_eq_some found
        simp only [splitAtFirst, starts, if_false, Option.map_eq_some_iff] at found
        obtain ⟨⟨before', after'⟩, found, equality⟩ := found
        simp only [Prod.mk.injEq] at equality
        obtain ⟨rfl, rfl⟩ := equality
        rw [List.infix_cons_iff]
        rintro (begins | later)
        · apply starts
          rw [whole, List.append_assoc]
          exact begins.trans (List.prefix_append _ _)
        · exact inductionHypothesis found later

/-- Searching skips a text without occurrence that ends in a character outside
the substring. -/
theorem splitAtFirst_append_cons {needle s t : Text} {c : Char} (nonempty : needle ≠ [])
    (avoids : c ∉ needle) (absent : ¬ needle <:+: s) :
    splitAtFirst needle (s ++ c :: t) =
      (splitAtFirst needle t).map fun parts => (s ++ c :: parts.1, parts.2) := by
  induction s with
  | nil =>
      have starts : ¬ needle <+: c :: t := by
        rintro ⟨rest, equality⟩
        cases needle with
        | nil => exact nonempty rfl
        | cons d needle => simp_all
      simp [splitAtFirst, starts]
  | cons d s inductionHypothesis =>
      rw [List.infix_cons_iff, not_or] at absent
      have starts : ¬ needle <+: d :: (s ++ c :: t) := by
        intro begins
        have whole : needle <+: (d :: s) ++ c :: t := by simpa using begins
        exact absent.1 (prefix_of_prefix_append_cons avoids whole)
      simp only [List.cons_append, splitAtFirst, starts, if_false,
        inductionHypothesis absent.2, Option.map_map]
      rfl

theorem splitAtFirst_self_append {needle : Text} (nonempty : needle ≠ []) (t : Text) :
    splitAtFirst needle (needle ++ t) = some ([], t) := by
  cases needle with
  | nil => exact absurd rfl nonempty
  | cons c needle =>
      have starts : c :: needle <+: c :: (needle ++ t) := by simp
      simp [splitAtFirst, starts]

/-- A search passes a text that does not contain the first character of the substring. -/
theorem splitAtFirst_append_of_head_not_mem {d : Char} {needle s : Text} (fresh : d ∉ s)
    (t : Text) :
    splitAtFirst (d :: needle) (s ++ t) =
      (splitAtFirst (d :: needle) t).map fun parts => (s ++ parts.1, parts.2) := by
  induction s with
  | nil => simp
  | cons c s inductionHypothesis =>
      obtain ⟨different, freshRest⟩ := not_or.mp (mt List.mem_cons.mpr fresh)
      have starts : ¬ d :: needle <+: c :: (s ++ t) := fun begins =>
        different (List.cons_prefix_cons.mp begins).1
      rw [List.cons_append, splitAtFirst, if_neg starts, inductionHypothesis freshRest,
        Option.map_map]
      rfl

/-- The occurrence after `before` is the first when none ends inside it. -/
theorem splitAtFirst_append {needle before : Text} (nonempty : needle ≠ [])
    (none : ¬ needle <:+: before ++ needle.dropLast) (after : Text) :
    splitAtFirst needle (before ++ needle ++ after) = some (before, after) := by
  induction before with
  | nil => simpa using splitAtFirst_self_append nonempty after
  | cons c before inductionHypothesis =>
      rw [List.cons_append, List.infix_cons_iff, not_or] at none
      have starts : ¬ needle <+: c :: (before ++ needle ++ after) := by
        intro begins
        apply none.1
        have longer : c :: (before ++ needle.dropLast) <+: c :: (before ++ needle ++ after) := by
          rw [List.append_assoc]
          exact (List.prefix_cons_inj c).mpr ((List.prefix_append_right_inj before).mpr
            ((List.dropLast_prefix needle).trans (List.prefix_append _ _)))
        apply List.prefix_of_prefix_length_le begins longer
        have positive := List.length_pos_iff.mpr nonempty
        simp
        omega
      simp only [List.cons_append, splitAtFirst, starts, if_false, inductionHypothesis none.2,
        Option.map_some]

/-- What follows the first occurrence does not matter for finding it. -/
theorem splitAtFirst_append_of_eq_some {needle t before after : Text} (nonempty : needle ≠ [])
    (found : splitAtFirst needle t = some (before, after)) (rest : Text) :
    splitAtFirst needle (before ++ needle ++ rest) = some (before, rest) := by
  have whole := splitAtFirst_eq_some found
  subst whole
  induction before with
  | nil => simpa using splitAtFirst_self_append nonempty rest
  | cons c before inductionHypothesis =>
      by_cases starts : needle <+: c :: (before ++ needle ++ after)
      · simp only [List.cons_append, splitAtFirst, starts, if_true, Option.some.injEq,
          Prod.mk.injEq] at found
        simp at found
      · simp only [List.cons_append, splitAtFirst, starts, if_false, Option.map_eq_some_iff,
          Prod.mk.injEq, List.cons.injEq, true_and] at found
        obtain ⟨⟨before', after'⟩, found, rfl, rfl⟩ := found
        have starts' : ¬ needle <+: c :: (before' ++ needle ++ rest) := by
          intro begins
          apply starts
          have within : needle <+: c :: (before' ++ needle) := by
            apply List.prefix_of_prefix_length_le begins
              ((List.prefix_cons_inj c).mpr ( List.prefix_append (before' ++ needle) rest))
            simp
            omega
          exact within.trans ((List.prefix_cons_inj c).mpr ( List.prefix_append _ _))
        simp only [List.cons_append, splitAtFirst, starts', if_false, inductionHypothesis found,
          Option.map_some]

/-- Where the first occurrence goes on as a longer substring, that is the first
occurrence of the longer substring. -/
theorem splitAtFirst_longer {needle tail t before after : Text} (nonempty : needle ≠ [])
    (found : splitAtFirst needle t = some (before, tail ++ after)) :
    splitAtFirst (needle ++ tail) t = some (before, after) := by
  induction t generalizing before with
  | nil => simp [splitAtFirst, nonempty] at found
  | cons c t inductionHypothesis =>
      by_cases starts : needle <+: c :: t
      · obtain ⟨rest, equality⟩ := starts
        simp only [splitAtFirst, ← equality, List.prefix_append, if_true, List.drop_left,
          Option.some.injEq, Prod.mk.injEq] at found
        obtain ⟨rfl, rfl⟩ := found
        have whole : needle ++ tail ≠ [] := by simp [nonempty]
        have again := splitAtFirst_self_append whole after
        rwa [List.append_assoc, equality] at again
      · have longer : ¬ needle ++ tail <+: c :: t := fun begins =>
          starts (( List.prefix_append _ _).trans begins)
        simp only [splitAtFirst, starts, if_false, Option.map_eq_some_iff] at found
        obtain ⟨⟨before', after'⟩, found, equality⟩ := found
        simp only [Prod.mk.injEq] at equality
        obtain ⟨rfl, rfl⟩ := equality
        rw [splitAtFirst, if_neg longer, inductionHypothesis found, Option.map_some]

/-! ### The last occurrence of a character -/

theorem splitAtLast_eq_none_iff {pattern : Char} (t : Text) :
    splitAtLast pattern t = none ↔ pattern ∉ t := by
  induction t with
  | nil => simp [splitAtLast]
  | cons c t inductionHypothesis =>
      cases found : splitAtLast pattern t with
      | none =>
          have absent := inductionHypothesis.mp found
          by_cases equality : c = pattern
          · simp [splitAtLast, found, equality]
          · simp [splitAtLast, found, equality, absent, Ne.symm equality]
      | some parts =>
          have present : pattern ∈ t := by
            by_contra absent
            simp [inductionHypothesis.mpr absent] at found
          simp [splitAtLast, found, present]

theorem splitAtLast_append_cons {pattern : Char} (before : Text) {after : Text}
    (absent : pattern ∉ after) :
    splitAtLast pattern (before ++ pattern :: after) = some (before, after) := by
  induction before with
  | nil => simp [splitAtLast, (splitAtLast_eq_none_iff after).mpr absent]
  | cons c before inductionHypothesis => simp [splitAtLast, inductionHypothesis]

theorem splitAtLast_eq_some {pattern : Char} {t before after : Text}
    (found : splitAtLast pattern t = some (before, after)) :
    t = before ++ pattern :: after ∧ pattern ∉ after := by
  induction t generalizing before with
  | nil => simp [splitAtLast] at found
  | cons c t inductionHypothesis =>
      cases rest : splitAtLast pattern t with
      | none =>
          by_cases equality : c = pattern
          · simp only [splitAtLast, rest, equality, if_true, Option.some.injEq,
              Prod.mk.injEq] at found
            obtain ⟨rfl, rfl⟩ := found
            exact ⟨by simp [equality], (splitAtLast_eq_none_iff t).mp rest⟩
          · simp [splitAtLast, rest, equality] at found
      | some parts =>
          obtain ⟨before', after'⟩ := parts
          simp only [splitAtLast, rest, Option.some.injEq, Prod.mk.injEq] at found
          obtain ⟨rfl, rfl⟩ := found
          obtain ⟨equality, absent⟩ := inductionHypothesis rest
          exact ⟨by simp [equality], absent⟩

end SmartDnsPlusUi.Text
