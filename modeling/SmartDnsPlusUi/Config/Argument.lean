import SmartDnsPlusUi.Text.Count

/-!
# Splitting the argument of a directive

A rule's argument names a target and a value.  Two splitters read it: one cuts
an argument that starts with a slash at its first slash followed by a space,
the other at its last slash; both fall back to the first word.
-/

namespace SmartDnsPlusUi

open Text

/-- The first two words of an argument, or the parts around the first `/ ` of
an argument that starts with a slash. -/
def splitTargetOptions (value : Text) : Text × Text :=
  let trimmed := trim value
  let words :=
    let parts := splitFirst trimmed
    (trim parts.1, trim parts.2)
  match trimmed with
  | '/' :: rest =>
      match splitAtFirst "/ " rest with
      | some (before, after) => ('/' :: before, trim after)
      | none => words
  | _ => words

/-- The parts around the last slash of an argument that starts with one. -/
def splitTargetValue (value : Text) : Text × Text :=
  match trim value with
  | '/' :: rest =>
      match splitAtLast '/' rest with
      | some (before, after) => ('/' :: before, trim after)
      | none => splitTargetOptions value
  | _ => splitTargetOptions value

/-- The word after the first word equal to `name`. -/
def lookupOption (name : Text) : List Text → Option Text
  | [] => none
  | token :: rest => if token = name then rest.head? else lookupOption name rest

def parseNamedOption (value name : Text) : Option Text :=
  lookupOption name (splitWhitespace value)

/-- Either the argument has at most its leading slash, or the first slash that
a space follows is also its last slash. -/
def SlashesAgree (value : Text) : Prop :=
  ∀ rest, value = '/' :: rest →
    '/' ∉ rest ∨
      ∃ before after, rest = before ++ '/' :: ' ' :: after ∧
        ¬ ("/ " : Text) <:+: before ++ ['/'] ∧ '/' ∉ after

theorem splitTargetOptions_of_no_slash {value : Text} (trimmed : Trimmed value)
    (noSlash : value.head? ≠ some '/') :
    splitTargetOptions value = (trim (splitFirst value).1, trim (splitFirst value).2) := by
  rw [splitTargetOptions, trim_eq_self trimmed]
  cases value with
  | nil => rfl
  | cons c rest =>
      have other : c ≠ '/' := by simpa using noSlash
      simp only []
      split
      · simp_all
      · rfl

theorem splitTargetOptions_of_gap {rest before after : Text} (trimmed : Trimmed ('/' :: rest))
    (found : splitAtFirst "/ " rest = some (before, after)) :
    splitTargetOptions ('/' :: rest) = ('/' :: before, trim after) := by
  rw [splitTargetOptions, trim_eq_self trimmed]
  simp only [found]

theorem splitTargetOptions_of_no_gap {rest : Text} (trimmed : Trimmed ('/' :: rest))
    (absent : splitAtFirst "/ " rest = none) :
    splitTargetOptions ('/' :: rest) =
      (trim (splitFirst ('/' :: rest)).1, trim (splitFirst ('/' :: rest)).2) := by
  rw [splitTargetOptions, trim_eq_self trimmed]
  simp only [absent]

@[simp] theorem splitTargetOptions_trim (value : Text) :
    splitTargetOptions (trim value) = splitTargetOptions value := by
  simp [splitTargetOptions]

@[simp] theorem splitTargetValue_trim (value : Text) :
    splitTargetValue (trim value) = splitTargetValue value := by
  simp [splitTargetValue]

theorem splitTargetValue_of_last_slash (before : Text) {after : Text} (last : '/' ∉ after) :
    splitTargetValue ('/' :: (before ++ '/' :: after)) = ('/' :: before, trim after) := by
  have trims : trim ('/' :: (before ++ '/' :: after)) =
      '/' :: (before ++ '/' :: trimEnd after) := by
    have whole := trimEnd_append ('/' :: (before ++ ['/'])) after
    rw [trim, trimStart_of_head (by simp),
      show '/' :: (before ++ '/' :: after) = '/' :: (before ++ ['/']) ++ after by simp, whole]
    by_cases blank : trim after = []
    · have empty : trimEnd after = [] :=
        (trimEnd_eq_nil_iff after).mpr ((trim_eq_nil_iff after).mp blank)
      rw [if_pos blank, empty, trimEnd_of_last]
      intro c membership
      rw [← List.cons_append, List.getLast?_concat] at membership
      obtain rfl : '/' = c := by simpa using membership
      rfl
    · simp [blank]
  have absent : '/' ∉ trimEnd after := fun present =>
    last ((trimEnd_isPrefix after).subset present)
  rw [splitTargetValue, trims]
  simp [splitAtLast_append_cons before absent, trim_trimEnd]

theorem splitTargetValue_of_single_slash {value : Text} (trimmed : Trimmed value)
    (single : ∀ rest, value = '/' :: rest → '/' ∉ rest) :
    splitTargetValue value = splitTargetOptions value := by
  rw [splitTargetValue, trim_eq_self trimmed]
  split
  · have absent := (splitAtLast_eq_none_iff _).mpr (single _ rfl)
    simp [absent]
  · rfl

/-- The first word of an argument is no proper part of it that a slash ends. -/
theorem splitFirst_fst_ne_before_slash (before after : Text) :
    (splitFirst (before ++ '/' :: after)).1 ≠ before := by
  rcases splitFirst_cases (before ++ '/' :: after) with
    ⟨-, split⟩ | ⟨word, c, rest, equality, -, space, split⟩
  · simp [split]
  · rw [split]
    rintro rfl
    simp only [List.append_cancel_left_eq, List.cons.injEq] at equality
    simp [← equality.1] at space

theorem not_infix_slash_space {before : Text} (absent : ¬ ("/ " : Text) <:+: before) :
    ¬ ("/ " : Text) <:+: before ++ ['/'] := by
  rintro ⟨a, b, equality⟩
  rcases List.eq_nil_or_concat' b with rfl | ⟨b, c, rfl⟩
  · have last := congrArg List.getLast? equality
    simp at last
  · rw [← List.append_assoc] at equality
    exact absent ⟨a, b, (List.append_inj_left' equality rfl)⟩

theorem splitTargetValue_eq_splitTargetOptions_iff {value : Text} (trimmed : Trimmed value) :
    splitTargetValue value = splitTargetOptions value ↔ SlashesAgree value := by
  by_cases single : ∀ rest, value = '/' :: rest → '/' ∉ rest
  · exact ⟨fun _ rest equality => .inl (single rest equality),
      fun _ => splitTargetValue_of_single_slash trimmed single⟩
  simp only [not_forall, not_not] at single
  obtain ⟨rest, rfl, slash⟩ := single
  cases found : splitAtLast '/' rest with
  | none => exact absurd slash ((splitAtLast_eq_none_iff rest).mp found)
  | some parts =>
      obtain ⟨before, after⟩ := parts
      obtain ⟨rfl, last⟩ := splitAtLast_eq_some found
      rw [splitTargetValue_of_last_slash before last]
      cases space : splitAtFirst "/ " (before ++ '/' :: after) with
      | none =>
          have absent := (splitAtFirst_eq_none_iff _).mp space
          rw [splitTargetOptions_of_no_gap trimmed space]
          constructor
          · intro same
            have word := congrArg Prod.fst same
            simp only [] at word
            rw [trim_eq_self (splitFirst_fst_solid _).trimmed] at word
            exact absurd word.symm (splitFirst_fst_ne_before_slash ('/' :: before) after)
          · intro agree
            rcases agree _ rfl with noSlash | ⟨before', after', equality, -, -⟩
            · simp at noSlash
            · exact absurd ⟨before', after', by simp [equality]⟩ absent
      | some parts =>
          obtain ⟨before', after'⟩ := parts
          have equality : before ++ '/' :: after = before' ++ '/' :: ' ' :: after' := by
            simpa using splitAtFirst_eq_some space
          have earlier := not_infix_of_splitAtFirst (by simp) space
          rw [splitTargetOptions_of_gap trimmed space]
          constructor
          · intro same
            have word : before = before' := by simpa using congrArg Prod.fst same
            subst word
            have gap : after = ' ' :: after' := by simpa using equality
            refine fun rest' equality' => .inr ⟨before, after', ?_, ?_, ?_⟩
            · simpa [gap] using (List.cons.inj equality').2.symm
            · exact not_infix_slash_space earlier
            · exact fun present => last (gap ▸ List.mem_cons_of_mem _ present)
          · intro agree
            rcases agree _ rfl with noSlash | ⟨first, tail, shape, none, free⟩
            · simp at noSlash
            · have cutLast : splitAtLast '/' (first ++ '/' :: ' ' :: tail) =
                  some (first, ' ' :: tail) :=
                splitAtLast_append_cons first (by simpa using free)
              have cutFirst : splitAtFirst "/ " (first ++ '/' :: ' ' :: tail) =
                  some (first, tail) := by
                rw [show first ++ '/' :: ' ' :: tail = first ++ ("/ " : Text) ++ tail by simp]
                exact splitAtFirst_append (by simp) (by simpa using none) tail
              rw [← shape, found] at cutLast
              rw [← shape, space] at cutFirst
              simp only [Option.some.injEq, Prod.mk.injEq] at cutLast cutFirst
              rw [cutLast.1, cutLast.2, cutFirst.1, cutFirst.2]
              exact congrArg (Prod.mk _) (trim_append_blank_left (w := [' ']) (by simp) tail)

/-! ### Characters of the parts -/

theorem mem_of_mem_splitTargetOptions {value : Text} {c : Char}
    (membership : c ∈ (splitTargetOptions value).1 ∨ c ∈ (splitTargetOptions value).2) :
    c ∈ value := by
  have words : c ∈ (splitFirst (trim value)).1 ∨ c ∈ (splitFirst (trim value)).2 →
      c ∈ value := by
    intro membership
    apply mem_of_mem_trim
    rcases splitFirst_cases (trim value) with
      ⟨-, split⟩ | ⟨word, d, rest, equality, -, -, split⟩
    · simpa [split] using membership
    · rw [split] at membership
      rw [equality]
      rcases membership with first | second <;> simp [*]
  simp only [splitTargetOptions] at membership
  split at membership
  · rename_i rest equality
    cases found : splitAtFirst "/ " rest with
    | none =>
        rw [found] at membership
        exact words (membership.imp mem_of_mem_trim mem_of_mem_trim)
    | some parts =>
        obtain ⟨before, after⟩ := parts
        have shape := splitAtFirst_eq_some found
        rw [found] at membership
        apply mem_of_mem_trim
        rw [equality, shape]
        rcases membership with first | second
        · rcases List.mem_cons.mp first with slash | inside <;> simp [*]
        · simp [mem_of_mem_trim second]
  · exact words (membership.imp mem_of_mem_trim mem_of_mem_trim)

theorem mem_of_mem_splitTargetValue {value : Text} {c : Char}
    (membership : c ∈ (splitTargetValue value).1 ∨ c ∈ (splitTargetValue value).2) :
    c ∈ value := by
  simp only [splitTargetValue] at membership
  split at membership
  · rename_i rest equality
    cases found : splitAtLast '/' rest with
    | none =>
        rw [found] at membership
        exact mem_of_mem_splitTargetOptions membership
    | some parts =>
        obtain ⟨before, after⟩ := parts
        obtain ⟨shape, -⟩ := splitAtLast_eq_some found
        rw [found] at membership
        apply mem_of_mem_trim
        rw [equality, shape]
        rcases membership with first | second
        · rcases List.mem_cons.mp first with slash | inside <;> simp [*]
        · simp [mem_of_mem_trim second]
  · exact mem_of_mem_splitTargetOptions membership

theorem count_splitTargetOptions_le {pattern : Char} (solid : isWhitespace pattern = false)
    (value : Text) :
    (splitTargetOptions value).1.count pattern + (splitTargetOptions value).2.count pattern ≤
      value.count pattern := by
  have words : (trim (splitFirst (trim value)).1).count pattern +
      (trim (splitFirst (trim value)).2).count pattern = value.count pattern := by
    rw [count_trim solid, count_trim solid, count_splitFirst solid, count_trim solid]
  rw [← count_trim solid value]
  rw [← count_trim solid value] at words
  simp only [splitTargetOptions]
  split
  · rename_i rest equality
    cases found : splitAtFirst "/ " rest with
    | none => exact words.le
    | some parts =>
        obtain ⟨before, after⟩ := parts
        have shape := splitAtFirst_eq_some found
        simp only [equality, shape, List.count_cons, List.count_append, count_trim solid]
        omega
  · exact words.le

theorem count_splitTargetValue_le {pattern : Char} (solid : isWhitespace pattern = false)
    (value : Text) :
    (splitTargetValue value).1.count pattern + (splitTargetValue value).2.count pattern ≤
      value.count pattern := by
  have otherwise := count_splitTargetOptions_le solid value
  simp only [splitTargetValue]
  split
  · rename_i rest equality
    cases found : splitAtLast '/' rest with
    | none => exact otherwise
    | some parts =>
        obtain ⟨before, after⟩ := parts
        obtain ⟨shape, -⟩ := splitAtLast_eq_some found
        rw [← count_trim solid value]
        simp only [equality, shape, List.count_cons, List.count_append, count_trim solid]
        omega
  · exact otherwise

/-! ### The parts and the argument -/

/-- An argument is cut at a gap, which costs a slash, or behind its first word. -/
theorem splitTargetOptions_cases {value : Text} (trimmed : Trimmed value) :
    (∃ before after, value = '/' :: (before ++ '/' :: ' ' :: after) ∧ trim after ≠ [] ∧
        splitTargetOptions value = ('/' :: before, trim after)) ∨
      splitTargetOptions value = ((splitFirst value).1, trim (splitFirst value).2) := by
  have word := trim_eq_self (splitFirst_fst_solid value).trimmed
  by_cases slash : value.head? = some '/'
  · obtain ⟨rest, rfl⟩ := List.head?_eq_some_iff.mp slash
    cases found : splitAtFirst "/ " rest with
    | none =>
        right
        rw [splitTargetOptions_of_no_gap trimmed found, word]
    | some parts =>
        left
        obtain ⟨before, after⟩ := parts
        have shape : rest = before ++ '/' :: ' ' :: after := by
          simpa using splitAtFirst_eq_some found
        refine ⟨before, after, by rw [shape], fun empty => ?_,
          splitTargetOptions_of_gap trimmed found⟩
        have blank : Blank (' ' :: after) := by simp [(trim_eq_nil_iff after).mp empty]
        have short := trim_append_of_blank ('/' :: before ++ ['/']) blank
        have whole : '/' :: rest = '/' :: before ++ ['/'] ++ ' ' :: after := by simp [shape]
        have closed : Trimmed ('/' :: before ++ ['/']) := by
          have slashTrimmed : Trimmed ['/'] := by decide
          exact slashTrimmed.append slashTrimmed before (by simp) (by simp)
        rw [← whole, trim_eq_self trimmed, trim_eq_self closed, whole] at short
        simp at short
  · right
    rw [splitTargetOptions_of_no_slash trimmed slash, word]

theorem trimmed_splitTargetOptions (value : Text) : Trimmed (splitTargetOptions value).2 := by
  rw [← splitTargetOptions_trim]
  rcases splitTargetOptions_cases (trimmed_trim value) with ⟨_, _, -, -, split⟩ | split
  · rw [split]
    exact trimmed_trim _
  · rw [split]
    exact trimmed_trim _

/-- Behind the first word of a trimmed text there is more, or nothing. -/
theorem splitFirst_trimmed {value : Text} (trimmed : Trimmed value) :
    ((splitFirst value).1 = value ∧ trim (splitFirst value).2 = []) ∨
      ∃ c rest, value = (splitFirst value).1 ++ c :: rest ∧ trim rest ≠ [] ∧
        trim (splitFirst value).2 = trim rest := by
  rcases splitFirst_cases value with ⟨-, split⟩ | ⟨word, c, rest, equality, solid, space, split⟩
  · left
    rw [split]
    exact ⟨rfl, rfl⟩
  · right
    rw [split]
    refine ⟨c, rest, equality, fun empty => ?_, rfl⟩
    have blank : Blank (c :: rest) := by simp [space, (trim_eq_nil_iff rest).mp empty]
    have short := trim_append_of_blank word blank
    rw [← equality, trim_eq_self trimmed, trim_eq_self solid.trimmed, equality] at short
    simp at short

/-- Without options an argument is its target. -/
theorem splitTargetOptions_target {value : Text} (trimmed : Trimmed value)
    (noOptions : (splitTargetOptions value).2 = []) : (splitTargetOptions value).1 = value := by
  rcases splitTargetOptions_cases trimmed with ⟨_, after, -, some, split⟩ | split
  · rw [split] at noOptions
    exact absurd noOptions some
  · rw [split] at noOptions ⊢
    rcases splitFirst_trimmed trimmed with ⟨whole, -⟩ | ⟨c, rest, -, some, same⟩
    · exact whole
    · exact absurd (same.symm.trans noOptions) some

/-- With options an argument ends where they end. -/
theorem endsWith_splitTargetOptions {value : Text} (trimmed : Trimmed value)
    (options : (splitTargetOptions value).2 ≠ []) (suffix : Char) :
    endsWith suffix (splitTargetOptions value).2 = endsWith suffix value := by
  rcases splitTargetOptions_cases trimmed with ⟨before, after, shape, some, split⟩ | split
  · have front : value = '/' :: before ++ ['/', ' '] ++ after := by simp [shape]
    rw [split, ← endsWith_trim_append suffix ('/' :: before ++ ['/', ' ']) some, ← front,
      trim_eq_self trimmed]
  · rw [split] at options ⊢
    rcases splitFirst_trimmed trimmed with ⟨-, none⟩ | ⟨c, rest, shape, some, same⟩
    · exact absurd none options
    · have front : value = (splitFirst value).1 ++ [c] ++ rest := by
        rw [List.append_assoc, List.singleton_append]
        exact shape
      rw [same, ← endsWith_trim_append suffix ((splitFirst value).1 ++ [c]) some, ← front,
        trim_eq_self trimmed]

/-- Only slashes and white space are lost. -/
theorem count_splitTargetOptions {pattern : Char} (solid : isWhitespace pattern = false)
    (other : pattern ≠ '/') (value : Text) :
    (splitTargetOptions value).1.count pattern + (splitTargetOptions value).2.count pattern =
      value.count pattern := by
  rw [← splitTargetOptions_trim, ← count_trim solid value]
  rcases splitTargetOptions_cases (trimmed_trim value) with ⟨before, after, shape, -, split⟩ | split
  · have space : ' ' ≠ pattern := by
      rintro rfl
      cases solid
    rw [split, shape]
    simp [count_trim solid, other.symm, space]
  · rw [split, count_trim solid, count_splitFirst solid]

/-- An argument that keeps its slashes is cut behind its first word. -/
theorem splitTargetOptions_of_slashes {value : Text} (trimmed : Trimmed value)
    (keeps : (splitTargetOptions value).1.count '/' + (splitTargetOptions value).2.count '/' =
      value.count '/') :
    splitTargetOptions value = ((splitFirst value).1, trim (splitFirst value).2) := by
  rcases splitTargetOptions_cases trimmed with ⟨before, after, shape, -, split⟩ | split
  · rw [split] at keeps
    rw [shape] at keeps
    have solid : isWhitespace '/' = false := by decide
    simp only [List.count_cons, List.count_append, count_trim solid, beq_self_eq_true,
      if_true] at keeps
    omega
  · exact split

/-! ### Named options -/

theorem lookupOption_mem {name : Text} {tokens : List Text} {word : Text}
    (found : lookupOption name tokens = some word) : word ∈ tokens := by
  induction tokens with
  | nil => simp [lookupOption] at found
  | cons token rest inductionHypothesis =>
      by_cases same : token = name
      · simp only [lookupOption, same, if_true] at found
        exact List.mem_cons_of_mem _ (List.mem_of_mem_head? found)
      · simp only [lookupOption, same, if_false] at found
        exact List.mem_cons_of_mem _ (inductionHypothesis found)

end SmartDnsPlusUi
