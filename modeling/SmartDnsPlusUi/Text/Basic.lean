import Mathlib.Data.List.DropRight

/-!
# Texts and trimming

A text is the sequence of its Unicode scalar values.  The operations follow
the documented behaviour of the string methods of the same names: the notion
of white space is the Unicode property `White_Space`, and trimming removes the
longest run of such characters from an end.
-/

namespace SmartDnsPlusUi

/-- A string, as the sequence of its Unicode scalar values. -/
abbrev Text := List Char

instance : Coe String Text := ⟨String.toList⟩

instance : LawfulBEq Text := inferInstance

/-- `eq_ignore_ascii_case`. -/
def eqIgnoreAsciiCase (s t : Text) : Bool := s.map Char.toLower = t.map Char.toLower

namespace Text

/-- The Unicode property `White_Space`. -/
def isWhitespace (c : Char) : Bool :=
  let code := c.toNat
  (9 ≤ code && code ≤ 13) || code == 0x20 || code == 0x85 || code == 0xA0 ||
    code == 0x1680 || (0x2000 ≤ code && code ≤ 0x200A) || code == 0x2028 ||
    code == 0x2029 || code == 0x202F || code == 0x205F || code == 0x3000

@[simp] theorem isWhitespace_space : isWhitespace ' ' = true := rfl
@[simp] theorem isWhitespace_newline : isWhitespace '\n' = true := rfl
@[simp] theorem isWhitespace_return : isWhitespace '\r' = true := rfl
@[simp] theorem isWhitespace_hash : isWhitespace '#' = false := rfl
@[simp] theorem isWhitespace_slash : isWhitespace '/' = false := rfl
@[simp] theorem isWhitespace_backslash : isWhitespace '\\' = false := rfl
@[simp] theorem isWhitespace_comma : isWhitespace ',' = false := rfl

/-- Every character of the text is white space. -/
def Blank (t : Text) : Prop := ∀ c ∈ t, isWhitespace c = true

/-- No character of the text is white space. -/
def Solid (t : Text) : Prop := ∀ c ∈ t, isWhitespace c = false

/-- A nonempty text without white space. -/
def IsToken (t : Text) : Prop := t ≠ [] ∧ Solid t

/-- Neither the first nor the last character is white space. -/
def Trimmed (t : Text) : Prop :=
  (∀ c ∈ t.head?, isWhitespace c = false) ∧ ∀ c ∈ t.getLast?, isWhitespace c = false

instance (t : Text) : Decidable (Blank t) := List.decidableBAll (isWhitespace · = true) t
instance (t : Text) : Decidable (Solid t) := List.decidableBAll (isWhitespace · = false) t
instance (t : Text) : Decidable (IsToken t) := inferInstanceAs (Decidable (_ ∧ _))
instance (t : Text) : Decidable (Trimmed t) :=
  @instDecidableAnd _ _ (Option.decidableForallMem _) (Option.decidableForallMem _)

def trimStart (t : Text) : Text := t.dropWhile isWhitespace

def trimEnd (t : Text) : Text := t.rdropWhile isWhitespace

def trim (t : Text) : Text := trimEnd (trimStart t)

/-- `trim_end_matches` with one character as its pattern. -/
def trimEndMatches (pattern : Char) (t : Text) : Text := t.rdropWhile (· == pattern)

def endsWith (suffix : Char) (t : Text) : Bool := t.getLast? == some suffix

@[simp] theorem trimStart_nil : trimStart [] = [] := rfl
@[simp] theorem trimEnd_nil : trimEnd [] = [] := rfl
@[simp] theorem trim_nil : trim [] = [] := rfl

@[simp] theorem blank_nil : Blank [] := by simp [Blank]
@[simp] theorem solid_nil : Solid [] := by simp [Solid]
@[simp] theorem trimmed_nil : Trimmed [] := by simp [Trimmed]

@[simp] theorem blank_cons (c : Char) (t : Text) :
    Blank (c :: t) ↔ isWhitespace c = true ∧ Blank t := by simp [Blank]

@[simp] theorem blank_append (s t : Text) : Blank (s ++ t) ↔ Blank s ∧ Blank t := by
  simp [Blank, or_imp, forall_and]

@[simp] theorem solid_cons (c : Char) (t : Text) :
    Solid (c :: t) ↔ isWhitespace c = false ∧ Solid t := by simp [Solid]

@[simp] theorem solid_append (s t : Text) : Solid (s ++ t) ↔ Solid s ∧ Solid t := by
  simp [Solid, or_imp, forall_and]

theorem Solid.trimmed {t : Text} (solid : Solid t) : Trimmed t :=
  ⟨fun c membership => solid c (List.mem_of_mem_head? membership),
    fun c membership => solid c (List.mem_of_mem_getLast? membership)⟩

theorem Solid.no_newline {t : Text} (solid : Solid t) : '\n' ∉ t := fun present => by
  simpa using solid _ present

theorem IsToken.trimmed {t : Text} (token : IsToken t) : Trimmed t := token.2.trimmed

/-- Two nonempty trimmed texts are the ends of a trimmed text. -/
theorem Trimmed.append {s t : Text} (first : Trimmed s) (second : Trimmed t)
    (middle : Text) (nonempty : s ≠ []) (nonempty' : t ≠ []) :
    Trimmed (s ++ middle ++ t) := by
  obtain ⟨c, s, rfl⟩ := List.exists_cons_of_ne_nil nonempty
  refine ⟨by simpa [Trimmed] using first.1, ?_⟩
  intro last membership
  rw [List.getLast?_append_of_ne_nil _ nonempty'] at membership
  exact second.2 last membership

/-- Dropping from the end of a concatenation reaches its first part only when
nothing of the second part is left. -/
theorem rdropWhile_append (p : Char → Bool) (s t : Text) :
    (s ++ t).rdropWhile p =
      if t.rdropWhile p = [] then s.rdropWhile p else s ++ t.rdropWhile p := by
  rw [List.rdropWhile, List.reverse_append, List.dropWhile_append]
  by_cases empty : t.reverse.dropWhile p = [] <;> simp [List.rdropWhile, empty]

theorem trimStart_append_of_blank {w : Text} (blank : Blank w) (t : Text) :
    trimStart (w ++ t) = trimStart t := by
  rw [trimStart, List.dropWhile_append_of_pos blank, trimStart]

theorem trimEnd_append_of_blank (t : Text) {w : Text} (blank : Blank w) :
    trimEnd (t ++ w) = trimEnd t := by
  induction w using List.reverseRecOn with
  | nil => simp
  | append_singleton w c inductionHypothesis =>
      simp only [blank_append, blank_cons, blank_nil, and_true] at blank
      rw [← List.append_assoc, trimEnd, List.rdropWhile_concat_pos _ _ _ blank.2]
      exact inductionHypothesis blank.1

theorem trimStart_of_head {t : Text} (head : ∀ c ∈ t.head?, isWhitespace c = false) :
    trimStart t = t := by
  cases t with
  | nil => rfl
  | cons c t => simp [trimStart, head c (by simp)]

theorem trimEnd_of_last {t : Text} (last : ∀ c ∈ t.getLast?, isWhitespace c = false) :
    trimEnd t = t := by
  induction t using List.reverseRecOn with
  | nil => rfl
  | append_singleton t c _ =>
      have notSpace : isWhitespace c = false := last c (by simp)
      rw [trimEnd, List.rdropWhile_concat_neg _ _ _ (by simp [notSpace])]

/-- The one way to compute a trimmed text: white space, a trimmed core, white
space. -/
theorem trim_eq_of_split {a core b : Text} (before : Blank a) (after : Blank b)
    (trimmed : Trimmed core) : trim (a ++ core ++ b) = core := by
  rw [trim, List.append_assoc, trimStart_append_of_blank before]
  cases core with
  | nil =>
      have empty : trimStart b = [] := by
        rw [trimStart, List.dropWhile_eq_nil_iff]
        exact after
      simp [empty]
  | cons c core =>
      rw [trimStart_of_head (by simpa using trimmed.1), trimEnd_append_of_blank _ after]
      exact trimEnd_of_last trimmed.2

theorem trim_eq_self {t : Text} (trimmed : Trimmed t) : trim t = t := by
  simpa using trim_eq_of_split blank_nil blank_nil trimmed

theorem trimmed_trim (t : Text) : Trimmed (trim t) := by
  constructor
  · intro c membership
    have prefixed : trim t <+: trimStart t := List.rdropWhile_prefix _ _
    obtain ⟨rest, equality⟩ := prefixed
    have head : c ∈ (trimStart t).head? := by
      rw [← equality, List.head?_append]
      simp_all
    by_contra space
    have := List.head?_dropWhile_not isWhitespace t
    simp_all [trimStart]
  · intro c membership
    cases nonempty : trim t with
    | nil => simp [nonempty] at membership
    | cons d rest =>
        have last := List.rdropWhile_last_not isWhitespace (trimStart t)
          (by change trim t ≠ []; simp [nonempty])
        have same : (trim t).getLast (by simp [nonempty]) = c := by
          simpa [List.getLast?_eq_getLast_of_ne_nil, nonempty] using membership
        have same' : (List.rdropWhile isWhitespace (trimStart t)).getLast
            (by change trim t ≠ []; simp [nonempty]) = c := same
        simpa [same'] using last

theorem trim_split (t : Text) : ∃ a b, Blank a ∧ Blank b ∧ t = a ++ trim t ++ b := by
  refine ⟨t.takeWhile isWhitespace, (trimStart t).rtakeWhile isWhitespace, ?_, ?_, ?_⟩
  · intro c membership
    exact List.mem_takeWhile_imp membership
  · intro c membership
    exact List.mem_rtakeWhile_imp membership
  · rw [List.append_assoc, trim, trimEnd, List.rdropWhile_append_rtakeWhile, trimStart,
      List.takeWhile_append_dropWhile]

@[simp] theorem trim_trim (t : Text) : trim (trim t) = trim t := trim_eq_self (trimmed_trim t)

theorem trim_eq_nil_iff (t : Text) : trim t = [] ↔ Blank t := by
  constructor
  · intro empty
    obtain ⟨a, b, before, after, equality⟩ := trim_split t
    rw [equality, empty]
    simp [before, after]
  · intro blank
    simpa using trim_eq_of_split blank blank_nil trimmed_nil

theorem trim_append_of_blank (t : Text) {w : Text} (blank : Blank w) :
    trim (t ++ w) = trim t := by
  obtain ⟨a, b, before, after, equality⟩ := trim_split t
  conv_lhs => rw [equality, List.append_assoc]
  exact trim_eq_of_split before (by simp [after, blank]) (trimmed_trim t)

theorem trim_append_blank_left {w : Text} (blank : Blank w) (t : Text) :
    trim (w ++ t) = trim t := by
  rw [trim, trimStart_append_of_blank blank, trim]

@[simp] theorem trim_space_cons (t : Text) : trim (' ' :: t) = trim t :=
  trim_append_blank_left (w := [' ']) (by simp) t

theorem trimEnd_append_of_trimmed (s : Text) {t : Text} (trimmed : Trimmed t)
    (nonempty : t ≠ []) : trimEnd (s ++ t) = s ++ t := by
  have same : trimEnd t = t := trimEnd_of_last trimmed.2
  rw [trimEnd] at same ⊢
  simp [rdropWhile_append, same, nonempty]

theorem trimEnd_eq_nil_iff (t : Text) : trimEnd t = [] ↔ Blank t := by
  rw [trimEnd, List.rdropWhile_eq_nil_iff]
  rfl

/-- Trimming the end of a concatenation reaches its first part only when the
second part is blank. -/
theorem trimEnd_append (s t : Text) :
    trimEnd (s ++ t) = if trim t = [] then trimEnd s else s ++ trimEnd t := by
  have split := rdropWhile_append isWhitespace s t
  have empty : t.rdropWhile isWhitespace = [] ↔ trim t = [] :=
    (trimEnd_eq_nil_iff t).trans (trim_eq_nil_iff t).symm
  simpa only [empty, trimEnd] using split

theorem head?_trim_cons {c : Char} (visible : isWhitespace c = false) (t : Text) :
    (trim (c :: t)).head? = some c := by
  have split := rdropWhile_append isWhitespace [c] t
  rw [List.singleton_append] at split
  rw [trim, trimStart_of_head (by simpa using visible), trimEnd, split]
  by_cases empty : t.rdropWhile isWhitespace = []
  · rw [if_pos empty]
    simp [List.rdropWhile, visible]
  · simp [empty]

@[simp] theorem endsWith_nil (suffix : Char) : endsWith suffix [] = false := rfl

theorem endsWith_append (suffix : Char) (s : Text) {t : Text} (nonempty : t ≠ []) :
    endsWith suffix (s ++ t) = endsWith suffix t := by
  rw [endsWith, List.getLast?_append_of_ne_nil _ nonempty, endsWith]

theorem endsWith_of_not_mem {suffix : Char} {t : Text} (absent : suffix ∉ t) :
    endsWith suffix t = false := by
  by_contra ends
  rw [Bool.not_eq_false, endsWith, beq_iff_eq] at ends
  exact absent (List.mem_of_getLast? ends)

theorem endsWith_trim (suffix : Char) (t : Text) :
    endsWith suffix (trim t) = endsWith suffix (trimEnd t) := by
  by_cases empty : trim t = []
  · rw [empty, (trimEnd_eq_nil_iff t).mpr ((trim_eq_nil_iff t).mp empty)]
  · obtain ⟨a, b, before, after, equality⟩ := trim_split t
    have ended : trimEnd t = a ++ trim t := by
      conv_lhs => rw [equality, trimEnd_append_of_blank _ after]
      exact trimEnd_append_of_trimmed a (trimmed_trim t) empty
    rw [ended, endsWith_append suffix a empty]

/-- The end of a concatenation is the end of its last part that is not blank. -/
theorem endsWith_trim_append (suffix : Char) (s : Text) {t : Text} (nonempty : trim t ≠ []) :
    endsWith suffix (trim (s ++ t)) = endsWith suffix (trim t) := by
  have tail : trimEnd t ≠ [] := fun empty =>
    nonempty ((trim_eq_nil_iff t).mpr ((trimEnd_eq_nil_iff t).mp empty))
  rw [endsWith_trim, trimEnd_append, if_neg nonempty, endsWith_append suffix s tail, endsWith_trim]

theorem mem_of_mem_trim {c : Char} {t : Text} (membership : c ∈ trim t) : c ∈ t := by
  obtain ⟨a, b, -, -, equality⟩ := trim_split t
  rw [equality]
  simp [membership]

theorem trim_isInfix (t : Text) : trim t <:+: t := by
  obtain ⟨a, b, -, -, equality⟩ := trim_split t
  exact ⟨a, b, equality.symm⟩

theorem trimEnd_isPrefix (t : Text) : trimEnd t <+: t := List.rdropWhile_prefix _ _

@[simp] theorem trimEnd_trimEnd (t : Text) : trimEnd (trimEnd t) = trimEnd t :=
  List.rdropWhile_idempotent isWhitespace t

theorem trim_trimEnd (t : Text) : trim (trimEnd t) = trim t := by
  have split : t = trimEnd t ++ t.rtakeWhile isWhitespace :=
    List.rdropWhile_append_rtakeWhile.symm
  conv_rhs => rw [split]
  exact (trim_append_of_blank _ fun c membership => List.mem_rtakeWhile_imp membership).symm

end Text

end SmartDnsPlusUi
