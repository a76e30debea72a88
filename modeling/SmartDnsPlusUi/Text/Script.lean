import SmartDnsPlusUi.Text.Count

/-!
# The trimming of scripts

JavaScript's white space differs from the property `White_Space` in two
characters: the next line character is none, and the byte order mark is.
-/

namespace SmartDnsPlusUi.Text

def byteOrderMark : Char := '\uFEFF'

/-- The characters that `\s` matches and that the method `trim` of a script removes. -/
def isScriptSpace (c : Char) : Bool :=
  c = byteOrderMark || (isWhitespace c && c ≠ '\u0085')

def scriptTrim (t : Text) : Text := (t.dropWhile isScriptSpace).rdropWhile isScriptSpace

theorem scriptTrim_split (t : Text) :
    ∃ a b, (∀ c ∈ a, isScriptSpace c = true) ∧ (∀ c ∈ b, isScriptSpace c = true) ∧
      t = a ++ scriptTrim t ++ b := by
  refine ⟨t.takeWhile isScriptSpace, (t.dropWhile isScriptSpace).rtakeWhile isScriptSpace,
    fun c membership => List.mem_takeWhile_imp membership,
    fun c membership => List.mem_rtakeWhile_imp membership, ?_⟩
  rw [List.append_assoc, scriptTrim, List.rdropWhile_append_rtakeWhile,
    List.takeWhile_append_dropWhile]

theorem scriptTrim_isInfix (t : Text) : scriptTrim t <:+: t := by
  obtain ⟨a, b, -, -, equality⟩ := scriptTrim_split t
  exact ⟨a, b, equality.symm⟩

theorem Solid.eq_byteOrderMark {c : Char} (solid : isWhitespace c = false)
    (space : isScriptSpace c = true) : c = byteOrderMark := by
  simpa [isScriptSpace, solid] using space

/-- Of a text without white space `scriptTrim` removes byte order marks only. -/
theorem Solid.scriptTrim_eq_self {t : Text} (solid : Solid t)
    (kept : t.count byteOrderMark ≤ (scriptTrim t).count byteOrderMark) : scriptTrim t = t := by
  obtain ⟨a, b, before, after, equality⟩ := scriptTrim_split t
  have marks : ∀ s : Text, (∀ c ∈ s, isScriptSpace c = true) → (∀ c ∈ s, c ∈ t) →
      s.count byteOrderMark = s.length := by
    intro s spaces inside
    rw [List.count_eq_length]
    exact fun c membership =>
      (Solid.eq_byteOrderMark (solid c (inside c membership)) (spaces c membership)).symm
  have first := marks a before fun c membership => by rw [equality]; simp [membership]
  have last := marks b after fun c membership => by rw [equality]; simp [membership]
  have counts := congrArg (List.count byteOrderMark) equality
  rw [List.count_append, List.count_append] at counts
  have none : a.length = 0 ∧ b.length = 0 := by omega
  rw [List.length_eq_zero_iff, List.length_eq_zero_iff] at none
  rw [none.1, none.2] at equality
  simpa using equality.symm

/-! ### Texts without the two characters -/

/-- Both notions of white space agree on the characters of the text. -/
def HasPlainSpaces (t : Text) : Prop := ∀ c ∈ t, isScriptSpace c = isWhitespace c

instance (t : Text) : Decidable (HasPlainSpaces t) :=
  List.decidableBAll (fun c => isScriptSpace c = isWhitespace c) t

theorem HasPlainSpaces.subset {s t : Text} (plain : HasPlainSpaces t) (inside : s ⊆ t) :
    HasPlainSpaces s := fun c membership => plain c (inside membership)

theorem dropWhile_eq_of_agree {p q : Char → Bool} {t : Text} (agree : ∀ c ∈ t, p c = q c) :
    t.dropWhile p = t.dropWhile q := by
  induction t with
  | nil => rfl
  | cons c t inductionHypothesis =>
      rw [List.forall_mem_cons] at agree
      rw [List.dropWhile_cons, List.dropWhile_cons, agree.1, inductionHypothesis agree.2]

theorem takeWhile_eq_of_agree {p q : Char → Bool} {t : Text} (agree : ∀ c ∈ t, p c = q c) :
    t.takeWhile p = t.takeWhile q := by
  induction t with
  | nil => rfl
  | cons c t inductionHypothesis =>
      rw [List.forall_mem_cons] at agree
      rw [List.takeWhile_cons, List.takeWhile_cons, agree.1, inductionHypothesis agree.2]

theorem scriptTrim_eq_trim {t : Text} (plain : HasPlainSpaces t) : scriptTrim t = trim t := by
  have start : t.dropWhile isScriptSpace = trimStart t := dropWhile_eq_of_agree plain
  have inside : (trimStart t).reverse ⊆ t := fun c membership =>
    (List.dropWhile_suffix _).subset (List.mem_reverse.mp membership)
  rw [scriptTrim, start, trim, trimEnd, List.rdropWhile, List.rdropWhile,
    dropWhile_eq_of_agree (plain.subset inside)]

end SmartDnsPlusUi.Text
