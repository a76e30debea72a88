import SmartDnsPlusUi.Text.Collect
import SmartDnsPlusUi.Text.Split

/-!
# Counting characters and words

White space apart, splitting and trimming keep every character, and a missing
gap between two words costs one word.
-/

namespace SmartDnsPlusUi.Text

variable {pattern : Char}

theorem count_of_blank (solid : isWhitespace pattern = false) {t : Text} (blank : Blank t) :
    t.count pattern = 0 := by
  apply List.count_eq_zero_of_not_mem
  intro present
  simp [blank pattern present] at solid

theorem count_trim (solid : isWhitespace pattern = false) (t : Text) :
    (trim t).count pattern = t.count pattern := by
  obtain ⟨a, b, before, after, equality⟩ := trim_split t
  conv_rhs => rw [equality, List.count_append, List.count_append, count_of_blank solid before,
    count_of_blank solid after]
  omega

theorem count_splitFirst (solid : isWhitespace pattern = false) (t : Text) :
    (splitFirst t).1.count pattern + (splitFirst t).2.count pattern = t.count pattern := by
  rcases splitFirst_cases t with ⟨-, split⟩ | ⟨word, c, rest, rfl, -, space, split⟩
  · simp [split]
  · have other : c ≠ pattern := by
      rintro rfl
      simp [space] at solid
    simp [split, other]

/-- How often the character occurs in a list of lines. -/
def countIn (pattern : Char) (ls : List Text) : Nat := total (·.count pattern) ls

@[simp] theorem countIn_nil (pattern : Char) : countIn pattern [] = 0 := rfl

@[simp] theorem countIn_cons (pattern : Char) (line : Text) (ls : List Text) :
    countIn pattern (line :: ls) = line.count pattern + countIn pattern ls := by
  simp [countIn]

@[simp] theorem countIn_append (pattern : Char) (ls rest : List Text) :
    countIn pattern (ls ++ rest) = countIn pattern ls + countIn pattern rest := by
  simp [countIn]

theorem countIn_map {Item : Type} (line : Item → Text) (items : List Item) :
    countIn pattern (items.map line) = total (fun item => (line item).count pattern) items :=
  total_map _ line items

theorem countIn_map_trim (solid : isWhitespace pattern = false) (ls : List Text) :
    countIn pattern (ls.map trim) = countIn pattern ls := by
  simp [countIn, total_map, count_trim solid]

theorem countIn_filter_ne_nil (ls : List Text) :
    countIn pattern (ls.filter (· ≠ [])) = countIn pattern ls := by
  induction ls with
  | nil => rfl
  | cons line ls inductionHypothesis =>
      by_cases empty : line = []
      · simpa [empty] using inductionHypothesis
      · simpa [empty] using inductionHypothesis

/-- Splitting into words drops nothing but white space. -/
theorem countIn_splitWhitespace (solid : isWhitespace pattern = false) (t : Text) :
    countIn pattern (splitWhitespace t) = t.count pattern := by
  rw [splitWhitespace, countIn_filter_ne_nil]
  induction t with
  | nil => rfl
  | cons c t inductionHypothesis =>
      rw [List.splitOnP_cons_eq_if_modifyHead]
      by_cases space : isWhitespace c = true
      · have other : c ≠ pattern := by
          rintro rfl
          simp [space] at solid
        simpa [space, other] using inductionHypothesis
      · obtain ⟨head, tail, equality⟩ :=
          List.exists_cons_of_ne_nil (List.splitOnP_ne_nil isWhitespace t)
        rw [equality, countIn_cons] at inductionHypothesis
        simp only [space, equality, List.modifyHead_cons, List.count_cons, Bool.false_eq_true,
          if_false, countIn_cons]
        omega

theorem splitWhitespace_cons_of_space {c : Char} (space : isWhitespace c = true) (t : Text) :
    splitWhitespace (c :: t) = splitWhitespace t :=
  splitWhitespace_blank_append (w := [c]) (by simp [space]) t

/-- A character opens a word unless it is white space or the next one is not. -/
theorem length_splitWhitespace_cons {c : Char} (solid : isWhitespace c = false) (t : Text) :
    (splitWhitespace (c :: t)).length =
      (splitWhitespace t).length +
        if t.head?.all isWhitespace = true then 1 else 0 := by
  cases t with
  | nil => simp [splitWhitespace_of_token (t := [c]) ⟨by simp, by simp [solid]⟩]
  | cons d t =>
      by_cases space : isWhitespace d = true
      · have split := splitWhitespace_append_cons [c] t space
        rw [splitWhitespace_of_token (t := [c]) ⟨by simp, by simp [solid]⟩] at split
        have whole : splitWhitespace (c :: d :: t) = [c] :: splitWhitespace t := split
        simp [whole, splitWhitespace_cons_of_space space, space]
      · obtain ⟨head, tail, equality⟩ :=
          List.exists_cons_of_ne_nil (List.splitOnP_ne_nil isWhitespace t)
        have second : List.splitOnP isWhitespace (d :: t) = (d :: head) :: tail := by
          simp [List.splitOnP_cons_eq_if_modifyHead, space, equality]
        have first : List.splitOnP isWhitespace (c :: d :: t) = (c :: d :: head) :: tail := by
          rw [List.splitOnP_cons_eq_if_modifyHead, second]
          simp [solid]
        simp [splitWhitespace, first, second, space]

/-- Running two words into one loses a word. -/
theorem length_splitWhitespace_joined (s : Text) {d c : Char} (last : isWhitespace d = false)
    (first : isWhitespace c = false) (t : Text) :
    (splitWhitespace (s ++ d :: c :: t)).length + 1 =
      (splitWhitespace (s ++ [d])).length + (splitWhitespace (c :: t)).length := by
  induction s with
  | nil =>
      rw [List.nil_append, List.nil_append, length_splitWhitespace_cons last,
        length_splitWhitespace_cons last]
      simp [first]
      omega
  | cons e s inductionHypothesis =>
      rw [List.cons_append, List.cons_append]
      by_cases space : isWhitespace e = true
      · rw [splitWhitespace_cons_of_space space, splitWhitespace_cons_of_space space]
        exact inductionHypothesis
      · rw [length_splitWhitespace_cons (by simpa using space),
          length_splitWhitespace_cons (by simpa using space)]
        have heads : (s ++ d :: c :: t).head? = (s ++ [d]).head? := by cases s <;> rfl
        rw [heads]
        omega

/-- The words of a concatenation are the words of its parts exactly when white
space separates the parts. -/
theorem splitWhitespace_append_iff {s : Text} (t : Text) (nonempty : s ≠ [])
    (last : ∀ c ∈ s.getLast?, isWhitespace c = false) :
    splitWhitespace (s ++ t) = splitWhitespace s ++ splitWhitespace t ↔
      ∀ c ∈ t.head?, isWhitespace c = true := by
  cases t with
  | nil => simp
  | cons c t =>
      by_cases space : isWhitespace c = true
      · simp [splitWhitespace_append_cons s t space, splitWhitespace_cons_of_space space, space]
      · refine iff_of_false ?_ (by simpa using space)
        intro same
        obtain ⟨s, d, rfl⟩ := (List.eq_nil_or_concat' s).resolve_left nonempty
        have lengths := congrArg List.length same
        have joined := length_splitWhitespace_joined s (last d (by simp))
          (by simpa using space) t
        rw [List.append_assoc, List.singleton_append, List.length_append] at lengths
        omega

end SmartDnsPlusUi.Text
