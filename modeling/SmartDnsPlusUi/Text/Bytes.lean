import Mathlib.Data.List.Basic
import SmartDnsPlusUi.Text.Basic

/-!
# Byte indices

Strings are stored in UTF-8, and their indices count bytes.  A slice at an index that is not
at the start of a character, nor at the end, panics.
-/

namespace SmartDnsPlusUi.Text

def byteLength : Text → Nat
  | [] => 0
  | c :: t => c.utf8Size + byteLength t

/-- `find` of a character: the index of its first occurrence. -/
def findIndex (pattern : Char) : Text → Option Nat
  | [] => none
  | c :: t => if c = pattern then some 0 else (findIndex pattern t).map (c.utf8Size + ·)

/-- `[index..]`, or `none` where it panics. -/
def sliceFrom : Text → Nat → Option Text
  | t, 0 => some t
  | [], _ + 1 => none
  | c :: t, index + 1 =>
      if c.utf8Size ≤ index + 1 then sliceFrom t (index + 1 - c.utf8Size) else none

theorem byteLength_append (s t : Text) : byteLength (s ++ t) = byteLength s + byteLength t := by
  induction s with
  | nil => rw [List.nil_append, byteLength, Nat.zero_add]
  | cons c s inductionHypothesis =>
      rw [List.cons_append, byteLength, inductionHypothesis, byteLength, Nat.add_assoc]

theorem findIndex_eq_none_iff {pattern : Char} {t : Text} :
    findIndex pattern t = none ↔ pattern ∉ t := by
  induction t with
  | nil => simp [findIndex]
  | cons c t inductionHypothesis =>
      rw [findIndex, List.mem_cons, not_or]
      by_cases same : c = pattern
      · simp [same]
      · rw [if_neg same, Option.map_eq_none_iff, inductionHypothesis]
        exact ⟨fun absent => ⟨Ne.symm same, absent⟩, And.right⟩

theorem findIndex_append_cons {pattern : Char} {before : Text} (free : pattern ∉ before)
    (after : Text) : findIndex pattern (before ++ pattern :: after) = some (byteLength before) := by
  induction before with
  | nil => exact if_pos rfl
  | cons c before inductionHypothesis =>
      rw [List.mem_cons, not_or] at free
      rw [List.cons_append, findIndex, if_neg (Ne.symm free.1), inductionHypothesis free.2]
      rfl

/-- Between two characters a slice never panics. -/
theorem sliceFrom_append (before after : Text) :
    sliceFrom (before ++ after) (byteLength before) = some after := by
  induction before with
  | nil => rw [List.nil_append, byteLength, sliceFrom]
  | cons c before inductionHypothesis =>
      obtain ⟨size, positive⟩ := Nat.exists_eq_add_of_lt c.utf8Size_pos
      have index : byteLength (c :: before) = size + byteLength before + 1 := by
        rw [byteLength, positive]
        omega
      rw [index, List.cons_append, sliceFrom, if_pos (by omega),
        show size + byteLength before + 1 - c.utf8Size = byteLength before by omega]
      exact inductionHypothesis

/-- The text behind the first occurrence of a character of one byte. -/
theorem sliceFrom_findIndex {pattern : Char} (single : pattern.utf8Size = 1) {before : Text}
    (free : pattern ∉ before) (after : Text) :
    ∃ index, findIndex pattern (before ++ pattern :: after) = some index ∧
      sliceFrom (before ++ pattern :: after) (index + 1) = some after := by
  refine ⟨byteLength before, findIndex_append_cons free after, ?_⟩
  have whole : byteLength (before ++ [pattern]) = byteLength before + 1 := by
    rw [byteLength_append, byteLength, byteLength, single]
  rw [List.append_cons, ← whole]
  exact sliceFrom_append (before ++ [pattern]) after

end SmartDnsPlusUi.Text
