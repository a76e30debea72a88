import Mathlib.Data.List.Basic
import SmartDnsPlusUi.Text.Basic

/-!
# JSON texts

Strings and objects of strings, written as compact JSON.  A text that was written
can be read in one way only.
-/

namespace SmartDnsPlusUi.Text

def hexDigit (n : Nat) : Char := Char.ofNat (if n < 10 then 48 + n else 87 + n)

def hexValue (c : Char) : Nat := if c.toNat < 87 then c.toNat - 48 else c.toNat - 87

def escapeChar (c : Char) : Text :=
  if c = '"' then ['\\', '"']
  else if c = '\\' then ['\\', '\\']
  else if c = '\n' then ['\\', 'n']
  else if c = '\r' then ['\\', 'r']
  else if c = '\t' then ['\\', 't']
  else if c = '\x08' then ['\\', 'b']
  else if c = '\x0c' then ['\\', 'f']
  else if c.toNat < 0x20 then
    ['\\', 'u', '0', '0', hexDigit (c.toNat / 16), hexDigit (c.toNat % 16)]
  else [c]

/-- Read one character of a string back, with what follows it. -/
def unescapeChar : Text → Option (Char × Text)
  | [] => none
  | c :: rest =>
      if c = '"' then none
      else if c = '\\' then
        match rest with
        | [] => none
        | kind :: rest =>
            if kind = 'n' then some ('\n', rest)
            else if kind = 'r' then some ('\r', rest)
            else if kind = 't' then some ('\t', rest)
            else if kind = 'b' then some ('\x08', rest)
            else if kind = 'f' then some ('\x0c', rest)
            else if kind = 'u' then
              match rest with
              | _ :: _ :: high :: low :: rest =>
                  some (Char.ofNat (16 * hexValue high + hexValue low), rest)
              | _ => none
            else some (kind, rest)
      else some (c, rest)

theorem hexValue_hexDigit : ∀ n < 32,
    16 * hexValue (hexDigit (n / 16)) + hexValue (hexDigit (n % 16)) = n := by
  decide

theorem unescapeChar_escapeChar (c : Char) (t : Text) :
    unescapeChar (escapeChar c ++ t) = some (c, t) := by
  unfold escapeChar
  split_ifs with quote backslash newline carriage tab backspace feed control
  · subst quote
    rfl
  · subst backslash
    rfl
  · subst newline
    rfl
  · subst carriage
    rfl
  · subst tab
    rfl
  · subst backspace
    rfl
  · subst feed
    rfl
  · have value := hexValue_hexDigit c.toNat control
    simp [unescapeChar, value]
  · simp [unescapeChar, quote, backslash]

/-- A quoted string. -/
def jsonString (t : Text) : Text := '"' :: (t.flatMap escapeChar ++ ['"'])

theorem escaped_injective {s t u v : Text}
    (same : s.flatMap escapeChar ++ '"' :: u = t.flatMap escapeChar ++ '"' :: v) :
    s = t ∧ u = v := by
  induction s generalizing t with
  | nil =>
      cases t with
      | nil => exact ⟨rfl, List.tail_eq_of_cons_eq same⟩
      | cons d t =>
          rw [List.flatMap_cons, List.append_assoc] at same
          have read := congrArg unescapeChar same
          rw [unescapeChar_escapeChar] at read
          cases read
  | cons c s inductionHypothesis =>
      cases t with
      | nil =>
          rw [List.flatMap_cons, List.append_assoc] at same
          have read := congrArg unescapeChar same
          rw [unescapeChar_escapeChar] at read
          cases read
      | cons d t =>
          rw [List.flatMap_cons, List.flatMap_cons, List.append_assoc, List.append_assoc] at same
          have read := congrArg unescapeChar same
          rw [unescapeChar_escapeChar, unescapeChar_escapeChar] at read
          obtain ⟨head, rest⟩ := Prod.mk.inj (Option.some.inj read)
          obtain ⟨tail, after⟩ := inductionHypothesis rest
          exact ⟨congrArg₂ List.cons head tail, after⟩

theorem jsonString_append_injective {s t u v : Text}
    (same : jsonString s ++ u = jsonString t ++ v) : s = t ∧ u = v := by
  unfold jsonString at same
  rw [List.cons_append, List.cons_append, List.append_assoc, List.append_assoc] at same
  exact escaped_injective (List.tail_eq_of_cons_eq same)

/-! ### Objects -/

/-- The order of the keys of an object. -/
def keyLe : Text → Text → Bool
  | [], _ => true
  | _ :: _, [] => false
  | c :: s, d :: t => c.toNat < d.toNat || c = d && keyLe s t

theorem keyLe_total (s t : Text) : (keyLe s t || keyLe t s) = true := by
  induction s generalizing t with
  | nil => rfl
  | cons c s inductionHypothesis =>
      cases t with
      | nil => rfl
      | cons d t =>
          have rest := inductionHypothesis t
          rcases Nat.lt_trichotomy c.toNat d.toNat with below | same | above
          · simp [keyLe, below]
          · have equal := Char.toNat_inj.mp same
            subst equal
            simpa [keyLe] using rest
          · simp [keyLe, above]

theorem keyLe_trans (s t u : Text) (first : keyLe s t = true) (second : keyLe t u = true) :
    keyLe s u = true := by
  induction s generalizing t u with
  | nil => rfl
  | cons c s inductionHypothesis =>
      cases t with
      | nil => cases first
      | cons d t =>
          cases u with
          | nil => cases second
          | cons e u =>
              simp only [keyLe, Bool.or_eq_true, Bool.and_eq_true, decide_eq_true_eq] at *
              rcases first with below | ⟨rfl, first⟩
              · rcases second with below' | ⟨rfl, -⟩
                · exact Or.inl (Nat.lt_trans below below')
                · exact Or.inl below
              · rcases second with below' | ⟨rfl, second⟩
                · exact Or.inl below'
                · exact Or.inr ⟨rfl, inductionHypothesis t u first second⟩

theorem keyLe_antisymm {s t : Text} (first : keyLe s t = true) (second : keyLe t s = true) :
    s = t := by
  induction s generalizing t with
  | nil =>
      cases t with
      | nil => rfl
      | cons d t => cases second
  | cons c s inductionHypothesis =>
      cases t with
      | nil => cases first
      | cons d t =>
          simp only [keyLe, Bool.or_eq_true, Bool.and_eq_true, decide_eq_true_eq] at *
          rcases first with below | ⟨rfl, first⟩
          · rcases second with above | ⟨rfl, -⟩
            · exact absurd below (Nat.lt_asymm above)
            · exact absurd below (Nat.lt_irrefl _)
          · rcases second with above | ⟨-, second⟩
            · exact absurd above (Nat.lt_irrefl _)
            · rw [inductionHypothesis first second]

/-- A member of an object, with what follows it. -/
def jsonMember (entry : Text × Text) (rest : Text) : Text :=
  jsonString entry.1 ++ ':' :: (jsonString entry.2 ++ rest)

def jsonMembers : List (Text × Text) → Text
  | [] => ['}']
  | entry :: entries => ',' :: jsonMember entry (jsonMembers entries)

/-- The members in order, separated by commas and enclosed in braces. -/
def jsonObject : List (Text × Text) → Text
  | [] => ['{', '}']
  | entry :: entries => '{' :: jsonMember entry (jsonMembers entries)

theorem jsonMember_injective {entry other : Text × Text} {u v : Text}
    (same : jsonMember entry u = jsonMember other v) : entry = other ∧ u = v := by
  obtain ⟨key, rest⟩ := jsonString_append_injective same
  obtain ⟨value, after⟩ := jsonString_append_injective (List.tail_eq_of_cons_eq rest)
  exact ⟨Prod.ext key value, after⟩

theorem jsonMembers_injective {entries others : List (Text × Text)}
    (same : jsonMembers entries = jsonMembers others) : entries = others := by
  induction entries generalizing others with
  | nil =>
      cases others with
      | nil => rfl
      | cons other others => exact absurd (List.head_eq_of_cons_eq same) (by decide)
  | cons entry entries inductionHypothesis =>
      cases others with
      | nil => exact absurd (List.head_eq_of_cons_eq same) (by decide)
      | cons other others =>
          obtain ⟨first, rest⟩ := jsonMember_injective (List.tail_eq_of_cons_eq same)
          rw [first, inductionHypothesis rest]

/-- An object can be read back. -/
theorem jsonObject_injective {entries others : List (Text × Text)}
    (same : jsonObject entries = jsonObject others) : entries = others := by
  cases entries with
  | nil =>
      cases others with
      | nil => rfl
      | cons other others =>
          exact absurd (List.head_eq_of_cons_eq (List.tail_eq_of_cons_eq same)) (by decide)
  | cons entry entries =>
      cases others with
      | nil => exact absurd (List.head_eq_of_cons_eq (List.tail_eq_of_cons_eq same)) (by decide)
      | cons other others =>
          obtain ⟨first, rest⟩ := jsonMember_injective (List.tail_eq_of_cons_eq same)
          rw [first, jsonMembers_injective rest]

end SmartDnsPlusUi.Text
