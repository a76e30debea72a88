import SmartDnsPlusUi.Json.Value
import SmartDnsPlusUi.Text.Number

/-!
# Compact JSON

A value is written without white space and read back by a parser with one case for
each first character.  How a float is written is left to a format.
-/

namespace SmartDnsPlusUi.Json

open Text

def isNumberChar (c : Char) : Bool := c.isDigit || c = '-' || c = '+' || c = '.' || c = 'e'

/-- A notation of floats. -/
structure FloatFormat where
  write : UInt64 → Text
  read : Text → Option UInt64
  number : ∀ bits, ∀ c ∈ write bits, isNumberChar c = true
  point : ∀ bits, '.' ∈ write bits
  read_write : ∀ bits, isFiniteF64 bits = true → read (write bits) = some bits

section Format

variable (format : FloatFormat)

/-! ### Writing -/

def writeNumber : Number → Text
  | .posInt n => showNat n.toNat
  | .negInt n => '-' :: showNat n.toInt.natAbs
  | .float bits => format.write bits

mutual

def compact : Value → Text
  | .null => "null"
  | .bool b => if b then "true" else "false"
  | .number n => writeNumber format n
  | .string t => jsonString t
  | .array items => '[' :: compactItems items
  | .object members => '{' :: compactMembers members

/-- The items with the closing bracket. -/
def compactItems : List Value → Text
  | [] => [']']
  | item :: items => compact item ++ compactLaterItems items

def compactLaterItems : List Value → Text
  | [] => [']']
  | item :: items => ',' :: (compact item ++ compactLaterItems items)

/-- The members with the closing brace. -/
def compactMembers : List (Text × Value) → Text
  | [] => ['}']
  | (key, value) :: members =>
      jsonString key ++ ':' :: (compact value ++ compactLaterMembers members)

def compactLaterMembers : List (Text × Value) → Text
  | [] => ['}']
  | (key, value) :: members =>
      ',' :: (jsonString key ++ ':' :: (compact value ++ compactLaterMembers members))

end

/-! ### Reading -/

/-- Read the characters of a string, up to its closing quote. -/
def parseChars : Nat → Text → Option (Text × Text)
  | 0, _ => none
  | fuel + 1, t =>
      if t.head? = some '"' then some ([], t.tail)
      else do
        let (c, rest) ← unescapeChar t
        let (chars, rest) ← parseChars fuel rest
        some (c :: chars, rest)

def parseNumber (token : Text) : Option Number :=
  if '.' ∈ token then (format.read token).map .float
  else if token.head? = some '-' then
    some (.negInt (Int64.ofInt (-Nat.ofDigitChars 10 token.tail 0)))
  else some (.posInt (UInt64.ofNat (Nat.ofDigitChars 10 token 0)))

/-- What follows a word, if the text starts with it. -/
def expect (word t : Text) : Option Text := if word <+: t then some (t.drop word.length) else none

mutual

def parseValue : Nat → Text → Option (Value × Text)
  | 0, _ => none
  | fuel + 1, t =>
      if t.head? = some 'n' then (expect "null" t).map fun rest => (.null, rest)
      else if t.head? = some 't' then (expect "true" t).map fun rest => (.bool true, rest)
      else if t.head? = some 'f' then (expect "false" t).map fun rest => (.bool false, rest)
      else if t.head? = some '"' then
        (parseChars fuel t.tail).map fun (chars, rest) => (.string chars, rest)
      else if t.head? = some '[' then
        if t.tail.head? = some ']' then some (.array [], t.tail.tail)
        else (parseItems fuel t.tail).map fun (items, rest) => (.array items, rest)
      else if t.head? = some '{' then
        if t.tail.head? = some '}' then some (.object [], t.tail.tail)
        else (parseMembers fuel t.tail).map fun (members, rest) => (.ofMembers members, rest)
      else
        (parseNumber format (t.takeWhile isNumberChar)).map fun n =>
          (.number n, t.dropWhile isNumberChar)

def parseItems : Nat → Text → Option (List Value × Text)
  | 0, _ => none
  | fuel + 1, t => do
      let (item, rest) ← parseValue fuel t
      if rest.head? = some ']' then some ([item], rest.tail)
      else do
        let rest ← expect [','] rest
        let (items, rest) ← parseItems fuel rest
        some (item :: items, rest)

def parseMembers : Nat → Text → Option (List (Text × Value) × Text)
  | 0, _ => none
  | fuel + 1, t => do
      let rest ← expect ['"'] t
      let (key, rest) ← parseChars fuel rest
      let rest ← expect [':'] rest
      let (value, rest) ← parseValue fuel rest
      if rest.head? = some '}' then some ([(key, value)], rest.tail)
      else do
        let rest ← expect [','] rest
        let (members, rest) ← parseMembers fuel rest
        some ((key, value) :: members, rest)

end

def fromCompact (t : Text) : Except Text Value :=
  match parseValue format (2 * t.length + 1) t with
  | some (value, []) => .ok value
  | _ => .error "syntax error"

/-! ### Reading what was written -/

theorem parseChars_jsonString (t rest : Text) {fuel : Nat} (enough : t.length < fuel) :
    parseChars fuel (t.flatMap escapeChar ++ '"' :: rest) = some (t, rest) := by
  induction t generalizing fuel with
  | nil =>
      cases fuel with
      | zero => exact absurd enough (by simp)
      | succ fuel => rfl
  | cons c t inductionHypothesis =>
      cases fuel with
      | zero => exact absurd enough (by simp)
      | succ fuel =>
          have read := unescapeChar_escapeChar c (t.flatMap escapeChar ++ '"' :: rest)
          have noQuote : (escapeChar c ++ (t.flatMap escapeChar ++ '"' :: rest)).head? ≠ some '"' := by
            intro quote
            obtain ⟨tail, equality⟩ := List.head?_eq_some_iff.mp quote
            rw [equality] at read
            simp [unescapeChar] at read
          rw [List.flatMap_cons, List.append_assoc, parseChars, if_neg noQuote, read]
          simp [inductionHypothesis (Nat.lt_of_succ_lt_succ enough)]

/-- No number goes on in the text. -/
def Stops (rest : Text) : Prop := ∀ c ∈ rest.head?, isNumberChar c = false

theorem takeWhile_number {token rest : Text} (number : ∀ c ∈ token, isNumberChar c = true)
    (stops : Stops rest) :
    (token ++ rest).takeWhile isNumberChar = token ∧
      (token ++ rest).dropWhile isNumberChar = rest := by
  have boundary : rest.takeWhile isNumberChar = [] ∧ rest.dropWhile isNumberChar = rest := by
    cases rest with
    | nil => exact ⟨rfl, rfl⟩
    | cons c rest =>
        have outside := stops c rfl
        exact ⟨by simp [outside], by simp [outside]⟩
  rw [List.takeWhile_append_of_pos number, List.dropWhile_append_of_pos number, boundary.1,
    boundary.2, List.append_nil]
  exact ⟨rfl, rfl⟩

theorem isNumberChar_of_isDigit {c : Char} (digit : c.isDigit = true) : isNumberChar c = true := by
  simp [isNumberChar, digit]

theorem number_writeNumber (n : Number) : ∀ c ∈ writeNumber format n, isNumberChar c = true := by
  intro c listed
  cases n with
  | posInt n => exact isNumberChar_of_isDigit (isDigit_of_mem_showNat listed)
  | negInt n =>
      rcases List.mem_cons.mp listed with rfl | digit
      · decide
      · exact isNumberChar_of_isDigit (isDigit_of_mem_showNat digit)
  | float bits => exact format.number bits c listed

theorem parseNumber_writeNumber {n : Number} (canonical : n.IsCanonical) :
    parseNumber format (writeNumber format n) = some n := by
  have noPoint : ∀ n : Nat, '.' ∉ showNat n := fun n listed =>
    absurd (isDigit_of_mem_showNat listed) (by decide)
  have value : ∀ n : Nat, Nat.ofDigitChars 10 (showNat n) 0 = n :=
    fun n => Nat.ofDigitChars_ten_toDigits
  cases n with
  | posInt n =>
      have noSign : (showNat n.toNat).head? ≠ some '-' := fun head =>
        absurd (isDigit_of_mem_showNat (List.mem_of_mem_head? head)) (by decide)
      rw [parseNumber, writeNumber, if_neg (noPoint _), if_neg noSign, value, UInt64.ofNat_toNat]
  | negInt n =>
      have negative : n.toInt < 0 := by
        simpa using Int64.lt_iff_toInt_lt.mp canonical
      have absolute : -(n.toInt.natAbs : Int) = n.toInt := by omega
      have point : '.' ∉ '-' :: showNat n.toInt.natAbs := by
        simp [noPoint]
      rw [parseNumber, writeNumber, if_neg point, List.head?_cons, if_pos rfl, List.tail_cons,
        value, absolute, Int64.ofInt_toInt]
  | float bits =>
      rw [parseNumber, writeNumber, if_pos (format.point bits), format.read_write bits canonical]
      rfl

theorem writeNumber_ne_nil (n : Number) : writeNumber format n ≠ [] := by
  cases n with
  | posInt n => exact Nat.toDigits_ne_nil
  | negInt n => exact List.cons_ne_nil _ _
  | float bits => exact List.ne_nil_of_mem (format.point bits)

/-- The first character of a number. -/
theorem head_writeNumber (n : Number) (rest : Text) :
    ∃ c, (writeNumber format n ++ rest).head? = some c ∧ isNumberChar c = true := by
  obtain ⟨c, tail, equality⟩ := List.exists_cons_of_ne_nil (writeNumber_ne_nil format n)
  refine ⟨c, by simp [equality], number_writeNumber format n c ?_⟩
  rw [equality]
  exact List.mem_cons_self

/-- No value starts with a closing bracket. -/
theorem head_compact (value : Value) (rest : Text) :
    ∃ c, (compact format value ++ rest).head? = some c ∧ c ≠ ']' := by
  cases value with
  | null => exact ⟨'n', by simp [compact], by decide⟩
  | bool b => cases b <;> exact ⟨_, by rw [compact]; rfl, by decide⟩
  | number n =>
      obtain ⟨c, head, number⟩ := head_writeNumber format n rest
      refine ⟨c, by rw [compact]; exact head, ?_⟩
      rintro rfl
      exact absurd number (by decide)
  | string t => exact ⟨'"', by rw [compact]; rfl, by decide⟩
  | array items => exact ⟨'[', by rw [compact]; rfl, by decide⟩
  | object members => exact ⟨'{', by rw [compact]; rfl, by decide⟩

/-- The value is read from its text, whatever follows. -/
def IsRead (value : Value) : Prop :=
  ∀ (rest : Text) (fuel : Nat), Stops rest → 2 * (compact format value).length < fuel →
    parseValue format fuel (compact format value ++ rest) = some (value, rest)

theorem stops_cons {c : Char} (outside : isNumberChar c = false) (rest : Text) :
    Stops (c :: rest) := by
  intro d head
  rw [List.head?_cons, Option.mem_some_iff] at head
  exact head ▸ outside

theorem parseItems_compact {item : Value} {items : List Value} (first : IsRead format item)
    (later : ∀ item ∈ items, IsRead format item) (rest : Text) {fuel : Nat}
    (enough : 2 * (compactItems format (item :: items)).length < fuel) :
    parseItems format fuel (compactItems format (item :: items) ++ rest) =
      some (item :: items, rest) := by
  induction items generalizing item fuel with
  | nil =>
      cases fuel with
      | zero => exact absurd enough (by simp)
      | succ fuel =>
          rw [compactItems, compactLaterItems] at enough ⊢
          rw [List.length_append, List.length_singleton] at enough
          have read := first (']' :: rest) fuel (stops_cons (by decide) _) (by omega)
          rw [List.append_assoc, List.singleton_append, parseItems, read]
          simp
  | cons next items inductionHypothesis =>
      cases fuel with
      | zero => exact absurd enough (by simp)
      | succ fuel =>
          rw [List.forall_mem_cons] at later
          have shape : compactItems format (item :: next :: items) =
              compact format item ++ ',' :: compactItems format (next :: items) := by
            rw [compactItems, compactLaterItems, compactItems]
          rw [shape, List.length_append, List.length_cons] at enough
          have read := first (',' :: (compactItems format (next :: items) ++ rest)) fuel
            (stops_cons (by decide) _) (by omega)
          have others := inductionHypothesis later.1 later.2 (show _ < fuel by omega)
          rw [shape, List.append_assoc, List.cons_append, parseItems, read]
          simp [expect, others]

theorem length_le_jsonString (t : Text) : t.length + 2 ≤ (jsonString t).length := by
  have chars : t.length ≤ (t.flatMap escapeChar).length := by
    induction t with
    | nil => simp
    | cons c t inductionHypothesis =>
        have one : 1 ≤ (escapeChar c).length := by
          unfold escapeChar
          split_ifs <;> simp
        rw [List.flatMap_cons, List.length_append, List.length_cons]
        omega
  rw [jsonString, List.length_cons, List.length_append, List.length_singleton]
  omega

theorem parseMembers_compact {entry : Text × Value} {members : List (Text × Value)}
    (first : IsRead format entry.2) (later : ∀ entry ∈ members, IsRead format entry.2)
    (rest : Text) {fuel : Nat}
    (enough : 2 * (compactMembers format (entry :: members)).length < fuel) :
    parseMembers format fuel (compactMembers format (entry :: members) ++ rest) =
      some (entry :: members, rest) := by
  induction members generalizing entry fuel with
  | nil =>
      obtain ⟨key, value⟩ := entry
      cases fuel with
      | zero => exact absurd enough (by simp)
      | succ fuel =>
          rw [compactMembers, compactLaterMembers] at enough ⊢
          simp only [List.length_append, List.length_cons, List.length_nil] at enough
          have short := length_le_jsonString key
          have chars := parseChars_jsonString key
            (':' :: (compact format value ++ '}' :: rest)) (show _ < fuel by omega)
          have read := first ('}' :: rest) fuel (stops_cons (by decide) _) (by dsimp only; omega)
          rw [parseMembers]
          simp [jsonString, expect, chars, read]
  | cons next members inductionHypothesis =>
      obtain ⟨key, value⟩ := entry
      cases fuel with
      | zero => exact absurd enough (by simp)
      | succ fuel =>
          rw [List.forall_mem_cons] at later
          have shape : compactMembers format ((key, value) :: next :: members) =
              jsonString key ++ ':' :: (compact format value ++
                ',' :: compactMembers format (next :: members)) := by
            rw [compactMembers, compactLaterMembers, compactMembers]
          rw [shape] at enough ⊢
          simp only [List.length_append, List.length_cons] at enough
          have short := length_le_jsonString key
          have chars := parseChars_jsonString key (':' :: (compact format value ++
            ',' :: (compactMembers format (next :: members) ++ rest))) (show _ < fuel by omega)
          have read := first (',' :: (compactMembers format (next :: members) ++ rest)) fuel
            (stops_cons (by decide) _) (by dsimp only; omega)
          have others := inductionHypothesis later.1 later.2 (show _ < fuel by omega)
          rw [parseMembers]
          simp [jsonString, expect, chars, read, others]

theorem isRead_of_succ {value : Value}
    (read : ∀ (rest : Text) (fuel : Nat), Stops rest →
      2 * (compact format value).length ≤ fuel →
        parseValue format (fuel + 1) (compact format value ++ rest) = some (value, rest)) :
    IsRead format value := by
  intro rest fuel stops enough
  cases fuel with
  | zero => exact absurd enough (Nat.not_lt_zero _)
  | succ fuel => exact read rest fuel stops (Nat.le_of_lt_succ enough)

theorem isRead_of_isCanonical {value : Value} (canonical : IsCanonical value) :
    IsRead format value := by
  induction canonical with
  | null =>
      refine isRead_of_succ format fun rest fuel _ _ => ?_
      rw [compact, parseValue]
      simp [expect]
  | bool b =>
      refine isRead_of_succ format fun rest fuel _ _ => ?_
      rw [compact, parseValue]
      cases b <;> simp [expect]
  | @number n canonical =>
      refine isRead_of_succ format fun rest fuel stops _ => ?_
      obtain ⟨c, head, number⟩ := head_writeNumber format n rest
      obtain ⟨token, after⟩ := takeWhile_number (number_writeNumber format n) stops
      have others : ∀ d, isNumberChar d = false → ¬ some c = some d := by
        rintro d outside same
        rw [Option.some.inj same, outside] at number
        exact Bool.false_ne_true number
      rw [compact, parseValue, head, if_neg (others 'n' (by decide)),
        if_neg (others 't' (by decide)), if_neg (others 'f' (by decide)),
        if_neg (others '"' (by decide)), if_neg (others '[' (by decide)),
        if_neg (others '{' (by decide)), token, after, parseNumber_writeNumber format canonical]
      rfl
  | string t =>
      refine isRead_of_succ format fun rest fuel _ enough => ?_
      have short := length_le_jsonString t
      rw [compact] at enough ⊢
      have chars := parseChars_jsonString t rest (show _ < fuel by omega)
      rw [parseValue]
      simp [jsonString, chars]
  | @array items each inductionHypothesis =>
      refine isRead_of_succ format fun rest fuel _ enough => ?_
      cases items with
      | nil =>
          rw [compact, compactItems, parseValue]
          simp
      | cons item items =>
          rw [List.forall_mem_cons] at inductionHypothesis
          rw [compact, List.length_cons] at enough
          have read := parseItems_compact format inductionHypothesis.1 inductionHypothesis.2 rest
            (show _ < fuel by omega)
          obtain ⟨c, head, noBracket⟩ := head_compact format item
            (compactLaterItems format items ++ rest)
          have inside : (compactItems format (item :: items) ++ rest).head? ≠ some ']' := by
            rw [compactItems, List.append_assoc, head]
            simpa using noBracket
          rw [compact, List.cons_append, parseValue]
          generalize compactItems format (item :: items) ++ rest = t at read inside ⊢
          simp [inside, read]
  | @object members sorted each inductionHypothesis =>
      refine isRead_of_succ format fun rest fuel _ enough => ?_
      cases members with
      | nil =>
          rw [compact, compactMembers, parseValue]
          simp
      | cons entry members =>
          rw [List.forall_mem_cons] at inductionHypothesis
          rw [compact, List.length_cons] at enough
          have read := parseMembers_compact format inductionHypothesis.1 inductionHypothesis.2
            rest (show _ < fuel by omega)
          have whole : Value.ofMembers (entry :: members) = .object (entry :: members) :=
            congrArg Value.object (insertAll_of_isSorted sorted)
          have quote : (compactMembers format (entry :: members) ++ rest).head? = some '"' := by
            rw [compactMembers, jsonString]
            rfl
          rw [compact, List.cons_append, parseValue]
          generalize compactMembers format (entry :: members) ++ rest = t at read quote ⊢
          simp [quote, read, whole]

/-- Every canonical value is read back. -/
theorem fromCompact_compact {value : Value} (canonical : IsCanonical value) :
    fromCompact format (compact format value) = .ok value := by
  have read := isRead_of_isCanonical format canonical [] (2 * (compact format value).length + 1)
    (by simp [Stops]) (by omega)
  rw [List.append_nil] at read
  rw [fromCompact, read]

def compactLibrary : Library where
  toString := compact format
  fromStr := fromCompact format
  fromStr_toString _ canonical := fromCompact_compact format canonical

/-- An object of strings. -/
def stringMembers (entries : List (Text × Text)) : List (Text × Value) :=
  entries.map fun entry => (entry.1, .string entry.2)

theorem compactLaterMembers_stringMembers (entries : List (Text × Text)) :
    compactLaterMembers format (stringMembers entries) = jsonMembers entries := by
  induction entries with
  | nil => rw [stringMembers, List.map_nil, compactLaterMembers, jsonMembers]
  | cons entry entries inductionHypothesis =>
      rw [stringMembers, List.map_cons, compactLaterMembers, ← stringMembers,
        inductionHypothesis, compact, jsonMembers, jsonMember]

theorem compact_stringMembers (entries : List (Text × Text)) :
    compact format (.object (stringMembers entries)) = jsonObject entries := by
  cases entries with
  | nil => rw [stringMembers, List.map_nil, compact, compactMembers, jsonObject]
  | cons entry entries =>
      rw [stringMembers, List.map_cons, compact, compactMembers, ← stringMembers,
        compactLaterMembers_stringMembers, compact, jsonObject, jsonMember]

end Format

end SmartDnsPlusUi.Json
