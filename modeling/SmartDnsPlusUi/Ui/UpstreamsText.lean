import SmartDnsPlusUi.Config.UpstreamPage
import SmartDnsPlusUi.Text.Script

/-!
# The upstream servers that the page shows

The page reads the file of the upstream servers with a parser of its own.  It
matches each line with a regular expression, without merging continued lines,
and removes the quotes around an argument.
-/

namespace SmartDnsPlusUi

open Text

/-- The line terminators of regular expressions. -/
def isLineTerminator (c : Char) : Bool :=
  c = '\n' || c = '\r' || c = '\u2028' || c = '\u2029'

/-- What the dot of a regular expression matches. -/
def IsOneLine (t : Text) : Prop := ∀ c ∈ t, isLineTerminator c = false

instance (t : Text) : Decidable (IsOneLine t) := List.decidableBAll (isLineTerminator · = false) t

def IsQuoted (t : Text) : Prop := t.head? = some '"' ∧ endsWith '"' t = true

instance (t : Text) : Decidable (IsQuoted t) := inferInstanceAs (Decidable (_ ∧ _))

def stripQuotes (t : Text) : Text := if IsQuoted t then t.tail.dropLast else t

/-- The token read so far, unless it is empty. -/
def endToken (token : Text) : List Text := if token = [] then [] else [token]

/-- The matches of `(?:[^\s"]+|"[^"]*")+`; `token` is the match read so far and
`quoted` tells that its last quote is open.  A quote that is never closed
belongs to no match. -/
def scanTokens (token : Text) (quoted : Bool) : Text → List Text
  | [] => endToken token
  | c :: rest =>
      if quoted then scanTokens (token ++ [c]) (c ≠ '"') rest
      else if c = '"' then
        if '"' ∈ rest then scanTokens (token ++ [c]) true rest
        else endToken token ++ scanTokens [] false rest
      else if isScriptSpace c then endToken token ++ scanTokens [] false rest
      else scanTokens (token ++ [c]) false rest

def tokenizeArgs (text : Text) : List Text := scanTokens [] false text

/-- The loop of `parseManagedUpstream`.  No token is empty, so that
`tokens[i+1]` is false behind the last token only. -/
def scanManagedTokens (item : UpstreamConfig) (passthrough : List Text) :
    List Text → UpstreamConfig × List Text
  | [] => (item, passthrough)
  | [token] =>
      match upstreamOption token with
      | .excludeDefaultGroup => ({ item with excludeDefaultGroup := true }, passthrough)
      | .fallback => ({ item with fallback := true }, passthrough)
      | _ => (item, passthrough ++ [token])
  | token :: next :: rest =>
      match upstreamOption token with
      | .excludeDefaultGroup =>
          scanManagedTokens { item with excludeDefaultGroup := true } passthrough (next :: rest)
      | .fallback => scanManagedTokens { item with fallback := true } passthrough (next :: rest)
      | .other =>
          if next.head? = some '-' then
            scanManagedTokens item (passthrough ++ [token]) (next :: rest)
          else scanManagedTokens item (passthrough ++ [token, next]) rest
      | option => scanManagedTokens (setArgument item option (stripQuotes next)) passthrough rest

def managedKind (kind : String) : String := if kind = "server-h3" then "server-http3" else kind

def parseManagedUpstream (kind : String) (value options : Text) : UpstreamConfig :=
  let (item, passthrough) :=
    scanManagedTokens { kind := managedKind kind, value } [] (tokenizeArgs options)
  { item with options := join [' '] (passthrough.map stripQuotes) }

def serverKeywords : List String :=
  ["server", "server-tcp", "server-tls", "server-https", "server-quic", "server-http3",
    "server-h3"]

/-- The groups of the regular expression for a line. -/
structure ServerMatch where
  key : String
  value : Text
  options : Text
  deriving DecidableEq

/-- The match of `^(server|…|server-h3)\s+(\S+)(?:\s+(.*))?$`. -/
def matchServerLine (line : Text) : Option ServerMatch :=
  let key := String.ofList (line.takeWhile (!isScriptSpace ·))
  let rest := (line.dropWhile (!isScriptSpace ·)).dropWhile isScriptSpace
  let value := rest.takeWhile (!isScriptSpace ·)
  let options := (rest.dropWhile (!isScriptSpace ·)).dropWhile isScriptSpace
  if key ∈ serverKeywords ∧ value ≠ [] ∧ IsOneLine options then
    some { key, value, options }
  else none

/-- What the page makes of one line. -/
def readManagedUpstream (raw : Text) : Option UpstreamConfig :=
  let line := scriptTrim raw
  if line = [] ∨ line.head? = some '#' then none
  else (matchServerLine line).map fun m =>
    parseManagedUpstream m.key (stripQuotes m.value) m.options

def parseManagedUpstreamsText (text : Text) : List UpstreamConfig :=
  (text.splitOn '\n').filterMap readManagedUpstream

/-! ### Words without quoting -/

/-- The quotes of the word are paired, and none are around it. -/
structure IsPlainWord (word : Text) : Prop where
  paired : word.count '"' % 2 = 0
  not_quoted : ¬ IsQuoted word

instance (word : Text) : Decidable (IsPlainWord word) :=
  decidable_of_iff (word.count '"' % 2 = 0 ∧ ¬ IsQuoted word)
    ⟨fun both => ⟨both.1, both.2⟩, fun plain => ⟨plain.paired, plain.not_quoted⟩⟩

theorem stripQuotes_of_not_quoted {t : Text} (plain : ¬ IsQuoted t) : stripQuotes t = t :=
  if_neg plain

theorem endToken_eq_splitWhitespace {token : Text} (solid : Solid token) :
    endToken token = splitWhitespace token := by
  by_cases empty : token = []
  · simp [endToken, empty]
  · rw [endToken, if_neg empty, splitWhitespace_of_token ⟨empty, solid⟩]

/-- A quote that opens inside a word is closed in it. -/
theorem quote_mem_of_paired {token t : Text} (isToken : IsToken token)
    (odd : token.count '"' % 2 = 1)
    (paired : ∀ word ∈ splitWhitespace (token ++ t), word.count '"' % 2 = 0) : '"' ∈ t := by
  by_contra missing
  have first := paired _ (splitWhitespace_token_append isToken t ▸ List.mem_cons_self)
  have none : (t.takeWhile (!isWhitespace ·)).count '"' = 0 :=
    List.count_eq_zero.mpr fun membership =>
      missing ((List.takeWhile_prefix _).subset membership)
  rw [List.count_append, none] at first
  omega

/-- Where the quotes of every word are paired, the tokens are the words. -/
theorem scanTokens_eq_splitWhitespace {t token : Text} {quoted : Bool} (solid : Solid token)
    (spaces : ∀ c ∈ t, isScriptSpace c = isWhitespace c)
    (parity : token.count '"' % 2 = if quoted then 1 else 0)
    (paired : ∀ word ∈ splitWhitespace (token ++ t), word.count '"' % 2 = 0) :
    scanTokens token quoted t = splitWhitespace (token ++ t) := by
  induction t generalizing token quoted with
  | nil => rw [scanTokens, List.append_nil, endToken_eq_splitWhitespace solid]
  | cons c t inductionHypothesis =>
      have spacesTail := fun d membership => spaces d (List.mem_cons_of_mem c membership)
      have extended : token ++ c :: t = (token ++ [c]) ++ t := by simp
      by_cases space : isWhitespace c = true
      · -- white space ends a word, whose quotes are paired
        have split := splitWhitespace_append_cons token t space
        have closed : quoted = false := by
          by_contra opened
          have odd : token.count '"' % 2 = 1 := by
            simpa [Bool.eq_true_of_not_eq_false opened] using parity
          have nonempty : token ≠ [] := by
            rintro rfl
            simp at odd
          have word := paired token
            (by simp [split, splitWhitespace_of_token ⟨nonempty, solid⟩])
          omega
        have noQuote : c ≠ '"' := by
          rintro rfl
          exact absurd space (by decide)
        have script := (spaces c List.mem_cons_self).trans space
        rw [split, ← endToken_eq_splitWhitespace solid, scanTokens]
        simp only [closed, Bool.false_eq_true, if_false, noQuote, script, if_true]
        rw [inductionHypothesis solid_nil spacesTail (by simp) ?_, List.nil_append]
        intro word membership
        apply paired word
        rw [split]
        exact List.mem_append_right _ membership
      · have visible : isWhitespace c = false := by simpa using space
        have script := (spaces c List.mem_cons_self).trans visible
        have longer : Solid (token ++ [c]) := by simp [solid, visible]
        have wordsLonger := extended ▸ paired
        rw [extended, scanTokens]
        by_cases quote : c = '"'
        · have flips : (token ++ [c]).count '"' = token.count '"' + 1 := by simp [quote]
          cases quoted with
          | true =>
              have even : (token ++ [c]).count '"' % 2 = 0 := by
                simp only [if_true] at parity
                omega
              simp only [if_true, quote, ne_eq, not_true_eq_false, decide_false]
              rw [← quote]
              exact inductionHypothesis longer spacesTail (by simpa using even) wordsLonger
          | false =>
              have odd : (token ++ [c]).count '"' % 2 = 1 := by
                simp only [Bool.false_eq_true, if_false] at parity
                omega
              have closing := quote_mem_of_paired ⟨by simp, longer⟩ odd wordsLonger
              simp only [Bool.false_eq_true, if_false, quote, if_true, closing]
              rw [← quote]
              exact inductionHypothesis longer spacesTail (by simpa using odd) wordsLonger
        · have same : (token ++ [c]).count '"' = token.count '"' := by
            simp [quote]
          have next := inductionHypothesis longer spacesTail (same ▸ parity) wordsLonger
          cases quoted with
          | true => simpa [quote] using next
          | false => simpa [quote, script] using next

theorem tokenizeArgs_eq_splitWhitespace {options : Text}
    (spaces : ∀ c ∈ options, isScriptSpace c = isWhitespace c)
    (plain : ∀ word ∈ splitWhitespace options, IsPlainWord word) :
    tokenizeArgs options = splitWhitespace options :=
  scanTokens_eq_splitWhitespace solid_nil spaces rfl
    fun word membership => (plain word membership).paired

/-- Without quotes around an argument both loops compute the same. -/
theorem scanManagedTokens_eq {tokens : List Text} (plain : ∀ token ∈ tokens, ¬ IsQuoted token)
    (item : UpstreamConfig) (passthrough : List Text) :
    scanManagedTokens item passthrough tokens = scanUpstreamTokens item passthrough tokens := by
  fun_induction scanUpstreamTokens item passthrough tokens <;>
    simp_all [scanManagedTokens, stripQuotes_of_not_quoted]

/-- Only tokens are passed through. -/
theorem mem_passthrough {tokens : List Text} (item : UpstreamConfig) (passthrough : List Text) :
    ∀ word ∈ (scanUpstreamTokens item passthrough tokens).2,
      word ∈ passthrough ∨ word ∈ tokens := by
  intro word
  fun_induction scanUpstreamTokens item passthrough tokens <;> grind

end SmartDnsPlusUi
