import SmartDnsPlusUi.Ui.UpstreamsText

/-!
# Two parsers of the upstream servers

The page and the server read the same file.  They find the same servers when
every line that both of them match is written plainly: no line of a server is
continued, each has an address, and quotes have no effect on it.
-/

namespace SmartDnsPlusUi

open Text

/-- The keyword `server-h3` is read as `server-http3`. -/
def readAsHttp3 (upstream : UpstreamConfig) : UpstreamConfig :=
  { upstream with kind := managedKind upstream.kind }

def ParsersAgree (text : Text) : Prop :=
  parseManagedUpstreamsText text = (parseBeginnerConfig text).upstreams.map readAsHttp3

instance (text : Text) : Decidable (ParsersAgree text) := inferInstanceAs (Decidable (_ = _))

/-- The line starts with a keyword of an upstream server. -/
def IsServerLine (line : Text) : Prop := beginnerKeyword (splitDirective line).key = .upstream

instance (line : Text) : Decidable (IsServerLine line) := inferInstanceAs (Decidable (_ = _))

/-- A server that is written plainly. -/
structure IsPlainServer (line : Text) : Prop where
  spaces : HasPlainSpaces line
  value : (splitDirective line).value ≠ []
  not_quoted : ¬ IsQuoted (splitFirst (splitDirective line).value).1
  one_line : IsOneLine (trim (splitFirst (splitDirective line).value).2)
  words : ∀ word ∈ splitWhitespace (splitFirst (splitDirective line).value).2, IsPlainWord word

instance (line : Text) : Decidable (IsPlainServer line) :=
  decidable_of_iff
    (HasPlainSpaces line ∧ (splitDirective line).value ≠ [] ∧
      ¬ IsQuoted (splitFirst (splitDirective line).value).1 ∧
      IsOneLine (trim (splitFirst (splitDirective line).value).2) ∧
      ∀ word ∈ splitWhitespace (splitFirst (splitDirective line).value).2, IsPlainWord word)
    ⟨fun ⟨spaces, value, notQuoted, oneLine, words⟩ =>
        ⟨spaces, value, notQuoted, oneLine, words⟩,
      fun plain => ⟨plain.spaces, plain.value, plain.not_quoted, plain.one_line, plain.words⟩⟩

/-- The page takes the line for a server. -/
def IsMatched (raw : Text) : Prop := (matchServerLine (scriptTrim raw)).isSome = true

instance (raw : Text) : Decidable (IsMatched raw) := inferInstanceAs (Decidable (_ = _))

/-- Both parsers read the lines alike; `continuing` tells that a line is being
continued.  A line that is alone is a plain server or none in either reading, and
neither parser finds a server in continued lines. -/
def ReadAlike (continuing : Bool) : List Text → Prop
  | [] => True
  | raw :: rest =>
      match lineKind raw with
      | .comment => ReadAlike continuing rest
      | .continued piece =>
          ¬ IsMatched raw ∧ (continuing = true ∨ ¬ IsServerLine piece) ∧
            ReadAlike (continuing || piece ≠ []) rest
      | .content line =>
          (continuing = false ∧ IsServerLine line → IsPlainServer raw) ∧
            (¬ (continuing = false ∧ IsServerLine line) → ¬ IsMatched raw) ∧ ReadAlike false rest
      | .blank => ReadAlike false rest

instance decidableReadAlike : ∀ (continuing : Bool) (ls : List Text),
    Decidable (ReadAlike continuing ls)
  | _, [] => isTrue trivial
  | continuing, raw :: rest =>
      match kind : lineKind raw with
      | .comment =>
          have := decidableReadAlike continuing rest
          decidable_of_iff (ReadAlike continuing rest) (by rw [ReadAlike, kind])
      | .continued piece =>
          have := decidableReadAlike (continuing || piece ≠ []) rest
          decidable_of_iff (_ ∧ _ ∧ _) (by rw [ReadAlike, kind])
      | .content line =>
          have := decidableReadAlike false rest
          decidable_of_iff (_ ∧ _ ∧ _) (by rw [ReadAlike, kind])
      | .blank =>
          have := decidableReadAlike false rest
          decidable_of_iff (ReadAlike false rest) (by rw [ReadAlike, kind])

/-! ### One line -/

theorem beginnerKeyword_eq_upstream_iff (key : String) :
    beginnerKeyword key = .upstream ↔ key ∈ serverKeywords := by
  unfold beginnerKeyword
  split <;> simp_all [serverKeywords]

/-- What the page finds in a line without the characters that it trims differently. -/
theorem matchServerLine_eq {line : Text} (spaces : HasPlainSpaces line) (trimmed : Trimmed line) :
    matchServerLine line =
      let directive := splitDirective line
      let parts := splitFirst directive.value
      if directive.key ∈ serverKeywords ∧ directive.value ≠ [] ∧
          IsOneLine (trim parts.2) then
        some ⟨directive.key, parts.1, trim parts.2⟩
      else none := by
  have flip : ∀ {s : Text}, s ⊆ line → ∀ c ∈ s, (!isScriptSpace c) = (!isWhitespace c) :=
    fun inside c membership => by rw [spaces c (inside membership)]
  have skips : ∀ {s : Text}, s ⊆ line →
      (s.dropWhile (!isScriptSpace ·)).dropWhile isScriptSpace =
        (s.dropWhile (!isWhitespace ·)).dropWhile isWhitespace := by
    intro s inside
    rw [dropWhile_eq_of_agree (flip inside)]
    exact dropWhile_eq_of_agree (spaces.subset
      fun c membership => inside ((List.dropWhile_suffix _).subset membership))
  have solid := splitFirst_fst_solid line
  have value : (splitDirective line).value =
      (line.dropWhile (!isScriptSpace ·)).dropWhile isScriptSpace := by
    rw [skips (fun _ => id), ← trim_splitFirst trimmed, splitDirective, trim_eq_self trimmed]
  have key : (splitDirective line).key = String.ofList (line.takeWhile (!isScriptSpace ·)) := by
    rw [takeWhile_eq_of_agree (flip (fun _ => id)), splitDirective, trim_eq_self trimmed]
    exact congrArg String.ofList (trim_eq_self solid.trimmed)
  have valueTrimmed : Trimmed (splitDirective line).value := trimmed_trim _
  have inside : (splitDirective line).value ⊆ line := by
    rw [value]
    exact fun c membership => (List.dropWhile_suffix _).subset
      ((List.dropWhile_suffix _).subset membership)
  have first : (splitFirst (splitDirective line).value).1 =
      (splitDirective line).value.takeWhile (!isScriptSpace ·) :=
    (takeWhile_eq_of_agree (flip inside)).symm
  have options : trim (splitFirst (splitDirective line).value).2 =
      ((splitDirective line).value.dropWhile (!isScriptSpace ·)).dropWhile isScriptSpace := by
    rw [trim_splitFirst valueTrimmed, skips inside]
  have nonempty : (splitFirst (splitDirective line).value).1 ≠ [] ↔
      (splitDirective line).value ≠ [] := not_congr (splitFirst_fst_eq_nil_iff valueTrimmed)
  rw [matchServerLine]
  simp only [← key, ← value, ← first, ← options, nonempty]

/-- The kind has no effect on the loop over the tokens. -/
theorem scanUpstreamTokens_readAsHttp3 (cfg : UpstreamConfig) (passthrough tokens : List Text) :
    scanUpstreamTokens (readAsHttp3 cfg) passthrough tokens =
      (readAsHttp3 (scanUpstreamTokens cfg passthrough tokens).1,
        (scanUpstreamTokens cfg passthrough tokens).2) := by
  fun_induction scanUpstreamTokens cfg passthrough tokens with
  | case1 cfg passthrough => rfl
  | case9 cfg passthrough token next rest _ _ _ inductionHypothesis => 
      have same : setArgument (readAsHttp3 cfg) (upstreamOption token) next =
          readAsHttp3 (setArgument cfg (upstreamOption token) next) := by
        cases upstreamOption token <;> rfl
      simp_all [scanUpstreamTokens]
  | _ => simp_all [scanUpstreamTokens, readAsHttp3]

/-- Both parsers build the same server from plain words. -/
theorem parseManagedUpstream_eq {options : Text} (spaces : HasPlainSpaces options)
    (plain : ∀ word ∈ splitWhitespace options, IsPlainWord word) (kind : String) (value : Text) :
    parseManagedUpstream kind value options =
      readAsHttp3 (parseUpstreamConfig kind value options) := by
  have start : ({ kind := managedKind kind, value } : UpstreamConfig) =
      readAsHttp3 { kind, value } := rfl
  have unquoted : ∀ word ∈ (scanUpstreamTokens { kind, value } []
      (splitWhitespace options)).2, stripQuotes word = word := by
    intro word membership
    rcases mem_passthrough _ _ word membership with none | token
    · simp at none
    · exact stripQuotes_of_not_quoted (plain word token).not_quoted
  rw [parseManagedUpstream, tokenizeArgs_eq_splitWhitespace spaces plain,
    scanManagedTokens_eq (fun word membership => (plain word membership).not_quoted), start,
    scanUpstreamTokens_readAsHttp3]
  simp only [parseUpstreamConfig, List.map_congr_left unquoted, List.map_id']
  rfl

theorem trim_splitFirst_subset (t : Text) : trim (splitFirst t).2 ⊆ t := by
  intro c membership
  have remaining : c ∈ (t.dropWhile (!isWhitespace ·)).drop 1 := mem_of_mem_trim membership
  exact (List.dropWhile_suffix _).subset (List.mem_of_mem_drop remaining)

theorem value_splitDirective_subset (line : Text) : (splitDirective line).value ⊆ line := by
  intro c membership
  have inside : c ∈ trim (splitFirst (trim line)).2 := membership
  exact mem_of_mem_trim (trim_splitFirst_subset _ inside)

/-- What the page finds in a line with plain white space. -/
theorem matchServerLine_scriptTrim {raw : Text} (spaces : HasPlainSpaces raw) :
    matchServerLine (scriptTrim raw) =
      let directive := splitDirective raw
      let parts := splitFirst directive.value
      if directive.key ∈ serverKeywords ∧ directive.value ≠ [] ∧
          IsOneLine (trim parts.2) then
        some ⟨directive.key, parts.1, trim parts.2⟩
      else none := by
  rw [scriptTrim_eq_trim spaces, matchServerLine_eq
    (spaces.subset (trim_isInfix raw).subset) (trimmed_trim raw), splitDirective_trim]

/-- Both parsers read a plain line alike. -/
theorem readManagedUpstream_of_plain {raw : Text} (logical : IsLogical (trim raw))
    (server : IsServerLine (trim raw)) (plain : IsPlainServer raw) :
    readManagedUpstream raw = some (readAsHttp3 (upstreamFrom (splitDirective (trim raw)))) := by
  have same := splitDirective_trim raw
  have key : (splitDirective raw).key ∈ serverKeywords :=
    (beginnerKeyword_eq_upstream_iff _).mp (same ▸ server)
  have found := (matchServerLine_scriptTrim plain.spaces).trans
    (if_pos ⟨key, plain.value, plain.one_line⟩)
  have visible : ¬ (trim raw = [] ∨ (trim raw).head? = some '#') :=
    not_or.mpr ⟨logical.nonempty, logical.no_comment⟩
  rw [← scriptTrim_eq_trim plain.spaces] at visible
  rw [readManagedUpstream]
  simp only [if_neg visible, found, Option.map_some, same]
  have inside : trim (splitFirst (splitDirective raw).value).2 ⊆ raw :=
    fun c membership => value_splitDirective_subset raw (trim_splitFirst_subset _ membership)
  have words := plain.words
  rw [← splitWhitespace_trim] at words
  rw [stripQuotes_of_not_quoted plain.not_quoted,
    parseManagedUpstream_eq (plain.spaces.subset inside) words, upstreamFrom,
    trim_eq_self (splitFirst_fst_solid _).trimmed]

theorem head_of_serverKeyword : ∀ key ∈ serverKeywords, key.toList.head? = some 's' := by decide

/-- A line that the page matches is neither a comment nor blank. -/
theorem head_trim_of_isMatched {raw : Text} (isMatched : IsMatched raw) :
    ∃ c, (trim raw).head? = some c ∧ c ≠ '#' := by
  obtain ⟨a, b, before, after, equality⟩ := scriptTrim_split raw
  have key : ∃ rest, scriptTrim raw = 's' :: rest := by
    have word : String.ofList ((scriptTrim raw).takeWhile (!isScriptSpace ·)) ∈ serverKeywords := by
      by_contra missing
      rw [IsMatched, matchServerLine, if_neg fun found => missing found.1] at isMatched
      exact Bool.false_ne_true isMatched
    have first := head_of_serverKeyword _ word
    rw [String.toList_ofList] at first
    have whole := List.takeWhile_append_dropWhile (p := (!isScriptSpace ·)) (l := scriptTrim raw)
    obtain ⟨tail, equality⟩ := List.head?_eq_some_iff.mp first
    exact ⟨_, by rw [← whole, equality, List.cons_append]⟩
  obtain ⟨rest, core⟩ := key
  rw [equality, core]
  clear equality
  induction a with
  | nil => exact ⟨'s', head?_trim_cons (by decide) _, by decide⟩
  | cons c a inductionHypothesis =>
      rw [List.forall_mem_cons] at before
      by_cases space : isWhitespace c = true
      · have skip := trim_append_blank_left (w := [c]) (by simp [space])
          (a ++ 's' :: rest ++ b)
        have next := inductionHypothesis before.2
        rw [← skip] at next
        exact next
      · have visible : isWhitespace c = false := by simpa using space
        refine ⟨c, head?_trim_cons visible _, ?_⟩
        rintro rfl
        exact absurd before.1 (by decide)

theorem not_isMatched_of_skipped {raw : Text}
    (skipped : lineKind raw = .comment ∨ lineKind raw = .blank) : ¬ IsMatched raw := by
  intro isMatched
  obtain ⟨c, head, noHash⟩ := head_trim_of_isMatched isMatched
  have spec := lineKind_spec raw
  rcases skipped with comment | blank
  · simp only [comment] at spec
    exact noHash (Option.some.inj (head.symm.trans spec))
  · simp only [blank] at spec
    simp [spec] at head

theorem readManagedUpstream_of_not_isMatched {raw : Text} (unmatched : ¬ IsMatched raw) :
    readManagedUpstream raw = none := by
  have none : matchServerLine (scriptTrim raw) = none := by simpa [IsMatched] using unmatched
  rw [readManagedUpstream]
  simp only [none, Option.map_none, ite_self]

/-! ### All lines -/

theorem isServerLine_trim (line : Text) : IsServerLine (trim line) ↔ IsServerLine line := by
  rw [IsServerLine, splitDirective_trim, IsServerLine]

/-- A line keeps its keyword when a piece is added to it. -/
theorem isServerLine_append {current : Text} (logical : IsLogical current) {piece : Text}
    (trimmed : Trimmed piece) (nonempty : piece ≠ []) :
    IsServerLine (current ++ ' ' :: piece) ↔ IsServerLine current := by
  have whole := (logical.append trimmed nonempty).trimmed
  have first : (splitFirst (current ++ ' ' :: piece)).1 = (splitFirst current).1 := by
    rcases splitFirst_cases current with
      ⟨solid, split⟩ | ⟨word, c, rest, equality, solid, space, split⟩
    · rw [split, splitFirst_append_cons solid isWhitespace_space]
    · rw [split, equality, List.append_assoc, List.cons_append,
        splitFirst_append_cons solid space]
  rw [IsServerLine, IsServerLine, splitDirective, splitDirective, trim_eq_self whole,
    trim_eq_self logical.trimmed, first]

/-- The servers of logical lines. -/
def serversOf (ls : List Text) : List UpstreamConfig :=
  (ls.flatMap fun line => upstreamsOf (splitDirective line)).map readAsHttp3

theorem serversOf_append (ls rest : List Text) :
    serversOf (ls ++ rest) = serversOf ls ++ serversOf rest := by
  simp [serversOf]

theorem serversOf_singleton_of_not_isServerLine {line : Text} (other : ¬ IsServerLine line) :
    serversOf [line] = [] := by
  have none : upstreamsOf (splitDirective line) = [] := if_neg other
  simp [serversOf, none]

theorem serversOf_singleton_of_isServerLine {line : Text} (server : IsServerLine line) :
    serversOf [line] = [readAsHttp3 (upstreamFrom (splitDirective line))] := by
  have one : upstreamsOf (splitDirective line) = [upstreamFrom (splitDirective line)] :=
    if_pos server
  simp [serversOf, one]

/-- A line being continued that is no server. -/
def IsOtherLine (current : Text) : Prop := IsLogical current ∧ ¬ IsServerLine current

theorem serversOf_flush {current : Text} (started : current = [] ∨ IsOtherLine current) :
    serversOf (flush current) = [] := by
  rcases started with rfl | ⟨logical, other⟩
  · rfl
  · rw [flush, if_neg logical.nonempty, trim_eq_self logical.trimmed,
      serversOf_singleton_of_not_isServerLine other]

/-- Pieces added to a line that is no server make no server. -/
theorem isOtherLine_appendPiece {current piece : Text}
    (started : current = [] ∨ IsOtherLine current) (logical : IsLogical piece)
    (other : current = [] → ¬ IsServerLine piece) :
    IsOtherLine (appendPiece current piece) := by
  rcases started with rfl | ⟨logicalCurrent, otherCurrent⟩
  · exact ⟨logical, other rfl⟩
  · rw [appendPiece, if_neg logicalCurrent.nonempty]
    exact ⟨logicalCurrent.append logical.trimmed logical.nonempty,
      mt (isServerLine_append logicalCurrent logical.trimmed logical.nonempty).mp otherCurrent⟩

/-- The servers found after the line `current`, which is being continued. -/
theorem filterMap_readManagedUpstream {ls : List Text} {current : Text}
    (started : current = [] ∨ IsOtherLine current)
    (alike : ReadAlike (decide (current ≠ [])) ls) :
    ls.filterMap readManagedUpstream = serversOf (mergeLines current ls) := by
  induction ls generalizing current with
  | nil => rw [List.filterMap_nil, mergeLines, serversOf_flush started]
  | cons raw ls inductionHypothesis =>
      have spec := lineKind_spec raw
      rw [ReadAlike] at alike
      rw [List.filterMap_cons, mergeLines]
      cases kind : lineKind raw with
      | comment =>
          rw [readManagedUpstream_of_not_isMatched (not_isMatched_of_skipped (.inl kind))]
          simp only [kind] at alike
          exact inductionHypothesis started alike
      | continued piece =>
          simp only [kind] at alike spec
          obtain ⟨unmatched, other, alikeRest⟩ := alike
          rw [readManagedUpstream_of_not_isMatched unmatched]
          by_cases empty : piece = []
          · simp only [empty, if_true]
            exact inductionHypothesis started (by simpa [empty] using alikeRest)
          · have nonempty : trim piece ≠ [] := by
              rw [piece_of_lineKind kind] at empty ⊢
              exact mt (trim_pieceOf_eq_nil_iff _).mp empty
            have logical : IsLogical (trim piece) := by
              rw [spec.1] at nonempty ⊢
              exact isLogical_pieceOf (trimmed_trim raw) spec.2.1 nonempty
            have added := isOtherLine_appendPiece started logical fun none =>
              mt (isServerLine_trim piece).mp (other.resolve_left (by simp [none]))
            simp only [empty, if_false]
            apply inductionHypothesis (.inr added)
            simpa [empty, added.1.nonempty] using alikeRest
      | content line =>
          simp only [kind] at alike spec
          obtain ⟨plain, unmatched, alikeRest⟩ := alike
          obtain ⟨rfl, logical⟩ := spec
          have tail := inductionHypothesis (.inl rfl) alikeRest
          dsimp only
          rcases started with rfl | ⟨logicalCurrent, otherCurrent⟩
          · rw [if_pos rfl, ← List.singleton_append, serversOf_append, ← tail]
            by_cases server : IsServerLine (trim raw)
            · rw [readManagedUpstream_of_plain logical server (plain ⟨by simp, server⟩),
                serversOf_singleton_of_isServerLine server, List.singleton_append]
            · rw [readManagedUpstream_of_not_isMatched (unmatched fun both => server both.2),
                serversOf_singleton_of_not_isServerLine server, List.nil_append]
          · have whole := logicalCurrent.append logical.trimmed logical.nonempty
            have other := mt (isServerLine_append logicalCurrent logical.trimmed
              logical.nonempty).mp otherCurrent
            have own := unmatched fun both => by simp [logicalCurrent.nonempty] at both
            rw [readManagedUpstream_of_not_isMatched own, if_neg logicalCurrent.nonempty,
              trim_eq_self whole.trimmed, ← List.singleton_append, serversOf_append,
              serversOf_singleton_of_not_isServerLine other, List.nil_append]
            exact tail
      | blank =>
          rw [readManagedUpstream_of_not_isMatched (not_isMatched_of_skipped (.inr kind))]
          simp only [kind] at alike
          rw [serversOf_append, serversOf_flush started, List.nil_append]
          exact inductionHypothesis (.inl rfl) alike

/-- Both parsers find the same servers, in the same order, in a text whose lines
are read alike. -/
theorem parsersAgree_of_readAlike {text : Text} (alike : ReadAlike false (text.splitOn '\n')) :
    ParsersAgree text := by
  have found := filterMap_readManagedUpstream (.inl rfl) alike
  rw [ParsersAgree, parse_upstreams, directives_eq_map, logicalLines_eq_splitOn,
    List.flatMap_map, parseManagedUpstreamsText]
  exact found

/-! ### Texts in which agreement says something about every line -/

/-- No line is continued, both parsers see the same white space, and quotes have
no effect on the options. -/
structure IsPlainText (text : Text) : Prop where
  spaces : HasPlainSpaces text
  not_continued : ∀ raw ∈ text.splitOn '\n', ¬ Continues raw
  words : ∀ raw ∈ text.splitOn '\n', IsServerLine raw →
    ∀ word ∈ splitWhitespace (splitFirst (splitDirective raw).value).2, IsPlainWord word

/-- Lists of parts that are pointwise no longer than others, and equal as a whole. -/
theorem toList_eq_of_filterMap_eq_flatMap {Item Result : Type} {f : Item → Option Result}
    {g : Item → List Result} {items : List Item}
    (shorter : ∀ item ∈ items, (f item).toList.length ≤ (g item).length)
    (same : items.filterMap f = items.flatMap g) : ∀ item ∈ items, (f item).toList = g item := by
  have split : ∀ item items, (item :: items).filterMap f =
      (f item).toList ++ items.filterMap f := by
    intro item items
    cases found : f item <;> simp [found]
  have total : ∀ items : List Item, (∀ item ∈ items, (f item).toList.length ≤ (g item).length) →
      (items.filterMap f).length ≤ (items.flatMap g).length := by
    intro items shorter
    induction items with
    | nil => simp
    | cons item items inductionHypothesis =>
        rw [List.forall_mem_cons] at shorter
        have rest := inductionHypothesis shorter.2
        rw [split, List.flatMap_cons, List.length_append, List.length_append]
        exact Nat.add_le_add shorter.1 rest
  induction items with
  | nil => simp
  | cons item items inductionHypothesis =>
      rw [List.forall_mem_cons] at shorter ⊢
      rw [split, List.flatMap_cons] at same
      have lengths := congrArg List.length same
      rw [List.length_append, List.length_append] at lengths
      have rest := total items shorter.2
      obtain ⟨first, tail⟩ := List.append_inj same (by omega)
      exact ⟨first, inductionHypothesis shorter.2 tail⟩

/-- What the server reads in a line that is not continued. -/
theorem serversOf_contentLines (ls : List Text) :
    serversOf (contentLines ls) = ls.flatMap fun raw => serversOf (contentLines [raw]) := by
  induction ls with
  | nil => rfl
  | cons raw ls inductionHypothesis =>
      rw [contentLines_cons, serversOf_append, inductionHypothesis, List.flatMap_cons]

theorem stripQuotes_ne_self {t : Text} (quoted : IsQuoted t) : stripQuotes t ≠ t := by
  intro same
  have lengths := congrArg List.length same
  have nonempty : t ≠ [] := by
    rintro rfl
    exact absurd quoted.1 (by simp)
  have positive := List.length_pos_iff.mpr nonempty
  rw [stripQuotes, if_pos quoted, List.length_dropLast, List.length_tail] at lengths
  omega

theorem value_parseManagedUpstream (kind : String) (value options : Text) :
    (parseManagedUpstream kind value options).value = value := by
  have kept : ∀ (item : UpstreamConfig) (passthrough tokens : List Text),
      (scanManagedTokens item passthrough tokens).1.value = item.value := by
    intro item passthrough tokens
    have set : ∀ item option word, (setArgument item option word).value = item.value :=
      fun item option word => by cases option <;> rfl
    fun_induction scanManagedTokens item passthrough tokens <;> simp_all
  exact kept _ _ _

theorem value_readAsHttp3 (upstream : UpstreamConfig) :
    (readAsHttp3 upstream).value = upstream.value := rfl

/-- What the page takes for a server has a keyword, an address, and no line
terminator in its options. -/
theorem server_of_isMatched {raw : Text} (spaces : HasPlainSpaces raw) (isMatched : IsMatched raw) :
    (IsLogical (trim raw) ∧ IsServerLine (trim raw)) ∧
      (splitDirective raw).value ≠ [] ∧
      IsOneLine (trim (splitFirst (splitDirective raw).value).2) ∧
      readManagedUpstream raw = some (parseManagedUpstream (splitDirective raw).key
        (stripQuotes (splitFirst (splitDirective raw).value).1)
        (trim (splitFirst (splitDirective raw).value).2)) := by
  obtain ⟨c, head, noHash⟩ := head_trim_of_isMatched isMatched
  have logical : IsLogical (trim raw) :=
    ⟨trimmed_trim raw, by rintro empty; simp [empty] at head, by simpa [head] using noHash⟩
  have visible : ¬ (trim raw = [] ∨ (trim raw).head? = some '#') :=
    not_or.mpr ⟨logical.nonempty, logical.no_comment⟩
  rw [← scriptTrim_eq_trim spaces] at visible
  have found := matchServerLine_scriptTrim spaces
  by_cases server : (splitDirective raw).key ∈ serverKeywords ∧ (splitDirective raw).value ≠ [] ∧
      IsOneLine (trim (splitFirst (splitDirective raw).value).2)
  · have isServer : IsServerLine (trim raw) := by
      rw [isServerLine_trim]
      exact (beginnerKeyword_eq_upstream_iff _).mpr server.1
    refine ⟨⟨logical, isServer⟩, server.2.1, server.2.2, ?_⟩
    rw [readManagedUpstream]
    simp only [if_neg visible, found, if_pos server, Option.map_some]
  · rw [IsMatched, found, if_neg server] at isMatched
    exact absurd isMatched (by simp)

theorem contentLines_singleton_of_isLogical {raw : Text} (logical : IsLogical (trim raw)) :
    contentLines [raw] = [trim raw] := by
  simp [contentLines, logical.nonempty, logical.no_comment]

/-- A line that both parsers read alike is a plain server or is matched by none. -/
theorem plain_of_same {raw : Text} (spaces : HasPlainSpaces raw) (logical : IsLogical (trim raw))
    (words : IsServerLine raw →
      ∀ word ∈ splitWhitespace (splitFirst (splitDirective raw).value).2, IsPlainWord word)
    (same : (readManagedUpstream raw).toList = serversOf (contentLines [raw])) :
    (IsServerLine (trim raw) → IsPlainServer raw) ∧
      (¬ IsServerLine (trim raw) → ¬ IsMatched raw) := by
  rw [contentLines_singleton_of_isLogical logical] at same
  constructor
  · intro server
    rw [serversOf_singleton_of_isServerLine server] at same
    have isMatched : IsMatched raw := by
      by_contra unmatched
      rw [readManagedUpstream_of_not_isMatched unmatched] at same
      simp at same
    obtain ⟨-, value, oneLine, read⟩ := server_of_isMatched spaces isMatched
    refine ⟨spaces, value, ?_, oneLine, words ((isServerLine_trim raw).mp server)⟩
    intro quoted
    rw [read, Option.toList_some, splitDirective_trim, List.cons.injEq] at same
    have values := congrArg UpstreamConfig.value same.1
    rw [value_parseManagedUpstream, value_readAsHttp3, value_upstreamFrom] at values
    exact stripQuotes_ne_self quoted values
  · intro other isMatched
    exact other (server_of_isMatched spaces isMatched).1.2

/-- Lines that are not continued are read alike when each one is. -/
theorem readAlike_of_lines {ls : List Text} (notContinued : ∀ raw ∈ ls, ¬ Continues raw)
    (alike : ∀ raw ∈ ls, IsLogical (trim raw) →
      (IsServerLine (trim raw) → IsPlainServer raw) ∧
        (¬ IsServerLine (trim raw) → ¬ IsMatched raw)) :
    ReadAlike false ls := by
  induction ls with
  | nil => trivial
  | cons raw ls inductionHypothesis =>
      rw [List.forall_mem_cons] at notContinued alike
      have rest := inductionHypothesis notContinued.2 alike.2
      have spec := lineKind_spec raw
      rw [ReadAlike]
      cases kind : lineKind raw with
      | comment => exact rest
      | continued piece => 
          simp only [kind] at spec
          exact absurd spec.2 notContinued.1
      | content line =>
          simp only [kind] at spec
          obtain ⟨rfl, logical⟩ := spec
          obtain ⟨plain, unmatched⟩ := alike.1 logical
          exact ⟨fun both => plain both.2, fun other => unmatched fun server =>
            other ⟨rfl, server⟩, rest⟩
      | blank => exact rest

theorem readAlike_of_parsersAgree {text : Text} (plain : IsPlainText text)
    (agree : ParsersAgree text) : ReadAlike false (text.splitOn '\n') := by
  have inside : ∀ raw ∈ text.splitOn '\n', HasPlainSpaces raw := fun raw membership =>
    plain.spaces.subset (infix_of_mem_splitOn membership).subset
  have same : (text.splitOn '\n').filterMap readManagedUpstream =
      (text.splitOn '\n').flatMap fun raw => serversOf (contentLines [raw]) := by
    rw [← serversOf_contentLines, ← mergeLines_of_not_continues plain.not_continued]
    rw [ParsersAgree, parse_upstreams, directives_eq_map, logicalLines_eq_splitOn,
      List.flatMap_map] at agree
    exact agree
  have shorter : ∀ raw ∈ text.splitOn '\n',
      (readManagedUpstream raw).toList.length ≤ (serversOf (contentLines [raw])).length := by
    intro raw membership
    by_cases isMatched : IsMatched raw
    · obtain ⟨⟨logical, server⟩, -, -, read⟩ := server_of_isMatched (inside raw membership) isMatched
      rw [read, contentLines_singleton_of_isLogical logical,
        serversOf_singleton_of_isServerLine server]
      exact Nat.le_refl 1
    · rw [readManagedUpstream_of_not_isMatched isMatched]
      exact Nat.zero_le _
  have each := toList_eq_of_filterMap_eq_flatMap shorter same
  exact readAlike_of_lines plain.not_continued fun raw membership logical =>
    plain_of_same (inside raw membership) logical (plain.words raw membership)
      (each raw membership)

/-- Both parsers find the same servers, in the same order, in every text whose
lines are read alike; among plain texts in no others. -/
theorem parsersAgree_readAlike (text : Text) :
    (ReadAlike false (text.splitOn '\n') → ParsersAgree text) ∧
      (IsPlainText text → ParsersAgree text → ReadAlike false (text.splitOn '\n')) :=
  ⟨parsersAgree_of_readAlike, readAlike_of_parsersAgree⟩

-- a server that only the page finds in place of one that only the server finds
example : ParsersAgree "foo \\\nserver a\nserver\\\na" ∧
    ¬ ReadAlike false (List.splitOn '\n' ("foo \\\nserver a\nserver\\\na" : Text)) := by
  decide

def plainUpstreams : Text :=
  "# 上游\nserver 1.1.1.1 -group a -x\n  server-h3 h \nspeed-check-mode ping \\\n tcp:80\n" ++
    "server-tcp t -proxy p -b \"\"x -k"

theorem parsersAgree_example : ParsersAgree plainUpstreams :=
  (parsersAgree_readAlike plainUpstreams).1 (by decide)

/-- The page removes the quotes around an argument, the server keeps them. -/
theorem not_parsersAgree : ¬ ∀ text, ParsersAgree text := fun agree =>
  absurd (agree "server 1.1.1.1 -proxy \"p\"") (by decide)

end SmartDnsPlusUi
