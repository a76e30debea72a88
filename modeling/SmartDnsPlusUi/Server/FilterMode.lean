import SmartDnsPlusUi.Server.PageNumbers
import SmartDnsPlusUi.Text.Wildcard

/-!
# The modes of the domain filter

The value of the filter is put into a `LIKE` pattern as it is, so its `%` and `_` are
wildcards; and the wildcard of `startswith` comes before the value, that of `endswith` after
it.  A pattern ends at its first NUL, as the text does that it is compared with, and a pattern
over the limit compares with nothing.
-/

namespace SmartDnsPlusUi

open Text Table

/-! ### The operator -/

/-- Letters that `LIKE` does not tell apart. -/
def SameLetter (c d : Char) : Prop := c.toLower = d.toLower

def symbolOf (c : Char) : Symbol Char :=
  if c = '%' then .anything else if c = '_' then .anyOne else .exactly c

/-- The texts that a value matches when it is a pattern. -/
def MatchesAsPattern (value text : Text) : Prop := Matches SameLetter (value.map symbolOf) text

theorem likeLoop_iff (pattern text : Text) :
    likeLoop pattern text = true ↔ MatchesAsPattern pattern text := by
  unfold MatchesAsPattern
  induction pattern generalizing text with
  | nil => simp [likeLoop]
  | cons c pattern inductionHypothesis =>
      rw [List.map_cons, symbolOf, likeLoop.eq_def]
      dsimp only
      split_ifs with any one
      · rw [matches_anything_cons, List.any_eq_true]
        exact exists_congr fun part => and_congr (List.mem_tails _ _) (inductionHypothesis part)
      · rw [matches_anyOne_cons]
        cases text with
        | nil => simp
        | cons d rest => simp [one, inductionHypothesis]
      · rw [matches_exactly_cons]
        cases text with
        | nil => simp
        | cons d rest => simp [one, inductionHypothesis, SameLetter]

theorem like_iff {pattern : Text} (short : byteLength pattern ≤ likePatternLimit) (text : Text) :
    like pattern text = true ↔ MatchesAsPattern (untilNul pattern) (untilNul text) := by
  rw [like, decide_eq_true short, Bool.true_and]
  exact likeLoop_iff _ _

theorem like_eq_false_of_long {pattern : Text} (long : likePatternLimit < byteLength pattern)
    (text : Text) : like pattern text = false := by
  rw [like, decide_eq_false (Nat.not_le.mpr long), Bool.false_and]

theorem untilNul_eq_self {t : Text} (free : '\x00' ∉ t) : untilNul t = t :=
  List.takeWhile_eq_self_iff.mpr fun _ member => by
    simpa using ne_of_mem_of_not_mem member free

/-- A value matches what has its letters, wildcards or not. -/
theorem matchesAsPattern_of_sameLetters {value text : Text}
    (letters : value.map Char.toLower = text.map Char.toLower) : MatchesAsPattern value text := by
  unfold MatchesAsPattern
  induction value generalizing text with
  | nil => exact matches_nil.mpr (List.map_eq_nil_iff.mp letters.symm)
  | cons c value inductionHypothesis =>
      cases text with
      | nil => cases letters
      | cons d text =>
          rw [List.map_cons, List.map_cons, List.cons.injEq] at letters
          have rest := inductionHypothesis letters.2
          rw [List.map_cons, symbolOf]
          split_ifs
          · exact .anything [d] rest
          · exact .anyOne d rest
          · exact .exactly letters.1 rest

/-- A value without wildcards matches only that. -/
theorem matchesAsPattern_plain {value text : Text} (noAny : '%' ∉ value) (noOne : '_' ∉ value) :
    MatchesAsPattern value text ↔ value.map Char.toLower = text.map Char.toLower := by
  have exact : value.map symbolOf = value.map Symbol.exactly := by
    refine List.map_congr_left fun c member => ?_
    rw [symbolOf, if_neg (ne_of_mem_of_not_mem member noAny),
      if_neg (ne_of_mem_of_not_mem member noOne)]
  rw [MatchesAsPattern, exact, matches_map_exactly, ← List.forall₂_eq_eq_eq,
    List.forall₂_map_left_iff, List.forall₂_map_right_iff]
  rfl

/-- A value as a pattern matches the text, for its wildcards alone. -/
def AdmitsByWildcards (value text : Text) : Prop :=
  MatchesAsPattern value text ∧ value.map Char.toLower ≠ text.map Char.toLower

theorem matchesAsPattern_iff {value text : Text} :
    MatchesAsPattern value text ↔
      value.map Char.toLower = text.map Char.toLower ∨ AdmitsByWildcards value text := by
  constructor
  · intro matching
    exact or_iff_not_imp_left.mpr fun different => ⟨matching, different⟩
  · rintro (letters | admitted)
    · exact matchesAsPattern_of_sameLetters letters
    · exact admitted.1

theorem not_admitsByWildcards_plain {value : Text} (noAny : '%' ∉ value) (noOne : '_' ∉ value)
    (text : Text) : ¬ AdmitsByWildcards value text :=
  fun admitted => admitted.2 ((matchesAsPattern_plain noAny noOne).mp admitted.1)

/-- Some of the parts match: one has the letters, or the wildcards admit one. -/
theorem exists_matchesAsPattern_iff {IsPart : Text → Prop} {value : Text} :
    (∃ part, IsPart part ∧ MatchesAsPattern value part) ↔
      (∃ part, IsPart part ∧ value.map Char.toLower = part.map Char.toLower) ∨
        ∃ part, IsPart part ∧ AdmitsByWildcards value part := by
  simp only [matchesAsPattern_iff, and_or_left, exists_or]

/-! ### The modes -/

inductive FilterMode where
  | startswith
  | endswith
  | contains
  | equals
  deriving DecidableEq

namespace FilterMode

def name : FilterMode → Text
  | startswith => "startswith"
  | endswith => "endswith"
  | contains => "contains"
  | equals => "equals"

/-- What the mode says of a domain, with the letters of the value as they are. -/
def Means (value domain : Text) : FilterMode → Prop
  | startswith => value.map Char.toLower <+: domain.map Char.toLower
  | endswith => value.map Char.toLower <:+ domain.map Char.toLower
  | contains => value.map Char.toLower <:+: domain.map Char.toLower
  | equals => domain = value

/-- The pattern of a mode that compares with `LIKE`. -/
def pattern (value : Text) : FilterMode → Option Text
  | startswith => some ('%' :: value)
  | endswith => some (value ++ ['%'])
  | contains => some ('%' :: value ++ ['%'])
  | equals => none

/-- Where a value that is read whole does what the mode means: the wildcard on the wrong side
and the wildcards in the value do not show. -/
def FitsRead (value domain : Text) : FilterMode → Prop
  | startswith => startswith.Means value domain ↔
      (endswith.Means value (untilNul domain) ∨
        ∃ part, part <:+ untilNul domain ∧ AdmitsByWildcards value part)
  | endswith => endswith.Means value domain ↔
      (startswith.Means value (untilNul domain) ∨
        ∃ part, part <+: untilNul domain ∧ AdmitsByWildcards value part)
  | contains => contains.Means value domain ↔
      (contains.Means value (untilNul domain) ∨
        ∃ part, part <:+: untilNul domain ∧ AdmitsByWildcards value part)
  | equals => True

/-- Where a value with a NUL does what the mode means: only what stands before the NUL is
compared, and the wildcard after the value is lost. -/
def FitsCut (value domain : Text) : FilterMode → Prop
  | startswith => startswith.Means value domain ↔
      (endswith.Means (untilNul value) (untilNul domain) ∨
        ∃ part, part <:+ untilNul domain ∧ AdmitsByWildcards (untilNul value) part)
  | endswith => endswith.Means value domain ↔
      ((untilNul value).map Char.toLower = (untilNul domain).map Char.toLower ∨
        AdmitsByWildcards (untilNul value) (untilNul domain))
  | contains => contains.Means value domain ↔
      (endswith.Means (untilNul value) (untilNul domain) ∨
        ∃ part, part <:+ untilNul domain ∧ AdmitsByWildcards (untilNul value) part)
  | equals => True

/-- The domains of which a mode says what it means, for every kind of value; a value over the
limit is found nowhere. -/
def Fits (value domain : Text) (mode : FilterMode) : Prop :=
  match mode.pattern value with
  | none => True
  | some pattern =>
      if likePatternLimit < byteLength pattern then ¬ mode.Means value domain
      else if '\x00' ∈ value then mode.FitsCut value domain
      else mode.FitsRead value domain

/-- The condition that the mode becomes. -/
def condition (value : Text) : FilterMode → DomainCondition
  | startswith => .domainLike ('%' :: value)
  | endswith => .domainLike (value ++ ['%'])
  | contains => .domainLike ('%' :: value ++ ['%'])
  | equals => .domainIs value

theorem domainFilter_mode {m : Text} {mode : FilterMode} (value : Text)
    (named : eqIgnoreAsciiCase m mode.name = true) :
    domainFilter (some value) (some m) = .ok [mode.condition value] := by
  have lower : m.map Char.toLower = mode.name.map Char.toLower := of_decide_eq_true named
  unfold domainFilter eqIgnoreAsciiCase
  simp only [lower]
  cases mode <;> rfl

theorem condition_eq_domainLike {value pattern : Text} {mode : FilterMode}
    (given : mode.pattern value = some pattern) : mode.condition value = .domainLike pattern := by
  cases mode with
  | startswith => exact congrArg _ (Option.some.inj given)
  | endswith => exact congrArg _ (Option.some.inj given)
  | contains => exact congrArg _ (Option.some.inj given)
  | equals => cases given

theorem nul_notMem_pattern {value pattern : Text} {mode : FilterMode}
    (given : mode.pattern value = some pattern) (free : '\x00' ∉ value) :
    '\x00' ∉ pattern := by
  cases mode with
  | equals => cases given
  | _ =>
      cases given
      simp [free]

theorem anything_matches_iff {value text : Text} :
    MatchesAsPattern ('%' :: value) text ↔
      endswith.Means value text ∨ ∃ part, part <:+ text ∧ AdmitsByWildcards value part := by
  apply matches_anything_cons.trans
  apply exists_matchesAsPattern_iff.trans
  exact or_congr_left List.suffix_map_iff.symm

theorem matches_anything_iff {value text : Text} :
    MatchesAsPattern (value ++ ['%']) text ↔
      startswith.Means value text ∨ ∃ part, part <+: text ∧ AdmitsByWildcards value part := by
  rw [MatchesAsPattern, List.map_append]
  apply matches_append_anything.trans
  apply exists_matchesAsPattern_iff.trans
  exact or_congr_left List.prefix_map_iff.symm

theorem anything_matches_anything_iff {value text : Text} :
    MatchesAsPattern ('%' :: value ++ ['%']) text ↔
      contains.Means value text ∨ ∃ part, part <:+: text ∧ AdmitsByWildcards value part := by
  rw [MatchesAsPattern, List.map_append]
  apply matches_anything_append_anything.trans
  apply exists_matchesAsPattern_iff.trans
  exact or_congr_left List.infix_map_iff.symm

/-- A pattern that is read whole matches parts of the domain, on the other side than the mode
says. -/
theorem matches_pattern_iff {value pattern : Text} {mode : FilterMode}
    (given : mode.pattern value = some pattern) (domain : Text) :
    (mode.Means value domain ↔ MatchesAsPattern pattern (untilNul domain)) ↔
      mode.FitsRead value domain := by
  cases mode with
  | startswith =>
      cases given
      rw [anything_matches_iff, FitsRead]
  | endswith =>
      cases given
      rw [matches_anything_iff, FitsRead]
  | contains =>
      cases given
      rw [anything_matches_anything_iff, FitsRead]
  | equals => cases given

theorem untilNul_percent_cons (value : Text) : untilNul ('%' :: value) = '%' :: untilNul value :=
  List.takeWhile_cons_of_pos (by decide)

theorem untilNul_append {value : Text} (cut : '\x00' ∈ value) (rest : Text) :
    untilNul (value ++ rest) = untilNul value := by
  rw [untilNul, untilNul, List.takeWhile_append, if_neg]
  intro whole
  have kept : value.takeWhile (· ≠ '\x00') = value :=
    (List.takeWhile_prefix _).eq_of_length whole
  rw [List.takeWhile_eq_self_iff] at kept
  simpa using kept _ cut

/-- A pattern that is cut matches the end of the domain, or all of it. -/
theorem matches_cut_pattern_iff {value pattern : Text} {mode : FilterMode}
    (given : mode.pattern value = some pattern) (cut : '\x00' ∈ value) (domain : Text) :
    (mode.Means value domain ↔ MatchesAsPattern (untilNul pattern) (untilNul domain)) ↔
      mode.FitsCut value domain := by
  cases mode with
  | startswith =>
      cases given
      rw [untilNul_percent_cons, anything_matches_iff, FitsCut]
  | endswith =>
      cases given
      rw [untilNul_append cut, matchesAsPattern_iff, FitsCut]
  | contains =>
      cases given
      rw [List.cons_append, untilNul_percent_cons, untilNul_append cut, anything_matches_iff,
        FitsCut]
  | equals => cases given

/-- The condition of a mode says what the mode means exactly where the value fits. -/
theorem holds_condition_iff (value : Text) (d : DomainData) (mode : FilterMode) :
    ((mode.condition value).holds d = true ↔ mode.Means value d.domain) ↔
      mode.Fits value d.domain := by
  rw [Fits]
  split
  next given =>
    have equal : mode = equals := by cases mode <;> first | rfl | cases given
    subst equal
    simp [condition, DomainCondition.holds, Means]
  next pattern given =>
    rw [condition_eq_domainLike given, DomainCondition.holds]
    split_ifs with long nul
    · rw [like_eq_false_of_long long, Bool.false_eq_true, false_iff]
    · rw [like_iff (Nat.le_of_not_lt long)]
      exact Iff.comm.trans (matches_cut_pattern_iff given nul d.domain)
    · rw [like_iff (Nat.le_of_not_lt long), untilNul_eq_self (nul_notMem_pattern given nul)]
      exact Iff.comm.trans (matches_pattern_iff given d.domain)

/-! ### Values that stand for themselves -/

/-- A value without wildcards that is read whole. -/
structure IsPlain (value : Text) : Prop where
  noAny : '%' ∉ value
  noOne : '_' ∉ value
  noNul : '\x00' ∉ value
  short : byteLength value + 2 ≤ likePatternLimit

variable {value domain : Text}

theorem IsPlain.fits_iff (plain : IsPlain value) (mode : FilterMode) :
    mode.Fits value domain ↔ mode.FitsRead value domain := by
  have percent : Char.utf8Size '%' = 1 := rfl
  have short := plain.short
  cases mode with
  | equals => exact Iff.rfl
  | _ =>
      rw [Fits]
      dsimp only [pattern]
      rw [if_neg (by simp only [byteLength, byteLength_append, List.cons_append, percent]; omega),
        if_neg plain.noNul]

/-- Of a value without wildcards, `startswith` and `endswith` do what they mean where a domain
starts with the value if and only if it ends with it; the other modes always do. -/
theorem IsPlain.fits_iff_sides (plain : IsPlain value) (free : '\x00' ∉ domain)
    (mode : FilterMode) :
    mode.Fits value domain ↔ (mode = startswith ∨ mode = endswith →
      (startswith.Means value domain ↔ endswith.Means value domain)) := by
  rw [plain.fits_iff]
  have none : ∀ part, ¬ AdmitsByWildcards value part :=
    not_admitsByWildcards_plain plain.noAny plain.noOne
  cases mode with
  | startswith => simp [FitsRead, untilNul_eq_self free, none]
  | endswith =>
      simp only [FitsRead, untilNul_eq_self free, none, and_false, exists_false, or_false, or_true,
        forall_const]
      exact Iff.comm
  | contains => simp [FitsRead, untilNul_eq_self free, none]
  | equals => simp [FitsRead]

end FilterMode

/-! ### The rows that a mode selects -/

/-- The row is on some page of the listing. -/
def Selects (database : Database) (param : DomainListGetParam) (d : DomainData) : Prop :=
  ∃ pageNum pageSize result,
    getDomainList database (some { param with pageNum, pageSize }) = .ok result ∧
      d ∈ result.domainList

/-- A request with a value and a mode, without a cursor, that is not refused; it may have
other filters. -/
structure IsModeRequest (param : DomainListGetParam) (value : Text) (mode : FilterMode) :
    Prop where
  order : ∃ ascending, orderParam param.order = .ok ascending
  domain : param.domain = some value
  mode : ∃ m, param.domainFilterMode = some m ∧ eqIgnoreAsciiCase m mode.name = true
  cursor : param.cursor = none

variable {database : Database} {param : DomainListGetParam} {value : Text} {mode : FilterMode}

/-- All rows fit on one page. -/
theorem selects_iff_shows (few : database.domain.length < 2 ^ 63)
    (request : IsModeRequest param value mode) (d : DomainData) :
    Selects database param d ↔
      d ∈ database.domain ∧ param.shows [mode.condition value] d = true := by
  obtain ⟨ascending, order⟩ := request.order
  obtain ⟨m, given, named⟩ := request.mode
  have filter : domainFilter param.domain param.domainFilterMode =
      .ok [mode.condition value] := by
    rw [request.domain, given]
    exact FilterMode.domainFilter_mode value named
  have sorted := (param.firstOrder ascending).sort_perm
    (database.domain.filter (param.shows [mode.condition value]))
  rw [← List.mem_filter, ← sorted.mem_iff]
  constructor
  · rintro ⟨pageNum, pageSize, result, read, listed⟩
    rw [@getDomainList_limited _ { param with pageNum, pageSize } _ _ order filter request.cursor,
      Except.ok.injEq] at read
    subst read
    dsimp only [limitRows] at listed
    split_ifs at listed
    · exact List.mem_of_mem_drop (List.mem_of_mem_take listed)
    · cases listed
  · intro listed
    have positive : 1 ≤ 2 ^ 63 - 1 := by decide
    have first : HasOffset (2 ^ 63 - 1) 1 := ⟨le_rfl, by decide⟩
    have numbered : IsNumberedRequest { param with pageNum := 1, pageSize := 2 ^ 63 - 1 } ascending
      [mode.condition value] := ⟨order, filter, request.cursor, positive⟩
    refine ⟨1, 2 ^ 63 - 1, _, getDomainList_numbered numbered first, ?_⟩
    dsimp only
    rw [if_pos (by decide), numberedPage, Nat.sub_self, Nat.zero_mul, List.drop_zero,
      List.take_of_length_le]
    · exact listed
    · have shorter := database.domain.length_filter_le (param.shows [mode.condition value])
      refine sorted.length_eq.trans_le ?_
      omega

theorem shows_condition (condition : DomainCondition) (d : DomainData) :
    param.shows [condition] d = (param.shows [] d && condition.holds d) := by
  have conditions : (param.fixedConditions [condition]).all (·.holds d) =
      ((param.fixedConditions []).all (·.holds d) && condition.holds d) := by
    simp only [DomainListGetParam.fixedConditions, DomainListGetParam.conditionsWith,
      List.all_append, List.all_cons, List.all_nil, Bool.and_true]
    ac_rfl
  unfold DomainListGetParam.shows
  rw [conditions]
  ac_rfl

end SmartDnsPlusUi
