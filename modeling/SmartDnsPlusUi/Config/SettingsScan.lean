import SmartDnsPlusUi.Config.UpstreamPage

/-!
# What the parser of the settings keeps

Of a field the last directive counts, of the addresses to bind to all do.  An
extra depends only on the directives with its keyword.
-/

namespace SmartDnsPlusUi

open Text

/-- The arguments of the directives with a keyword. -/
def valuesOf (keyword : BeginnerKeyword) (ds : List Directive) : List Text :=
  (ds.filter (beginnerKeyword ·.key = keyword)).map Directive.value

def lastValue (keyword : BeginnerKeyword) (defaultValue : Text) (ds : List Directive) : Text :=
  (valuesOf keyword ds).getLast?.getD defaultValue

/-- The last directive switches; without argument it falls back. -/
def lastYesno (keyword : BeginnerKeyword) (defaultValue fallback : Bool) (ds : List Directive) :
    Bool :=
  ((valuesOf keyword ds).getLast?.map (parseYesno · fallback)).getD defaultValue

/-- What a directive makes of the extra with its keyword. -/
def scanExtra (found : Option Text) (directive : Directive) : Option Text :=
  match beginnerKeyword directive.key with
  | .listExtra =>
      if directive.value = [] then found else some (appendExtra found directive.value)
  | .extra => if directive.value = [] then found else some directive.value
  | _ => found

/-- The extra after the directives with its keyword. -/
def lastExtra (key : String) (ds : List Directive) : Option Text :=
  (ds.filter (·.key = key)).foldl scanExtra none

theorem valuesOf_append (keyword : BeginnerKeyword) (ds rest : List Directive) :
    valuesOf keyword (ds ++ rest) = valuesOf keyword ds ++ valuesOf keyword rest := by
  simp [valuesOf]

theorem valuesOf_singleton (keyword : BeginnerKeyword) (directive : Directive) :
    valuesOf keyword [directive] =
      if beginnerKeyword directive.key = keyword then [directive.value] else [] := by
  by_cases same : beginnerKeyword directive.key = keyword <;> simp [valuesOf, same]

theorem lastValue_append_singleton (keyword : BeginnerKeyword) (defaultValue : Text)
    (ds : List Directive) (directive : Directive) :
    lastValue keyword defaultValue (ds ++ [directive]) =
      if beginnerKeyword directive.key = keyword then directive.value
      else lastValue keyword defaultValue ds := by
  rw [lastValue, valuesOf_append, valuesOf_singleton]
  split <;> simp [lastValue]

theorem lastYesno_append_singleton (keyword : BeginnerKeyword) (defaultValue fallback : Bool)
    (ds : List Directive) (directive : Directive) :
    lastYesno keyword defaultValue fallback (ds ++ [directive]) =
      if beginnerKeyword directive.key = keyword then parseYesno directive.value fallback
      else lastYesno keyword defaultValue fallback ds := by
  rw [lastYesno, valuesOf_append, valuesOf_singleton]
  split <;> simp [lastYesno]

/-- What is read later counts. -/
theorem lastValue_append (keyword : BeginnerKeyword) (defaultValue : Text)
    (ds rest : List Directive) :
    lastValue keyword defaultValue (ds ++ rest) =
      (valuesOf keyword rest).getLast?.getD (lastValue keyword defaultValue ds) := by
  rw [lastValue, valuesOf_append, List.getLast?_append]
  cases (valuesOf keyword rest).getLast? <;> rfl

theorem lastYesno_append (keyword : BeginnerKeyword) (defaultValue fallback : Bool)
    (ds rest : List Directive) :
    lastYesno keyword defaultValue fallback (ds ++ rest) =
      ((valuesOf keyword rest).getLast?.map (parseYesno · fallback)).getD
        (lastYesno keyword defaultValue fallback ds) := by
  rw [lastYesno, valuesOf_append, List.getLast?_append]
  cases (valuesOf keyword rest).getLast? <;> rfl

theorem lastExtra_append_singleton (key : String) (ds : List Directive) (directive : Directive) :
    lastExtra key (ds ++ [directive]) =
      if directive.key = key then scanExtra (lastExtra key ds) directive
      else lastExtra key ds := by
  by_cases same : directive.key = key <;> simp [lastExtra, same]

theorem extras_scanBeginner (cfg : BeginnerConfig) (directive : Directive) (key : String) :
    (scanBeginner cfg directive).extras key =
      if directive.key = key then scanExtra (cfg.extras key) directive else cfg.extras key := by
  by_cases same : directive.key = key
  · subst same
    rw [if_pos rfl]
    unfold scanBeginner scanExtra
    cases beginnerKeyword directive.key <;> dsimp only <;> split <;> simp
  · rw [if_neg same]
    unfold scanBeginner
    cases beginnerKeyword directive.key <;> dsimp only <;> split <;>
      simp [Function.update_of_ne (Ne.symm same)]

/-! ### The extras -/

/-- The arguments of a keyword that are not empty. -/
def argumentsOf (key : String) (ds : List Directive) : List Text :=
  ((ds.filter (·.key = key)).map Directive.value).filter (· ≠ [])

theorem argumentsOf_append (key : String) (ds rest : List Directive) :
    argumentsOf key (ds ++ rest) = argumentsOf key ds ++ argumentsOf key rest := by
  simp [argumentsOf]

theorem argumentsOf_singleton (key : String) (directive : Directive) :
    argumentsOf key [directive] =
      if directive.key = key ∧ directive.value ≠ [] then [directive.value] else [] := by
  by_cases same : directive.key = key <;> by_cases empty : directive.value = [] <;>
    simp [argumentsOf, same, empty]

theorem mem_argumentsOf_iff {key : String} {ds : List Directive} {value : Text} :
    value ∈ argumentsOf key ds ↔ ⟨key, value⟩ ∈ ds ∧ value ≠ [] := by
  simp only [argumentsOf, List.mem_filter, List.mem_map, decide_eq_true_eq]
  constructor
  · rintro ⟨⟨directive, ⟨membership, rfl⟩, rfl⟩, nonempty⟩
    exact ⟨membership, nonempty⟩
  · rintro ⟨membership, nonempty⟩
    exact ⟨⟨_, ⟨membership, rfl⟩, rfl⟩, nonempty⟩

theorem argumentsOf_eq_nil {key : String} {ds : List Directive}
    (absent : ∀ directive ∈ ds, directive.key ≠ key) : argumentsOf key ds = [] := by
  apply List.eq_nil_iff_forall_not_mem.mpr
  intro value membership
  exact absent _ (mem_argumentsOf_iff.mp membership).1 rfl

/-- Of an extra the last argument counts. -/
theorem lastExtra_eq_getLast? {key : String} (extra : beginnerKeyword key = .extra)
    (ds : List Directive) : lastExtra key ds = (argumentsOf key ds).getLast? := by
  induction ds using List.reverseRecOn with
  | nil => rfl
  | append_singleton ds directive inductionHypothesis =>
      rw [lastExtra_append_singleton, argumentsOf_append, argumentsOf_singleton]
      by_cases same : directive.key = key
      · subst same
        by_cases empty : directive.value = [] <;>
          simp [scanExtra, extra, empty, inductionHypothesis]
      · simp [same, inductionHypothesis]

/-- The arguments of a list are joined. -/
theorem lastExtra_eq_join {key : String} (list : beginnerKeyword key = .listExtra)
    (ds : List Directive) :
    lastExtra key ds =
      if argumentsOf key ds = [] then none else some (join ['\n'] (argumentsOf key ds)) := by
  induction ds using List.reverseRecOn with
  | nil => rfl
  | append_singleton ds directive inductionHypothesis =>
      rw [lastExtra_append_singleton, argumentsOf_append, argumentsOf_singleton]
      by_cases same : directive.key = key
      · subst same
        by_cases empty : directive.value = []
        · simp [scanExtra, list, empty, inductionHypothesis]
        · by_cases first : argumentsOf directive.key ds = []
          · simp [scanExtra, list, empty, first, inductionHypothesis, appendExtra, join]
          · have filledIn : ∀ value ∈ argumentsOf directive.key ds, value ≠ [] :=
              fun value membership => (mem_argumentsOf_iff.mp membership).2
            have nonempty := join_full_ne_nil ['\n'] filledIn first
            rw [if_pos rfl, inductionHypothesis, if_neg first, scanExtra, list,
              if_pos (And.intro rfl empty), join_append_of_ne_nil _ first (by simp),
              join_singleton]
            simp [empty, appendExtra, nonempty, first]
      · simp [same, inductionHypothesis]

theorem lastExtra_eq_none {key : String} (noExtra : beginnerKeyword key ≠ .extra)
    (noList : beginnerKeyword key ≠ .listExtra) (ds : List Directive) :
    lastExtra key ds = none := by
  induction ds using List.reverseRecOn with
  | nil => rfl
  | append_singleton ds directive inductionHypothesis =>
      rw [lastExtra_append_singleton, inductionHypothesis]
      split
      · rename_i same
        rw [scanExtra, same]
        cases keyword : beginnerKeyword key <;>
          first | rfl | exact absurd keyword noExtra | exact absurd keyword noList
      · rfl

/-- An extra is one of its arguments, or an argument for each of its lines. -/
theorem lastExtra_congr {key : String} {ds rest : List Directive}
    (same : argumentsOf key ds = argumentsOf key rest) : lastExtra key ds = lastExtra key rest := by
  by_cases extra : beginnerKeyword key = .extra
  · rw [lastExtra_eq_getLast? extra, lastExtra_eq_getLast? extra, same]
  · by_cases list : beginnerKeyword key = .listExtra
    · rw [lastExtra_eq_join list, lastExtra_eq_join list, same]
    · rw [lastExtra_eq_none extra list, lastExtra_eq_none extra list]

/-! ### The settings of a list of directives -/

/-- The settings that the directives of a text yield. -/
def settingsOf (ds : List Directive) : BeginnerConfig where
  serverName := lastValue .serverName [] ds
  binds := valuesOf .bind ds
  cacheSize := lastValue .cacheSize "32768" ds
  prefetchDomain := lastYesno .prefetchDomain true true ds
  serveExpired := lastYesno .serveExpired true true ds
  serveExpiredTtl := lastValue .serveExpiredTtl "86400" ds
  responseMode := lastValue .responseMode "first-ping" ds
  speedCheckMode := lastValue .speedCheckMode "ping,tcp:80,tcp:443" ds
  dualstackIpSelection := lastYesno .dualstackIpSelection true true ds
  logLevel := lastValue .logLevel "info" ds
  mdnsLookup := lastYesno .mdnsLookup false false ds
  auditEnable := lastYesno .auditEnable false false ds
  upstreams := ds.flatMap upstreamsOf
  extras := fun key => lastExtra key ds

attribute [ext] BeginnerConfig

theorem scanBeginner_settingsOf (ds : List Directive) (directive : Directive) :
    scanBeginner (settingsOf ds) directive = settingsOf (ds ++ [directive]) := by
  apply BeginnerConfig.ext
  case extras =>
    funext key
    rw [extras_scanBeginner]
    exact (lastExtra_append_singleton key ds directive).symm
  all_goals
    unfold scanBeginner
    cases keyword : beginnerKeyword directive.key <;>
      simp only [settingsOf, lastValue_append_singleton, lastYesno_append_singleton,
        valuesOf_append, valuesOf_singleton, keyword, reduceCtorEq, if_true, if_false,
        List.append_nil, List.flatMap_append, List.flatMap_singleton, upstreamsOf] <;>
      split <;> rfl

theorem parseBeginnerConfig_eq (text : Text) :
    parseBeginnerConfig text = settingsOf (directives text) := by
  have start : defaultSettings = settingsOf [] := rfl
  have run : ∀ ds : List Directive, ds.foldl scanBeginner defaultSettings = settingsOf ds := by
    intro ds
    induction ds using List.reverseRecOn with
    | nil => exact start
    | append_singleton ds directive inductionHypothesis =>
        rw [List.foldl_append, inductionHypothesis, List.foldl_cons, List.foldl_nil,
          scanBeginner_settingsOf]
  exact run (directives text)

end SmartDnsPlusUi
