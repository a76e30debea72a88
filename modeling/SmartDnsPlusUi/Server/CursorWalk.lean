import SmartDnsPlusUi.Server.DomainList

/-!
# Walking the query list with a cursor

The first page is ordered by time unless the filter names an indexed column; the
pages behind a cursor are ordered by id, and a bound on the time may be replaced
by the bound on the id.  So the walk shows every matching row once only when the
rows behind the first page are the others.
-/

namespace SmartDnsPlusUi

open Arithmetic Table

/-- The request for the page behind a row. -/
def DomainListGetParam.next (param : DomainListGetParam) (totalCount : Nat) (last : DomainData) :
    DomainListGetParam :=
  { param with cursor := some { id := some last.id, totalCount, direction := "next" } }

def rowsOf : Except Text QueryDomainListResult → List DomainData
  | .ok result => result.domainList
  | .error _ => []

/-- The first page, or the page behind a row. -/
def domainPage (database : Database) (param : DomainListGetParam) :
    Option DomainData → List DomainData
  | none => rowsOf (getDomainList database (some param))
  | some last => rowsOf (getDomainList database
      (some (param.next (getDomainListCount database (some param)) last)))

/-- The rows of the table that match the filter. -/
def matching (database : Database) (param : DomainListGetParam) : List DomainData :=
  match getDomainSqlWhere (some param) with
  | .ok clauses => database.domain.filter fun d => clauses.1.all (·.holds d)
  | .error _ => []

/-- Every matching row once, in the requested direction of one of the orders. -/
def VisitsEachOnce (database : Database) (param : DomainListGetParam) (ascending : Bool)
    (visited : List DomainData) : Prop :=
  visited.Perm (matching database param) ∧
    ∃ timestampFirst, visited.Pairwise fun a b =>
      ({ descending := !ascending, timestampFirst } : DomainOrder).le a b = true

/-! ### The conditions of the pages -/

/-- All conditions, with those on time and cursor in their place. -/
def DomainListGetParam.conditionsWith (param : DomainListGetParam)
    (domain bounds : List DomainCondition) : List DomainCondition :=
  param.id.toList.map .idIs ++ domain ++ param.domainType.toList.map .domainTypeIs ++
    param.client.toList.map .clientIs ++ param.domainGroup.toList.map .domainGroupIs ++
    param.replyCode.toList.map .replyCodeIs ++ bounds ++
    param.isBlocked.toList.map .isBlockedIs ++ param.isCached.toList.map .isCachedIs

/-- The conditions that neither the cursor nor a bound on the time is part of. -/
def DomainListGetParam.fixedConditions (param : DomainListGetParam)
    (domain : List DomainCondition) : List DomainCondition :=
  param.conditionsWith domain []

theorem all_conditionsWith (param : DomainListGetParam) (domain bounds : List DomainCondition)
    (p : DomainCondition → Bool) :
    (param.conditionsWith domain bounds).all p =
      ((param.fixedConditions domain).all p && bounds.all p) := by
  unfold DomainListGetParam.fixedConditions DomainListGetParam.conditionsWith
  simp only [List.all_append, List.all_nil, Bool.and_true]
  cases bounds.all p with
  | true => simp only [Bool.and_true]
  | false => simp only [Bool.and_false, Bool.false_and]

def DomainListGetParam.timestampFirst (param : DomainListGetParam) : Bool :=
  param.id.isNone && !(param.domain.isSome && param.domainFilterMode.isNone) &&
    param.domainType.isNone && param.client.isNone && param.domainGroup.isNone &&
    param.replyCode.isNone && param.isBlocked.isNone && param.isCached.isNone

/-- The filter of the first page. -/
def DomainListGetParam.shows (param : DomainListGetParam) (domain : List DomainCondition)
    (d : DomainData) : Bool :=
  (param.fixedConditions domain).all (·.holds d) &&
    param.timestampBefore.all (fun v => decide (d.timestamp ≤ v)) &&
    param.timestampAfter.all (fun v => decide (v ≤ d.timestamp))

/-- What is left of the filter on the pages behind a cursor. -/
def DomainListGetParam.remains (param : DomainListGetParam) (ascending : Bool)
    (domain : List DomainCondition) (d : DomainData) : Bool :=
  (param.fixedConditions domain).all (·.holds d) &&
    (ascending || param.timestampAfter.all fun v => decide (v ≤ d.timestamp))

/-- Ids that follow in the direction of the order. -/
def followsById (ascending : Bool) (cursor d : DomainData) : Bool :=
  if ascending then cursor.id < d.id else d.id < cursor.id

/-- The side of the cursor that a page shows. -/
def DomainListGetParam.behind (param : DomainListGetParam) (ascending : Bool)
    (cursor d : DomainData) : Bool :=
  if ascending && param.timestampBefore.isSome then
    if param.timestampAfter.isSome then false else followsById ascending d cursor
  else followsById ascending cursor d

variable {param : DomainListGetParam} {ascending : Bool} {domain : List DomainCondition}

theorem getDomainSqlWhere_first (order : orderParam param.order = .ok ascending)
    (filter : domainFilter param.domain param.domainFilterMode = .ok domain)
    (first : param.cursor = none) :
    getDomainSqlWhere (some param) =
      .ok (param.conditionsWith domain
          (timestampBeforeFilter true param.timestampBefore none ++
            timestampAfterFilter ascending param.timestampAfter none),
        some { descending := !ascending, timestampFirst := param.timestampFirst }) := by
  simp only [getDomainSqlWhere, order, filter, first, cursorDirection, bind, Except.bind,
    DomainListGetParam.conditionsWith, DomainListGetParam.timestampFirst, Option.bind,
    Option.isNone_none, Bool.and_true, cursorFilter, List.append_nil, List.append_assoc]
  cases ascending <;> rfl

theorem getDomainSqlWhere_next (order : orderParam param.order = .ok ascending)
    (filter : domainFilter param.domain param.domainFilterMode = .ok domain) (totalCount : Nat)
    (last : DomainData) :
    getDomainSqlWhere (some (param.next totalCount last)) =
      .ok (param.conditionsWith domain
          (timestampBeforeFilter true param.timestampBefore (some last.id) ++
            timestampAfterFilter ascending param.timestampAfter (some last.id) ++
            cursorFilter (param.timestampBefore.isSome || param.timestampAfter.isSome && ascending)
              ascending true (some last.id)),
        some { descending := !ascending, timestampFirst := false }) := by
  have direction : cursorDirection (param.next totalCount last).cursor = .ok true := rfl
  simp only [getDomainSqlWhere, direction, bind, Except.bind]
  simp only [DomainListGetParam.next, order, filter,
    DomainListGetParam.conditionsWith, Option.bind, Option.isSome_some, Bool.true_and,
    Option.isNone_some, Bool.and_false, Bool.false_and, Bool.true_or, Bool.not_true,
    Bool.false_or, Bool.and_true, List.append_assoc]
  cases ascending <;> rfl

theorem shows_eq (d : DomainData) :
    (param.conditionsWith domain (timestampBeforeFilter true param.timestampBefore none ++
      timestampAfterFilter ascending param.timestampAfter none)).all (·.holds d) =
      param.shows domain d := by
  rw [all_conditionsWith, List.all_append]
  unfold DomainListGetParam.shows
  cases param.timestampBefore <;> cases param.timestampAfter <;>
    simp [timestampBeforeFilter, timestampAfterFilter, DomainCondition.holds, Bool.and_assoc]

theorem remains_eq (last d : DomainData) :
    (param.conditionsWith domain
      (timestampBeforeFilter true param.timestampBefore (some last.id) ++
        timestampAfterFilter ascending param.timestampAfter (some last.id) ++
        cursorFilter (param.timestampBefore.isSome || param.timestampAfter.isSome && ascending)
          ascending true (some last.id))).all (·.holds d) =
      (param.remains ascending domain d && param.behind ascending last d) := by
  rw [all_conditionsWith, List.all_append, List.all_append]
  unfold DomainListGetParam.remains DomainListGetParam.behind followsById
  generalize (param.fixedConditions domain).all (·.holds d) = fixed
  have never : (decide (d.id < last.id) && decide (last.id < d.id)) = false := by
    rw [← Bool.decide_and, decide_eq_false_iff_not]
    omega
  cases ascending <;> cases param.timestampBefore <;> cases param.timestampAfter <;>
    simp [timestampBeforeFilter, timestampAfterFilter, cursorFilter, DomainCondition.holds,
      Bool.and_assoc, never]
  exact congrArg _ (Bool.and_comm _ _)

/-! ### The pages -/

/-- The order of the first page. -/
def DomainListGetParam.firstOrder (param : DomainListGetParam) (ascending : Bool) : DomainOrder where
  descending := !ascending
  timestampFirst := param.timestampFirst

/-- The order of the pages behind a cursor. -/
def idOrder (ascending : Bool) : DomainOrder where
  descending := !ascending
  timestampFirst := false

/-- All matching rows in the order of the first page. -/
def listing (database : Database) (param : DomainListGetParam) (ascending : Bool) :
    List DomainData :=
  (param.firstOrder ascending).sort (matching database param)

/-- The rows that the pages behind a cursor choose from. -/
def remaining (database : Database) (param : DomainListGetParam) (ascending : Bool)
    (domain : List DomainCondition) : List DomainData :=
  (idOrder ascending).sort (database.domain.filter (param.remains ascending domain))

/-- A request for the first page that is not refused. -/
structure IsFirstRequest (param : DomainListGetParam) (ascending : Bool)
    (domain : List DomainCondition) : Prop where
  order : orderParam param.order = .ok ascending
  filter : domainFilter param.domain param.domainFilterMode = .ok domain
  cursor : param.cursor = none
  pageNum : param.pageNum = 1
  pageSize : 1 ≤ param.pageSize

theorem matching_eq {database : Database} (request : IsFirstRequest param ascending domain) :
    matching database param = database.domain.filter (param.shows domain) := by
  unfold matching
  rw [getDomainSqlWhere_first request.order request.filter request.cursor]
  exact List.filter_congr fun d _ => shows_eq d

theorem domainPage_none {database : Database} (request : IsFirstRequest param ascending domain) :
    domainPage database param none =
      if param.pageSize < 2 ^ 63 then (listing database param ascending).take param.pageSize
      else [] := by
  have start : wrappingMul 64 (wrappingSub 64 param.pageNum 1) param.pageSize = 0 := by
    rw [request.pageNum]
    have zero : wrappingSub 64 1 1 = 0 := rfl
    rw [zero, wrappingMul, Nat.cast_zero, zero_mul]
    rfl
  have found : (database.domain.filter fun d => (param.conditionsWith domain
      (timestampBeforeFilter true param.timestampBefore none ++
        timestampAfterFilter ascending param.timestampAfter none)).all (·.holds d)) =
      database.domain.filter (param.shows domain) :=
    List.filter_congr fun d _ => shows_eq d
  unfold domainPage getDomainList
  rw [getDomainSqlWhere_first request.order request.filter request.cursor]
  simp only [bind, Except.bind, request.cursor, Option.bind_none, rowsOf, selectDomain, found,
    start, limitRows, List.drop_zero]
  rw [listing, matching_eq request]
  by_cases small : param.pageSize < 2 ^ 63
  · rw [if_pos small, if_pos ⟨small, by decide⟩]
    rfl
  · rw [if_neg small, if_neg fun both => small both.1]

theorem filter_idOrder_sort {rows : List DomainData} (unique : (rows.map (·.id)).Nodup)
    (p : DomainData → Bool) :
    (idOrder ascending).sort (rows.filter p) = ((idOrder ascending).sort rows).filter p := by
  have sorted := (idOrder ascending).sort_perm (rows.filter p)
  refine DomainOrder.sort_unique ((sorted.map _).nodup_iff.mpr ?_) ?_
    ((idOrder ascending).pairwise_sort _) (((idOrder ascending).pairwise_sort rows).filter p)
  · exact unique.sublist (List.filter_sublist.map _)
  · exact sorted.trans (((idOrder ascending).sort_perm rows).symm.filter p)

theorem domainPage_some {database : Database} (unique : (database.domain.map (·.id)).Nodup)
    (request : IsFirstRequest param ascending domain) (last : DomainData) :
    domainPage database param (some last) =
      if param.pageSize < 2 ^ 63 then
        ((remaining database param ascending domain).filter (param.behind ascending last)).take
          param.pageSize
      else [] := by
  have found : (database.domain.filter fun d => (param.conditionsWith domain
      (timestampBeforeFilter true param.timestampBefore (some last.id) ++
        timestampAfterFilter ascending param.timestampAfter (some last.id) ++
        cursorFilter (param.timestampBefore.isSome || param.timestampAfter.isSome && ascending)
          ascending true (some last.id))).all (·.holds d)) =
      (database.domain.filter (param.remains ascending domain)).filter
        (param.behind ascending last) := by
    rw [List.filter_filter]
    exact List.filter_congr fun d _ => (remains_eq last d).trans (Bool.and_comm _ _)
  have next : eqIgnoreAsciiCase "next" "prev" = false := rfl
  have uniqueRemaining :
      ((database.domain.filter (param.remains ascending domain)).map (·.id)).Nodup :=
    unique.sublist (List.filter_sublist.map _)
  have clauses := getDomainSqlWhere_next request.order request.filter
    (getDomainListCount database (some param)) last
  simp only [domainPage, getDomainList, clauses, bind, Except.bind]
  simp only [DomainListGetParam.next, Option.bind_some, rowsOf, selectDomain, found, limitRows,
    List.drop_zero, next, Bool.false_eq_true, if_false]
  unfold remaining
  rw [← filter_idOrder_sort uniqueRemaining]
  by_cases small : param.pageSize < 2 ^ 63
  · rw [if_pos small, if_pos ⟨small, by decide⟩]
    rfl
  · rw [if_neg small, if_neg fun both => small both.1]

/-! ### Ids in order -/

theorem followsById_irreflexive (ascending : Bool) (d : DomainData) :
    followsById ascending d d = false := by
  unfold followsById
  cases ascending <;> simp

theorem followsById_asymmetric (ascending : Bool) (a b : DomainData)
    (follows : followsById ascending a b = true) : followsById ascending b a = false := by
  unfold followsById at follows ⊢
  cases ascending <;> simp at follows ⊢ <;> omega

theorem followsById_transitive (ascending : Bool) (a b c : DomainData)
    (first : followsById ascending a b = true) (second : followsById ascending b c = true) :
    followsById ascending a c = true := by
  unfold followsById at first second ⊢
  cases ascending <;> simp at first second ⊢ <;> omega

theorem followsById_of_le {ascending : Bool} {a b : DomainData}
    (ordered : (idOrder ascending).le a b = true) (different : a.id ≠ b.id) :
    followsById ascending a b = true := by
  unfold followsById
  cases ascending <;> simp [idOrder, DomainOrder.le] at ordered ⊢ <;> omega

theorem le_of_followsById {ascending : Bool} {a b : DomainData}
    (follows : followsById ascending a b = true) : (idOrder ascending).le a b = true := by
  unfold followsById at follows
  cases ascending <;> simp [idOrder, DomainOrder.le] at follows ⊢ <;> omega

theorem pairwise_followsById {rows : List DomainData} (unique : (rows.map (·.id)).Nodup) :
    ((idOrder ascending).sort rows).Pairwise fun a b => followsById ascending a b = true := by
  have different : (((idOrder ascending).sort rows).map (·.id)).Nodup :=
    ((((idOrder ascending).sort_perm rows).map _).nodup_iff).mpr unique
  rw [List.Nodup, List.pairwise_map] at different
  exact (((idOrder ascending).pairwise_sort rows).and different).imp fun both =>
    followsById_of_le both.1 both.2

/-! ### Walks -/

/-- The matching rows of the first page. -/
def shownFirst (database : Database) (param : DomainListGetParam) (ascending : Bool) :
    List DomainData :=
  (listing database param ascending).take param.pageSize

/-- The other matching rows. -/
def shownLater (database : Database) (param : DomainListGetParam) (ascending : Bool) :
    List DomainData :=
  (listing database param ascending).drop param.pageSize

/-- The rows that the pages behind the first one show are the other matching
rows.  In ascending order a bound `timestamp_before` makes the pages turn back. -/
def LaterIsBehind (database : Database) (param : DomainListGetParam) (ascending : Bool)
    (domain : List DomainCondition) (last : DomainData) : Prop :=
  if ascending && param.timestampBefore.isSome then
    if param.timestampAfter.isSome then shownLater database param ascending = []
    else
      (shownLater database param ascending).length ≤ 1 ∧
        (((remaining database param ascending domain).filter (followsById true · last)).take
          param.pageSize).Perm (shownLater database param ascending)
  else
    (∀ d ∈ database.domain, param.remains ascending domain d = true →
      (followsById ascending last d = true ↔ d ∈ shownLater database param ascending)) ∧
    (param.timestampFirst = false ∨
      (shownFirst database param ascending).Pairwise
        (fun a b => (idOrder ascending).le a b = true) ∨
      ((idOrder ascending).sort (shownLater database param ascending)).Pairwise
        fun a b => (param.firstOrder ascending).le a b = true)

/-- The filter matches nothing; or the page size is a signed integer and the
pages behind the first one show the other matching rows. -/
def WalkFits (database : Database) (param : DomainListGetParam) (ascending : Bool)
    (domain : List DomainCondition) : Prop :=
  matching database param = [] ∨
    param.pageSize < 2 ^ 63 ∧ ∃ last,
      (shownFirst database param ascending).getLast? = some last ∧
        LaterIsBehind database param ascending domain last

variable {database : Database}

theorem shownFirst_append_shownLater :
    (shownFirst database param ascending ++ shownLater database param ascending).Perm
      (matching database param) := by
  unfold shownFirst shownLater
  rw [List.take_append_drop]
  exact (param.firstOrder ascending).sort_perm _

theorem pairwise_listing :
    (shownFirst database param ascending ++ shownLater database param ascending).Pairwise
      fun a b => (param.firstOrder ascending).le a b = true := by
  unfold shownFirst shownLater
  rw [List.take_append_drop]
  exact (param.firstOrder ascending).pairwise_sort _

theorem perm_matching_iff (rows : List DomainData) :
    (shownFirst database param ascending ++ rows).Perm (matching database param) ↔
      rows.Perm (shownLater database param ascending) := by
  constructor
  · intro all
    exact (List.perm_append_left_iff _).mp (all.trans shownFirst_append_shownLater.symm)
  · intro same
    exact (same.append_left _).trans shownFirst_append_shownLater

theorem shows_remains {d : DomainData} (shows : param.shows domain d = true) :
    param.remains ascending domain d = true := by
  unfold DomainListGetParam.shows at shows
  unfold DomainListGetParam.remains
  simp only [Bool.and_eq_true, Bool.or_eq_true] at shows ⊢
  exact ⟨shows.1.1, Or.inr shows.2⟩

theorem mem_of_mem_shownLater (request : IsFirstRequest param ascending domain) {d : DomainData}
    (later : d ∈ shownLater database param ascending) :
    d ∈ database.domain ∧ param.remains ascending domain d = true := by
  have matches_filter : d ∈ matching database param :=
    shownFirst_append_shownLater.mem_iff.mp (List.mem_append_right _ later)
  rw [matching_eq request, List.mem_filter] at matches_filter
  exact ⟨matches_filter.1, shows_remains matches_filter.2⟩

theorem unique_matching (unique : (database.domain.map (·.id)).Nodup)
    (request : IsFirstRequest param ascending domain) :
    ((matching database param).map (·.id)).Nodup := by
  rw [matching_eq request]
  exact unique.sublist (List.filter_sublist.map _)

theorem nodup_matching (unique : (database.domain.map (·.id)).Nodup)
    (request : IsFirstRequest param ascending domain) : (matching database param).Nodup :=
  (unique_matching unique request).of_map

theorem mem_remaining {d : DomainData} :
    d ∈ remaining database param ascending domain ↔
      d ∈ database.domain ∧ param.remains ascending domain d = true := by
  unfold remaining
  rw [((idOrder ascending).sort_perm _).mem_iff, List.mem_filter]

theorem pairwise_remaining (unique : (database.domain.map (·.id)).Nodup) :
    (remaining database param ascending domain).Pairwise
      fun a b => followsById ascending a b = true :=
  pairwise_followsById (unique.sublist (List.filter_sublist.map _))

theorem nodup_of_pairwise_followsById {rows : List DomainData}
    (ordered : rows.Pairwise fun a b => followsById ascending a b = true) :
    (rows.map (·.id)).Nodup := by
  rw [List.Nodup, List.pairwise_map]
  refine ordered.imp fun {a b} follows same => ?_
  unfold followsById at follows
  cases ascending <;> simp [same] at follows

/-- The rows behind the first page are the others: as a condition on the rows. -/
theorem behind_perm_iff (unique : (database.domain.map (·.id)).Nodup)
    (request : IsFirstRequest param ascending domain) (last : DomainData) :
    ((remaining database param ascending domain).filter (followsById ascending last)).Perm
        (shownLater database param ascending) ↔
      ∀ d ∈ database.domain, param.remains ascending domain d = true →
        (followsById ascending last d = true ↔ d ∈ shownLater database param ascending) := by
  have nodupBehind : ((remaining database param ascending domain).filter
      (followsById ascending last)).Nodup :=
    (nodup_of_pairwise_followsById ((pairwise_remaining unique).filter _)).of_map
  have nodupLater : (shownLater database param ascending).Nodup :=
    (shownFirst_append_shownLater.nodup_iff.mpr (nodup_matching unique request)).of_append_right
  rw [List.perm_ext_iff_of_nodup nodupBehind nodupLater]
  constructor
  · intro same d listed remains
    rw [← same d, List.mem_filter, mem_remaining]
    exact ⟨fun follows => ⟨⟨listed, remains⟩, follows⟩, fun inside => inside.2⟩
  · intro same d
    rw [List.mem_filter, mem_remaining]
    constructor
    · rintro ⟨⟨listed, remains⟩, follows⟩
      exact (same d listed remains).mp follows
    · intro later
      obtain ⟨listed, remains⟩ := mem_of_mem_shownLater request later
      exact ⟨⟨listed, remains⟩, (same d listed remains).mpr later⟩

/-- The first page with the others behind it is in one order: as a condition on
the two parts. -/
theorem ordered_iff {last : DomainData} {later : List DomainData}
    (same : later.Perm (shownLater database param ascending))
    (ordered : later.Pairwise fun a b => followsById ascending a b = true)
    (ends : (shownFirst database param ascending).getLast? = some last)
    (behind : ∀ d ∈ later, followsById ascending last d = true) :
    (∃ timestampFirst, (shownFirst database param ascending ++ later).Pairwise fun a b =>
        ({ descending := !ascending, timestampFirst } : DomainOrder).le a b = true) ↔
      param.timestampFirst = false ∨
        (shownFirst database param ascending).Pairwise
          (fun a b => (idOrder ascending).le a b = true) ∨
        ((idOrder ascending).sort (shownLater database param ascending)).Pairwise
          fun a b => (param.firstOrder ascending).le a b = true := by
  have byId : later.Pairwise fun a b => (idOrder ascending).le a b = true :=
    ordered.imp le_of_followsById
  have sorted : later = (idOrder ascending).sort (shownLater database param ascending) :=
    DomainOrder.sort_unique (nodup_of_pairwise_followsById ordered)
      (same.trans ((idOrder ascending).sort_perm _).symm) byId ((idOrder ascending).pairwise_sort _)
  obtain ⟨orderedFirst, -, across⟩ := List.pairwise_append.mp
    (@pairwise_listing param ascending database)
  rw [← sorted]
  have firstPart (other : later.Pairwise fun a b => (param.firstOrder ascending).le a b = true) :
      (shownFirst database param ascending ++ later).Pairwise
        fun a b => (param.firstOrder ascending).le a b = true :=
    List.pairwise_append.mpr ⟨orderedFirst, other,
      fun a shown b listed => across a shown b (same.mem_iff.mp listed)⟩
  constructor
  · rintro ⟨timestampFirst, all⟩
    obtain ⟨first, second, -⟩ := List.pairwise_append.mp all
    cases kind : param.timestampFirst with
    | false => exact Or.inl rfl
    | true =>
        cases timestampFirst with
        | false => exact Or.inr (Or.inl first)
        | true =>
            refine Or.inr (Or.inr ?_)
            unfold DomainListGetParam.firstOrder
            rw [kind]
            exact second
  · rintro (kind | first | second)
    · refine ⟨false, ?_⟩
      have whole := firstPart
      unfold DomainListGetParam.firstOrder at whole
      rw [kind] at whole
      exact whole byId
    · refine ⟨false, List.pairwise_append.mpr ⟨first, byId, fun a shown b listed => ?_⟩⟩
      have afterLast : (idOrder ascending).le last b = true :=
        le_of_followsById (behind b listed)
      obtain ⟨front, split⟩ := List.getLast?_eq_some_iff.mp ends
      rw [split] at first shown
      rcases List.mem_append.mp shown with inFront | isLast
      · exact DomainOrder.le_trans ((List.pairwise_append.mp first).2.2 a inFront last
          List.mem_cons_self) afterLast
      · rw [List.mem_singleton.mp isLast]
        exact afterLast
    · exact ⟨param.timestampFirst, firstPart second⟩

/-- The first page, given that there is one. -/
structure IsFirstPage (database : Database) (param : DomainListGetParam) (ascending : Bool)
    (domain : List DomainCondition) (last : DomainData) : Prop where
  unique : (database.domain.map (·.id)).Nodup
  request : IsFirstRequest param ascending domain
  small : param.pageSize < 2 ^ 63
  ends : (shownFirst database param ascending).getLast? = some last

namespace IsFirstPage

variable {last : DomainData}

theorem page_none (page : IsFirstPage database param ascending domain last) :
    domainPage database param none = shownFirst database param ascending := by
  rw [domainPage_none page.request, if_pos page.small]
  rfl

theorem page_some (page : IsFirstPage database param ascending domain last) (cursor : DomainData) :
    domainPage database param (some cursor) =
      ((remaining database param ascending domain).filter (param.behind ascending cursor)).take
        param.pageSize := by
  rw [domainPage_some page.unique page.request, if_pos page.small]

theorem walks_none (page : IsFirstPage database param ascending domain last)
    {later : List DomainData} (walks : Walks (domainPage database param) (some last) later) :
    Walks (domainPage database param) none (shownFirst database param ascending ++ later) := by
  have ends := page.ends
  rw [← page.page_none] at ends ⊢
  exact walks_append ends walks

/-- A walk that shows every row once goes on behind the first page. -/
theorem later_of_visits (page : IsFirstPage database param ascending domain last)
    {visited : List DomainData} (walks : Walks (domainPage database param) none visited) :
    ∃ later, Walks (domainPage database param) (some last) later ∧
      visited = shownFirst database param ascending ++ later := by
  have ends := page.ends
  rw [← page.page_none] at ends ⊢
  rcases walks_cases walks with ⟨empty, -⟩ | ⟨other, later, ends_other, walks_later, rfl⟩
  · rw [empty] at ends
    cases ends
  · rw [ends] at ends_other
    cases ends_other
    exact ⟨later, walks_later, rfl⟩

/-- Pages that go on in the requested direction. -/
theorem visits_iff_of_forward (page : IsFirstPage database param ascending domain last)
    (forward : (ascending && param.timestampBefore.isSome) = false) :
    (∃ visited, Walks (domainPage database param) none visited ∧
        VisitsEachOnce database param ascending visited) ↔
      LaterIsBehind database param ascending domain last := by
  have behind (cursor : DomainData) :
      param.behind ascending cursor = followsById ascending cursor := by
    funext d
    unfold DomainListGetParam.behind
    rw [forward]
    rfl
  have walks := @walks_behind _ _ (domainPage database param) _ _ (followsById_irreflexive ascending)
    (followsById_asymmetric ascending) (followsById_transitive ascending)
    (@pairwise_remaining param ascending domain database page.unique) page.request.pageSize
    (fun cursor => by rw [page.page_some, behind]) last
  have order (same : ((remaining database param ascending domain).filter
      (followsById ascending last)).Perm (shownLater database param ascending)) :=
    ordered_iff same ((pairwise_remaining page.unique).filter _) page.ends
      fun d listed => (List.mem_filter.mp listed).2
  unfold LaterIsBehind
  rw [forward, if_neg Bool.false_ne_true, ← behind_perm_iff page.unique page.request]
  constructor
  · rintro ⟨visited, walked, same, ordered⟩
    rw [walked.unique (page.walks_none walks)] at same ordered
    have sameLater := (perm_matching_iff _).mp same
    exact ⟨sameLater, (order sameLater).mp ordered⟩
  · rintro ⟨sameLater, ordered⟩
    exact ⟨_, page.walks_none walks, (perm_matching_iff _).mpr sameLater,
      (order sameLater).mpr ordered⟩

/-- Pages that turn back. -/
theorem visits_iff_of_turned (page : IsFirstPage database param true domain last)
    (before : param.timestampBefore.isSome = true) (noAfter : param.timestampAfter.isSome = false) :
    (∃ visited, Walks (domainPage database param) none visited ∧
        VisitsEachOnce database param true visited) ↔
      LaterIsBehind database param true domain last := by
  have pages (cursor : DomainData) : domainPage database param (some cursor) =
      ((remaining database param true domain).filter (followsById true · cursor)).take
        param.pageSize := by
    rw [page.page_some]
    unfold DomainListGetParam.behind
    rw [before, noAfter]
    rfl
  have ordered := @pairwise_remaining param true domain database page.unique
  unfold LaterIsBehind
  rw [before, noAfter, Bool.and_self, if_pos rfl, if_neg Bool.false_ne_true, ← pages]
  constructor
  · rintro ⟨visited, walked, same, -⟩
    obtain ⟨later, walksLater, rfl⟩ := page.later_of_visits walked
    have sameLater := (perm_matching_iff later).mp same
    have nodupLater : later.Nodup :=
      (same.nodup_iff.mpr (nodup_matching page.unique page.request)).of_append_right
    have short : (domainPage database param (some last)).length ≤ 1 := by
      by_contra long
      exact not_nodup_of_turned (followsById_transitive true) ordered page.request.pageSize pages
        (by omega) walksLater nodupLater
    have turned := walks_turned (followsById_irreflexive true) (followsById_asymmetric true)
      (followsById_transitive true) ordered pages short
    rw [walksLater.unique turned] at sameLater
    exact ⟨sameLater.length_eq ▸ short, sameLater⟩
  · rintro ⟨few, sameLater⟩
    have turned := walks_turned (followsById_irreflexive true) (followsById_asymmetric true)
      (followsById_transitive true) ordered pages (sameLater.length_eq ▸ few)
    have equal : domainPage database param (some last) = shownLater database param true := by
      rcases shown : shownLater database param true with _ | ⟨first, _ | ⟨second, more⟩⟩
      · rw [shown] at sameLater
        exact sameLater.eq_nil
      · rw [shown] at sameLater
        exact List.perm_singleton.mp sameLater
      · rw [shown, List.length_cons, List.length_cons] at few
        omega
    refine ⟨_, page.walks_none turned, (perm_matching_iff _).mpr sameLater,
      param.timestampFirst, ?_⟩
    rw [equal]
    exact pairwise_listing

/-- Pages behind the first one that are all empty. -/
theorem visits_iff_of_stuck (page : IsFirstPage database param true domain last)
    (before : param.timestampBefore.isSome = true) (after : param.timestampAfter.isSome = true) :
    (∃ visited, Walks (domainPage database param) none visited ∧
        VisitsEachOnce database param true visited) ↔
      LaterIsBehind database param true domain last := by
  have empty : domainPage database param (some last) = [] := by
    rw [page.page_some]
    have nothing : param.behind true last = fun _ => false := by
      funext d
      unfold DomainListGetParam.behind
      rw [before, after]
      rfl
    rw [nothing, List.filter_false, List.take_nil]
  have stops := walks_of_empty empty
  unfold LaterIsBehind
  rw [before, after, Bool.and_self, if_pos rfl, if_pos rfl]
  constructor
  · rintro ⟨visited, walked, same, -⟩
    rw [walked.unique (page.walks_none stops), perm_matching_iff] at same
    exact same.symm.eq_nil
  · intro none_left
    have all := @pairwise_listing param true database
    rw [none_left] at all
    refine ⟨_, page.walks_none stops, (perm_matching_iff _).mpr ?_, param.timestampFirst, all⟩
    rw [none_left]

theorem visits_iff (page : IsFirstPage database param ascending domain last) :
    (∃ visited, Walks (domainPage database param) none visited ∧
        VisitsEachOnce database param ascending visited) ↔
      LaterIsBehind database param ascending domain last := by
  cases direction : ascending && param.timestampBefore.isSome with
  | false => exact page.visits_iff_of_forward direction
  | true =>
      rw [Bool.and_eq_true] at direction
      obtain ⟨rfl, before⟩ := direction
      cases after : param.timestampAfter.isSome with
      | false => exact page.visits_iff_of_turned before after
      | true => exact page.visits_iff_of_stuck before after

end IsFirstPage

/-- A walk through the pages shows every matching row once, in one order, exactly
when the rows behind the first page are the other matching rows. -/
theorem walk_visitsEachOnce_iff (unique : (database.domain.map (·.id)).Nodup)
    (request : IsFirstRequest param ascending domain) :
    (∃ visited, Walks (domainPage database param) none visited ∧
        VisitsEachOnce database param ascending visited) ↔
      WalkFits database param ascending domain := by
  have sameLength : (listing database param ascending).length =
      (matching database param).length :=
    ((param.firstOrder ascending).sort_perm _).length_eq
  unfold WalkFits
  by_cases nothing : matching database param = []
  · have empty : domainPage database param none = [] := by
      rw [nothing, List.length_nil, List.length_eq_zero_iff] at sameLength
      rw [domainPage_none request, sameLength, List.take_nil, ite_self]
    refine ⟨fun _ => Or.inl nothing, fun _ => ⟨[], walks_of_empty empty, ?_, false, List.Pairwise.nil⟩⟩
    rw [nothing]
  · by_cases small : param.pageSize < 2 ^ 63
    · cases ends : (shownFirst database param ascending).getLast? with
      | none =>
          have positive := request.pageSize
          have some_row := List.length_pos_iff.mpr nothing
          have empty := congrArg List.length (List.getLast?_eq_none_iff.mp ends)
          rw [shownFirst, List.length_take, sameLength, List.length_nil] at empty
          omega
      | some last =>
          have page : IsFirstPage database param ascending domain last :=
            ⟨unique, request, small, ends⟩
          rw [page.visits_iff]
          constructor
          · intro later
            exact Or.inr ⟨small, last, rfl, later⟩
          · rintro (empty | ⟨-, other, same, later⟩)
            · exact absurd empty nothing
            · cases same
              exact later
    · constructor
      · rintro ⟨visited, walked, same, -⟩
        have empty : domainPage database param none = [] := by
          rw [domainPage_none request, if_neg small]
        rw [walked.unique (walks_of_empty empty)] at same
        exact Or.inl same.symm.eq_nil
      · rintro (empty | ⟨fits, -⟩)
        · exact absurd empty nothing
        · exact absurd fits small

/-- A query with the given id and time. -/
def loggedQuery (id timestamp : Nat) : DomainData where
  id := id
  timestamp := timestamp
  domain := "a.com".toList
  domainType := 1
  client := "10.0.0.2".toList
  domainGroup := "default".toList
  replyCode := 0
  queryTime := 5
  pingTime := 0
  isBlocked := false
  isCached := false

theorem walk_visitsEachOnce_example :
    (∃ visited, Walks (domainPage { domain := [loggedQuery 1 100, loggedQuery 2 200] }
        { pageSize := 1 }) none visited ∧
        VisitsEachOnce { domain := [loggedQuery 1 100, loggedQuery 2 200] } { pageSize := 1 } false
          visited) ↔
      WalkFits { domain := [loggedQuery 1 100, loggedQuery 2 200] } { pageSize := 1 } false [] :=
  walk_visitsEachOnce_iff (by decide) ⟨rfl, rfl, rfl, rfl, by decide⟩

/-- A query that was stored first although it came later: newest first, the first
page shows it, and the other is not behind it. -/
theorem not_walk_visitsEachOnce :
    ¬ ∀ (database : Database) (param : DomainListGetParam) (ascending : Bool)
      (domain : List DomainCondition), (database.domain.map (·.id)).Nodup →
      IsFirstRequest param ascending domain →
      ∃ visited, Walks (domainPage database param) none visited ∧
        VisitsEachOnce database param ascending visited := by
  intro visitsAll
  obtain ⟨visited, walked, same, -⟩ := visitsAll
    { domain := [loggedQuery 1 200, loggedQuery 2 100] } { pageSize := 1 } false [] (by decide)
    ⟨rfl, rfl, rfl, rfl, by decide⟩
  have stops : Walks (domainPage { domain := [loggedQuery 1 200, loggedQuery 2 100] }
      { pageSize := 1 }) none [loggedQuery 1 200] := ⟨2, by decide⟩
  rw [walked.unique stops] at same
  exact absurd same.length_eq (by decide)

end SmartDnsPlusUi
