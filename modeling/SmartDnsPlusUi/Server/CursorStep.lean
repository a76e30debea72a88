import SmartDnsPlusUi.Server.CursorWalk

/-!
# One step with a cursor

A page behind a cursor leaves out a bound on the time for which the bound of the cursor
stands in, and in ascending order such a bound decides the side of the cursor by itself.
The page is right as far as the rows that this brings in or loses are further off than
a page.
-/

namespace SmartDnsPlusUi

open Arithmetic Table

/-! ### Sides and times -/

/-- The requested side of the cursor. -/
def beyondCursor (ascending forward : Bool) (cursor id : Nat) : Bool :=
  if ascending == forward then cursor < id else id < cursor

/-- The side that the conditions show: in ascending order a bound on the time turns to its
own side, whatever the direction is. -/
def shownSide (ascending forward : Bool) (before after : Option Nat) (cursor id : Nat) : Bool :=
  if ascending && (before.isSome || after.isSome) then
    (before.isNone || id < cursor) && (after.isNone || cursor < id)
  else beyondCursor ascending forward cursor id

/-- The bounds on the time that stay. -/
def keptTimes (ascending forward : Bool) (before after : Option Nat) (timestamp : Nat) : Bool :=
  (forward || ascending || before.all fun v => decide (timestamp ≤ v)) &&
    (!forward || ascending || after.all fun v => decide (v ≤ timestamp))

/-- Both bounds on the time. -/
def withinTimes (before after : Option Nat) (timestamp : Nat) : Bool :=
  (before.all fun v => decide (timestamp ≤ v)) && after.all fun v => decide (v ≤ timestamp)

/-! ### The query list -/

/-- A request for the page on one side of a cursor that is not refused. -/
structure IsStep (param : DomainListGetParam) (ascending forward : Bool)
    (domain : List DomainCondition) (cursor : Nat) : Prop where
  order : orderParam param.order = .ok ascending
  filter : domainFilter param.domain param.domainFilterMode = .ok domain
  cursorId : param.cursor.bind (·.id) = some cursor
  direction : cursorDirection param.cursor = .ok forward

variable {param : DomainListGetParam} {ascending forward : Bool} {domain : List DomainCondition}
  {cursor : Nat} {database : Database}

/-- What a row has to meet to be shown. -/
def DomainListGetParam.stepShows (param : DomainListGetParam) (ascending forward : Bool)
    (domain : List DomainCondition) (cursor : Nat) (d : DomainData) : Bool :=
  (param.fixedConditions domain).all (·.holds d) &&
    keptTimes ascending forward param.timestampBefore param.timestampAfter d.timestamp &&
    shownSide ascending forward param.timestampBefore param.timestampAfter cursor d.id

/-- What is asked for: all the filters, on the requested side of the cursor. -/
def DomainListGetParam.stepWanted (param : DomainListGetParam) (ascending forward : Bool)
    (domain : List DomainCondition) (cursor : Nat) (d : DomainData) : Bool :=
  param.shows domain d && beyondCursor ascending forward cursor d.id

theorem getDomainSqlWhere_step (step : IsStep param ascending forward domain cursor) :
    getDomainSqlWhere (some param) =
      .ok (param.conditionsWith domain
          (timestampBeforeFilter (forward || ascending) param.timestampBefore (some cursor) ++
            timestampAfterFilter (!forward || ascending) param.timestampAfter (some cursor) ++
            cursorFilter (param.timestampBefore.isSome && (forward || ascending) ||
                param.timestampAfter.isSome && (!forward || ascending))
              ascending forward (some cursor)),
        some (idOrder (ascending == forward))) := by
  simp only [getDomainSqlWhere, step.order, step.filter, step.direction, step.cursorId, bind,
    Except.bind, DomainListGetParam.conditionsWith, Option.isSome_some, Bool.true_and,
    Option.isNone_some, Bool.and_false, Bool.false_and, List.append_assoc, idOrder]
  cases ascending <;> cases forward <;> rfl

theorem stepShows_eq (d : DomainData) :
    (param.conditionsWith domain
      (timestampBeforeFilter (forward || ascending) param.timestampBefore (some cursor) ++
        timestampAfterFilter (!forward || ascending) param.timestampAfter (some cursor) ++
        cursorFilter (param.timestampBefore.isSome && (forward || ascending) ||
            param.timestampAfter.isSome && (!forward || ascending))
          ascending forward (some cursor))).all (·.holds d) =
      param.stepShows ascending forward domain cursor d := by
  rw [all_conditionsWith, List.all_append, List.all_append]
  unfold DomainListGetParam.stepShows keptTimes shownSide beyondCursor
  generalize (param.fixedConditions domain).all (·.holds d) = fixed
  cases ascending <;> cases forward <;> cases param.timestampBefore <;>
    cases param.timestampAfter <;>
    simp [timestampBeforeFilter, timestampAfterFilter, cursorFilter, DomainCondition.holds,
      Bool.and_assoc]
  exact congrArg _ (Bool.and_comm _ _)

/-- The rows in id order. -/
theorem isListing_idOrder (unique : (database.domain.map (·.id)).Nodup) (rising : Bool) :
    IsListing (·.id) database.domain rising ((idOrder rising).sort database.domain) :=
  ⟨(idOrder rising).sort_perm _, pairwise_followsById unique⟩

/-- The page that is asked for. -/
def domainStep (database : Database) (param : DomainListGetParam) (ascending forward : Bool)
    (domain : List DomainCondition) (cursor : Nat) : List DomainData :=
  nearest forward param.pageSize
    (((idOrder ascending).sort database.domain).filter
      (param.stepWanted ascending forward domain cursor))

/-- Every row that is shown and not wanted, or wanted and not shown, has a full page of rows
that are shown nearer to the cursor. -/
def StepFits (database : Database) (param : DomainListGetParam) (ascending forward : Bool)
    (domain : List DomainCondition) (cursor : Nat) : Prop :=
  if param.pageSize < 2 ^ 63 then
    ∀ d ∈ database.domain,
      param.stepShows ascending forward domain cursor d ≠
          param.stepWanted ascending forward domain cursor d →
        param.pageSize ≤ (database.domain.filter fun other =>
          param.stepShows ascending forward domain cursor other &&
            follows (·.id) (ascending == forward) other d).length
  else ∀ d ∈ database.domain, param.stepWanted ascending forward domain cursor d = false

/-- The rows of a page: nearest to the cursor first, turned round on the way back. -/
theorem getDomainList_step (unique : (database.domain.map (·.id)).Nodup)
    (step : IsStep param ascending forward domain cursor) :
    ∃ result, getDomainList database (some param) = .ok result ∧
      result.domainList =
        let rows := limitRows param.pageSize 0
          (((idOrder (ascending == forward)).sort database.domain).filter
            (param.stepShows ascending forward domain cursor))
        if forward then rows else rows.reverse := by
  obtain ⟨cursorParam, found⟩ : ∃ cursorParam, param.cursor = some cursorParam := by
    cases found : param.cursor with
    | none => exact absurd (found ▸ step.cursorId) nofun
    | some cursorParam => exact ⟨cursorParam, rfl⟩
  have backwards : eqIgnoreAsciiCase cursorParam.direction "prev" = !forward := by
    have direction := step.direction
    rw [found] at direction
    simp only [cursorDirection] at direction
    split_ifs at direction with prev next
    · cases direction
      exact prev
    · cases direction
      exact Bool.eq_false_iff.mpr prev
  have cursorId := step.cursorId
  rw [found, Option.bind_some] at cursorId
  unfold getDomainList
  simp only [getDomainSqlWhere_step step, bind, Except.bind, found, Option.bind_some, cursorId,
    backwards]
  refine ⟨_, rfl, ?_⟩
  have sorted := @filter_idOrder_sort (ascending == forward) _ unique
    (param.stepShows ascending forward domain cursor)
  have shown : (database.domain.filter fun d => (param.conditionsWith domain
      (timestampBeforeFilter (forward || ascending) param.timestampBefore (some cursor) ++
        timestampAfterFilter (!forward || ascending) param.timestampAfter (some cursor) ++
        cursorFilter (param.timestampBefore.isSome && (forward || ascending) ||
            param.timestampAfter.isSome && (!forward || ascending))
          ascending forward (some cursor))).all (·.holds d)) =
      database.domain.filter (param.stepShows ascending forward domain cursor) :=
    List.filter_congr fun d _ => stepShows_eq d
  simp only [selectDomain, shown, sorted]
  cases forward <;> rfl

/-- A page behind a cursor is the page that is asked for exactly when the rows on which the
conditions and the filters differ are further off than a page. -/
theorem getDomainList_step_iff (unique : (database.domain.map (·.id)).Nodup)
    (step : IsStep param ascending forward domain cursor) (positive : 1 ≤ param.pageSize) :
    (∃ result, getDomainList database (some param) = .ok result ∧
        result.domainList = domainStep database param ascending forward domain cursor) ↔
      StepFits database param ascending forward domain cursor := by
  obtain ⟨result, found, shown⟩ := getDomainList_step unique step
  have listing := isListing_idOrder unique ascending
  have away := isListing_idOrder unique (ascending == forward)
  rw [found]
  simp only [Except.ok.injEq, exists_eq_left', shown]
  unfold domainStep StepFits limitRows
  by_cases small : param.pageSize < 2 ^ 63
  · simp only [small, if_true, List.drop_zero, true_and, show 0 < 2 ^ 63 from by decide]
    exact listing.nearest_iff away param.pageSize
  · simp only [small, if_false, false_and, List.reverse_nil, ite_self]
    rw [eq_comm, nearest_eq_nil_iff positive, List.filter_eq_nil_iff]
    simp only [Bool.not_eq_true, listing.perm.mem_iff]

/-- A request with a bound on the time, for the next page behind the query with id 1. -/
def stepParam (order : Text) : DomainListGetParam where
  order := some order
  timestampBefore := some 100
  cursor := some { id := some 1, totalCount := 2, direction := "next" }

theorem getDomainList_step_example :
    ∃ result,
      getDomainList { domain := [loggedQuery 1 10, loggedQuery 0 5] } (some (stepParam "desc")) =
          .ok result ∧
        result.domainList = domainStep { domain := [loggedQuery 1 10, loggedQuery 0 5] }
          (stepParam "desc") false true [] 1 :=
  (getDomainList_step_iff (by decide) ⟨rfl, rfl, rfl, rfl⟩ (by decide)).mpr (by
    unfold StepFits
    decide)

/-- In ascending order the bound on the time makes the page turn to smaller ids: the query with
id 2, which is next, is not shown. -/
theorem not_getDomainList_step :
    ¬ ∀ (database : Database) (param : DomainListGetParam) (ascending forward : Bool)
        (domain : List DomainCondition) (cursor : Nat),
      (database.domain.map (·.id)).Nodup → IsStep param ascending forward domain cursor →
      1 ≤ param.pageSize →
      ∃ result, getDomainList database (some param) = .ok result ∧
        result.domainList = domainStep database param ascending forward domain cursor := by
  intro shows
  obtain ⟨result, found, shown⟩ := shows { domain := [loggedQuery 1 10, loggedQuery 2 20] }
    (stepParam "asc") true true [] 1 (by decide) ⟨rfl, rfl, rfl, rfl⟩ (by decide)
  have nothing : rowsOf (getDomainList { domain := [loggedQuery 1 10, loggedQuery 2 20] }
      (some (stepParam "asc"))) = [] := by decide
  rw [found] at nothing
  revert shown
  rw [show result.domainList = [] from nothing]
  decide

end SmartDnsPlusUi
