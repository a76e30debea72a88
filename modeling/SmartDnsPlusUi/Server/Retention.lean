import SmartDnsPlusUi.Server.QueryCount
import SmartDnsPlusUi.Server.SubCounters

/-!
# Retention

A refresh deletes what is too old from three tables.  The bound for the queries is a time
before now; the bounds for the counts are ages, used as if they were times.
-/

namespace SmartDnsPlusUi

open Arithmetic

/-- Days in milliseconds. -/
def daysMs (days : Nat) : Nat := days * 24 * 3600 * 1000

/-- The counts whose time is after a bound. -/
def countsAfter (bound : Int) (counts : Table.Rows Nat Nat) : Table.Rows Nat Nat :=
  fun start => if bound < (start : Int) then counts start else none

/-- The tables hold their former rows that are young enough, and no others. -/
structure HoldsYoung (call : RefreshCall) (database refreshed : Database) : Prop where
  domain : refreshed.domain = database.domain.filter fun d =>
    decide ((call.now : Int) - call.maxLogAgeMs < d.timestamp)
  hourly : refreshed.domainHourlyCount =
    countsAfter (call.now - daysMs 30) database.domainHourlyCount
  daily : refreshed.domainDailyCount =
    countsAfter (call.now - daysMs 90) database.domainDailyCount

/-- No time lies after the smaller and up to the larger of two bounds. -/
def NoneBetween (times : Nat → Prop) (used meant : Int) : Prop :=
  ∀ time, times time → ¬ (min used meant < time ∧ time ≤ max used meant)

theorem noneBetween_iff {times : Nat → Prop} {used meant : Int} :
    NoneBetween times used meant ↔ ∀ time, times time → (used < time ↔ meant < time) := by
  refine forall₂_congr fun time _ => ?_
  omega

/-- The statements of a refresh go through. -/
structure NoErrors (call : RefreshCall) : Prop where
  domain : call.domainFails = false
  hourly : call.hourlyFails = false
  daily : call.dailyFails = false
  bound : wrappingSub 64 call.now call.maxLogAgeMs < 2 ^ 63

/-! ### The three tables -/

theorem filter_eq_filter_iff {rows : List DomainData} {used : Nat} {meant : Int} :
    (rows.filter fun d => decide (used < d.timestamp)) =
        rows.filter (fun d => decide (meant < d.timestamp)) ↔
      NoneBetween (fun time => ∃ d ∈ rows, d.timestamp = time) used meant := by
  rw [noneBetween_iff]
  constructor
  · rintro same time ⟨d, listed, rfl⟩
    have kept : d ∈ rows.filter (fun d => decide (used < d.timestamp)) ↔
        d ∈ rows.filter (fun d => decide (meant < d.timestamp)) := by rw [same]
    simpa [listed] using kept
  · intro agree
    refine List.filter_congr fun d listed => ?_
    simpa using agree d.timestamp ⟨d, listed, rfl⟩

theorem deleteCount_eq_iff {counts : Table.Rows Nat Nat} {used : Nat} {meant : Int} :
    deleteCountBeforeTimestamp used counts = countsAfter meant counts ↔
      NoneBetween (fun time => counts time ≠ none) used meant := by
  rw [noneBetween_iff, funext_iff]
  refine forall_congr' fun time => ?_
  unfold deleteCountBeforeTimestamp countsAfter
  cases counts time with
  | none => simp
  | some count =>
      simp only [ne_eq, reduceCtorEq, not_false_eq_true, true_implies, Nat.cast_lt]
      by_cases old : time ≤ used <;> by_cases young : meant < (time : Int) <;>
        simp [old, young, not_lt.mpr, lt_of_not_ge]

/-- What a refresh without errors leaves. -/
theorem refresh_eq {call : RefreshCall} (works : NoErrors call) (database : Database) :
    refresh call database =
      { database with
        domain := database.domain.filter fun d =>
          decide (wrappingSub 64 call.now call.maxLogAgeMs < d.timestamp)
        domainHourlyCount := deleteCountBeforeTimestamp (daysMs 30) database.domainHourlyCount
        domainDailyCount := deleteCountBeforeTimestamp (daysMs 90) database.domainDailyCount } := by
  unfold refresh attempt deleteDomainBeforeTimestamp
  rw [works.domain, works.hourly, works.daily]
  simp only [Bool.false_eq_true, if_false, Run.Statement.guarded, if_pos works.bound]
  rfl

/-- Exactly when a refresh deletes what is too old, and nothing else. -/
theorem holdsYoung_iff {call : RefreshCall} (works : NoErrors call) (database : Database) :
    HoldsYoung call database (refresh call database) ↔
      NoneBetween (fun time => ∃ d ∈ database.domain, d.timestamp = time)
          (wrappingSub 64 call.now call.maxLogAgeMs) ((call.now : Int) - call.maxLogAgeMs) ∧
        NoneBetween (fun time => database.domainHourlyCount time ≠ none)
          (daysMs 30) (call.now - daysMs 30) ∧
        NoneBetween (fun time => database.domainDailyCount time ≠ none)
          (daysMs 90) (call.now - daysMs 90) := by
  rw [refresh_eq works, ← filter_eq_filter_iff, ← deleteCount_eq_iff, ← deleteCount_eq_iff]
  exact ⟨fun holds => ⟨holds.domain, holds.hourly, holds.daily⟩,
    fun both => ⟨both.1, both.2.1, both.2.2⟩⟩

/-- In each table a row that is young and one that is old.  The old counts are of the first days
after the epoch. -/
def agedTables : Database where
  domain := [queryAt (19000 * 24) "old.com", queryAt (19990 * 24) "new.com"]
  domainHourlyCount start :=
    if start = daysMs 10 then some 3 else if start = daysMs 19999 then some 7 else none
  domainDailyCount start :=
    if start = daysMs 20 then some 5 else if start = daysMs 19950 then some 9 else none

theorem holdsYoung_iff_example :
    HoldsYoung { now := daysMs 20000, maxLogAgeMs := daysMs 30 } agedTables
      (refresh { now := daysMs 20000, maxLogAgeMs := daysMs 30 } agedTables) := by
  apply (holdsYoung_iff ⟨rfl, rfl, rfl, by decide⟩ agedTables).mpr
  refine ⟨?_, ?_, ?_⟩
  · rintro time ⟨d, listed, rfl⟩
    have same : (wrappingSub 64 (daysMs 20000) (daysMs 30) : Int) =
        (daysMs 20000 : Int) - daysMs 30 := by decide
    dsimp only
    omega
  · intro time found
    have times : time = daysMs 10 ∨ time = daysMs 19999 := by
      by_contra neither
      rw [not_or] at neither
      simp [agedTables, neither] at found
    rcases times with rfl | rfl
    · decide
    · decide
  · intro time found
    have times : time = daysMs 20 ∨ time = daysMs 19950 := by
      by_contra neither
      rw [not_or] at neither
      simp [agedTables, neither] at found
    rcases times with rfl | rfl
    · decide
    · decide

/-- A count of the first day of the year 2024 is still there two years later. -/
theorem not_holdsYoung :
    ¬ ∀ (call : RefreshCall) (database : Database), NoErrors call →
      HoldsYoung call database (refresh call database) := by
  intro holds
  have hourly := (holds { now := daysMs 20454, maxLogAgeMs := daysMs 30 }
    { domainHourlyCount := fun start => if start = daysMs 19723 then some 7 else none }
    ⟨rfl, rfl, rfl, by decide⟩).hourly
  have counts := congrFun hourly (daysMs 19723)
  revert counts
  decide

end SmartDnsPlusUi
