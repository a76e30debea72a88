import SmartDnsPlusUi.Arithmetic.Wrapping
import SmartDnsPlusUi.Run.Basic
import SmartDnsPlusUi.Server.Database

/-!
# Query counts

`insert_domain` stores a batch of queries and counts them by local hour and by
local day, all in one transaction.  The counts of a batch are kept in `u32`
counters of a hash map before they are added to the tables.
-/

namespace SmartDnsPlusUi

open Arithmetic Run Table

/-- The offset of local time from UTC, less than a day either way. -/
structure UtcOffset where
  seconds : Int
  lower : -86400 < seconds
  upper : seconds < 86400

def hourWidth : Nat := 3600000

def dayWidth : Nat := 86400000

/-- The start of the local bucket of a timestamp, computed in `u64`. -/
def bucketTimestamp (width : Nat) (offset : UtcOffset) (timestamp : Nat) : Nat :=
  let localOffset := wrappingMul 64 (ofInt 64 offset.seconds) 1000
  let localtimestamp := wrappingAdd 64 timestamp localOffset
  wrappingSub 64 (wrappingSub 64 localtimestamp (localtimestamp % width)) localOffset

def hourTimestamp : UtcOffset → Nat → Nat := bucketTimestamp hourWidth

def dayTimestamp : UtcOffset → Nat → Nat := bucketTimestamp dayWidth

/-- A call of `insert_domain`: the batch, the statement at which it fails if it
does, and the orders in which the two hash maps are enumerated. -/
structure InsertCall where
  data : List DomainData
  fault : Option Nat := none
  hourlyOrder : IterationOrder (Nat × Nat) := .inserted
  dailyOrder : IterationOrder (Nat × Nat) := .inserted

/-- The counters of a batch are `u32`. -/
def counterModulus : Nat := 2 ^ 32

def hourlyCount (offset : UtcOffset) (data : List DomainData) : List (Nat × Nat) :=
  tally counterModulus (data.map fun d => hourTimestamp offset d.timestamp)

def dailyCount (offset : UtcOffset) (data : List DomainData) : List (Nat × Nat) :=
  tally counterModulus (data.map fun d => dayTimestamp offset d.timestamp)

/-- The statements of `insert_domain`: open, prepare, one row for each query,
finalize, the two updates, commit. -/
def insertDomainStatements (offset : UtcOffset) (call : InsertCall) : List (Statement Database) :=
  [.skip, .skip] ++ call.data.map insertRow ++ [.skip] ++
    updateDomainHourlyCount (call.hourlyOrder.enumerate (hourlyCount offset call.data)) ++
    updateDomainDailyCount (call.dailyOrder.enumerate (dailyCount offset call.data)) ++ [.skip]

/-- The database after a call, and whether the call succeeded. -/
def insertDomain (offset : UtcOffset) (call : InsertCall) (database : Database) :
    Database × Bool :=
  transact call.fault (insertDomainStatements offset call) database

/-- A database with the batches that were stored in it. -/
structure QueryLog where
  database : Database := {}
  batches : List (List DomainData) := []

def insertStep (offset : UtcOffset) (log : QueryLog) (call : InsertCall) : Option QueryLog :=
  match insertDomain offset call log.database with
  | (database, true) => some { database, batches := log.batches ++ [call.data] }
  | (database, false) => some { log with database }

/-- The timestamps for which the arithmetic is meant. -/
def ValidTimestamp (timestamp : Nat) : Prop := 86400000 ≤ timestamp ∧ timestamp < 2 ^ 63

instance : DecidablePred ValidTimestamp := fun _ => inferInstanceAs (Decidable (_ ∧ _))

/-- The timestamp falls in the local bucket that starts at `start`. -/
def InBucket (width : Nat) (offset : UtcOffset) (start timestamp : Nat) : Prop :=
  start ≤ timestamp ∧ timestamp < start + width ∧
    (width : Int) ∣ (start : Int) + 1000 * offset.seconds

instance (width : Nat) (offset : UtcOffset) (start timestamp : Nat) :
    Decidable (InBucket width offset start timestamp) :=
  inferInstanceAs (Decidable (_ ∧ _ ∧ _))

/-- How many of the queries fall in a bucket. -/
def bucketCount (width : Nat) (offset : UtcOffset) (start : Nat) (data : List DomainData) : Nat :=
  data.countP fun d => InBucket width offset start d.timestamp

/-! ### The bucket of a timestamp -/

theorem localTimestamp_nonneg {offset : UtcOffset} {timestamp : Nat}
    (valid : ValidTimestamp timestamp) : 0 ≤ (timestamp : Int) + 1000 * offset.seconds := by
  have late := valid.1
  have lower := offset.lower
  omega

/-- The arithmetic in `u64` does what the arithmetic on the integers does. -/
theorem bucketTimestamp_eq_ofInt {width : Nat} (positive : 0 < width) (bounded : width ≤ 86400000)
    {offset : UtcOffset} {timestamp : Nat} (valid : ValidTimestamp timestamp) :
    bucketTimestamp width offset timestamp =
      ofInt 64 (floorTo width (timestamp + 1000 * offset.seconds) - 1000 * offset.seconds) := by
  obtain ⟨late, early⟩ := valid
  have nonneg := @localTimestamp_nonneg offset timestamp ⟨late, early⟩
  have upper := offset.upper
  have offsetMs : wrappingMul 64 (ofInt 64 offset.seconds) 1000 =
      ofInt 64 (1000 * offset.seconds) := by
    rw [mul_comm 1000, ← wrappingMul_ofInt]
    rfl
  have localMs : wrappingAdd 64 timestamp (ofInt 64 (1000 * offset.seconds)) =
      ofInt 64 (timestamp + 1000 * offset.seconds) := by
    rw [← wrappingAdd_ofInt, ofInt_natCast (by omega)]
  have exact : (ofInt 64 (timestamp + 1000 * offset.seconds) : Int) =
      timestamp + 1000 * offset.seconds := cast_ofInt_of_range nonneg (by omega)
  have remainder : ofInt 64 (timestamp + 1000 * offset.seconds) % width =
      ofInt 64 ((timestamp + 1000 * offset.seconds) % width) := by
    have below := Int.emod_lt_of_pos (timestamp + 1000 * offset.seconds)
      (show (0 : Int) < width by omega)
    apply Int.natCast_inj.mp
    rw [cast_ofInt_of_range (Int.emod_nonneg _ (by omega)) (by omega), Int.natCast_emod, exact]
  simp only [bucketTimestamp]
  rw [offsetMs, localMs, remainder, wrappingSub_ofInt, wrappingSub_ofInt]
  rfl

/-- The start computed for a timestamp is that of the bucket it falls in. -/
theorem bucketTimestamp_eq_iff {width : Nat} (positive : 0 < width) (bounded : width ≤ 86400000)
    {offset : UtcOffset} {timestamp : Nat} (valid : ValidTimestamp timestamp) (start : Nat) :
    bucketTimestamp width offset timestamp = start ↔ InBucket width offset start timestamp := by
  have late := valid.1
  have early := valid.2
  have nonneg := @localTimestamp_nonneg offset timestamp valid
  have lower := Int.emod_nonneg ((timestamp : Int) + 1000 * offset.seconds)
    (show (width : Int) ≠ 0 by omega)
  have upper := Int.emod_lt_of_pos ((timestamp : Int) + 1000 * offset.seconds)
    (show (0 : Int) < width by omega)
  have exact : (bucketTimestamp width offset timestamp : Int) =
      floorTo width (timestamp + 1000 * offset.seconds) - 1000 * offset.seconds := by
    rw [bucketTimestamp_eq_ofInt positive bounded valid]
    apply cast_ofInt_of_range
    · unfold floorTo
      omega
    · unfold floorTo
      omega
  have floors := floorTo_eq_iff (show (0 : Int) < width by omega)
    (timestamp + 1000 * offset.seconds) (start + 1000 * offset.seconds)
  unfold InBucket
  constructor
  · intro same
    obtain ⟨below, above, multiple⟩ := floors.mp (by omega)
    exact ⟨by omega, by omega, multiple⟩
  · rintro ⟨below, above, multiple⟩
    have floor := floors.mpr ⟨by omega, by omega, multiple⟩
    omega

theorem inBucket_bucketTimestamp {width : Nat} (positive : 0 < width)
    (bounded : width ≤ 86400000) (offset : UtcOffset) {timestamp : Nat}
    (valid : ValidTimestamp timestamp) :
    InBucket width offset (bucketTimestamp width offset timestamp) timestamp :=
  (bucketTimestamp_eq_iff positive bounded valid _).mp rfl

/-- The bucket of a multiple of the width starts no later. -/
theorem InBucket.start_le {narrow wide : Nat} (multiple : narrow ∣ wide) {offset : UtcOffset}
    {start first timestamp : Nat} (inNarrow : InBucket narrow offset start timestamp)
    (inWide : InBucket wide offset first timestamp) : first ≤ start := by
  obtain ⟨-, early, starts⟩ := inNarrow
  obtain ⟨late, -, begins⟩ := inWide
  by_contra after
  have apart : (narrow : Int) ∣ (first : Int) - start := by
    have both := Int.dvd_sub ((Int.natCast_dvd_natCast.mpr multiple).trans begins) starts
    rwa [add_sub_add_right_eq_sub] at both
  have least := Int.le_of_dvd (by omega) apart
  omega

/-- Each query is counted in the local hour and in the local day that it falls in, and the
day begins no later than the hour. -/
theorem hourTimestamp_dayTimestamp (offset : UtcOffset) (timestamp : Nat)
    (late : 86400000 ≤ timestamp) (early : timestamp < 2 ^ 63) :
    InBucket hourWidth offset (hourTimestamp offset timestamp) timestamp ∧
      InBucket dayWidth offset (dayTimestamp offset timestamp) timestamp ∧
      dayTimestamp offset timestamp ≤ hourTimestamp offset timestamp := by
  have hour := inBucket_bucketTimestamp (by decide : 0 < hourWidth) (by decide) offset
    ⟨late, early⟩
  have day := inBucket_bucketTimestamp (by decide : 0 < dayWidth) (by decide) offset
    ⟨late, early⟩
  exact ⟨hour, day, hour.start_le (by decide) day⟩

def westernOffset : UtcOffset := ⟨-12600, by decide, by decide⟩

theorem hourTimestamp_dayTimestamp_example :
    InBucket hourWidth westernOffset (hourTimestamp westernOffset 86400000) 86400000 ∧
      InBucket dayWidth westernOffset (dayTimestamp westernOffset 86400000) 86400000 ∧
      dayTimestamp westernOffset 86400000 ≤ hourTimestamp westernOffset 86400000 :=
  hourTimestamp_dayTimestamp westernOffset 86400000 (by decide) (by decide)

/-- The keys of a batch that are `start` are the queries in that bucket. -/
theorem count_bucketTimestamp {width : Nat} (positive : 0 < width) (bounded : width ≤ 86400000)
    {offset : UtcOffset} {data : List DomainData}
    (valid : ∀ d ∈ data, ValidTimestamp d.timestamp) (start : Nat) :
    (data.map fun d => bucketTimestamp width offset d.timestamp).count start =
      bucketCount width offset start data := by
  unfold bucketCount
  rw [List.count, List.countP_map]
  refine List.countP_congr fun d listed => ?_
  simpa using bucketTimestamp_eq_iff positive bounded (valid d listed) start

/-! ### What a call does -/

/-- The database after a call that went through. -/
def stored (offset : UtcOffset) (call : InsertCall) (database : Database) : Database :=
  { database with
    domain := database.domain ++ numbered database.domainSequence call.data
    domainSequence := database.domainSequence + call.data.length
    domainHourlyCount := addAll database.domainHourlyCount
      (call.hourlyOrder.enumerate (hourlyCount offset call.data))
    domainDailyCount := addAll database.domainDailyCount
      (call.dailyOrder.enumerate (dailyCount offset call.data)) }

theorem runStatements_insertDomainStatements (offset : UtcOffset) (call : InsertCall)
    (database : Database) :
    runStatements (insertDomainStatements offset call) database =
      if (call.data = [] ∨ database.domainSequence + call.data.length < 2 ^ 63) ∧
          (∀ entry ∈ call.hourlyOrder.enumerate (hourlyCount offset call.data),
            entry.1 < 2 ^ 63) ∧
          ∀ entry ∈ call.dailyOrder.enumerate (dailyCount offset call.data), entry.1 < 2 ^ 63 then
        some (stored offset call database)
      else none := by
  unfold insertDomainStatements updateDomainHourlyCount updateDomainDailyCount
  have skipped (database : Database) : runStatements [.skip] database = some database := rfl
  have opened (database : Database) :
      runStatements [.skip, .skip] database = some database := rfl
  simp only [runStatements_append, runStatements_insertRow, runStatements_updateCount, skipped,
    opened, Option.bind_some]
  by_cases rows : call.data = [] ∨ database.domainSequence + call.data.length < 2 ^ 63
  · by_cases hours : ∀ entry ∈ call.hourlyOrder.enumerate (hourlyCount offset call.data),
        entry.1 < 2 ^ 63
    · by_cases days : ∀ entry ∈ call.dailyOrder.enumerate (dailyCount offset call.data),
          entry.1 < 2 ^ 63
      · rw [if_pos rows, if_pos ⟨rows, hours, days⟩]
        simp only [Option.bind_some, if_pos hours, if_pos days, foldl_setHourlyCount,
          foldl_setDailyCount]
        rfl
      · rw [if_pos rows, if_neg fun all => days all.2.2]
        simp only [Option.bind_some, if_pos hours, if_neg days, Option.bind_none]
    · rw [if_pos rows, if_neg fun all => hours all.2.1]
      simp only [Option.bind_some, if_neg hours, Option.bind_none]
  · rw [if_neg rows, if_neg fun all => rows all.1]
    rfl

theorem insertDomain_committed {offset : UtcOffset} {call : InsertCall} {database : Database}
    (committed : (insertDomain offset call database).2 = true) :
    (insertDomain offset call database).1 = stored offset call database := by
  have runs := runStatements_of_transact committed
  rw [runStatements_insertDomainStatements] at runs
  split at runs
  · exact (Option.some.inj runs).symm
  · cases runs

/-! ### Runs -/

/-- The table has a row for each bucket with a query, and the row has the sum of
what the counters of the batches showed. -/
def CountsBatches (width : Nat) (offset : UtcOffset) (table : Rows Nat Nat)
    (batches : List (List DomainData)) : Prop :=
  ∀ start, table start =
    if bucketCount width offset start batches.flatten = 0 then none
    else some (batches.map fun batch =>
      bucketCount width offset start batch % counterModulus).sum

/-- The table has a row for each bucket with a query, and the row has their
number. -/
def IsExact (width : Nat) (offset : UtcOffset) (table : Rows Nat Nat)
    (data : List DomainData) : Prop :=
  ∀ start, table start =
    if bucketCount width offset start data = 0 then none
    else some (bucketCount width offset start data)

theorem bucketCount_append (width : Nat) (offset : UtcOffset) (start : Nat)
    (data later : List DomainData) :
    bucketCount width offset start (data ++ later) =
      bucketCount width offset start data + bucketCount width offset start later :=
  List.countP_append

theorem bucketCount_flatten (width : Nat) (offset : UtcOffset) (start : Nat)
    (batches : List (List DomainData)) :
    bucketCount width offset start batches.flatten =
      (batches.map (bucketCount width offset start)).sum := by
  induction batches with
  | nil => rfl
  | cons batch batches inductionHypothesis =>
      rw [List.flatten_cons, bucketCount_append, inductionHypothesis, List.map_cons, List.sum_cons]

theorem sum_mod_bucketCount_le (width : Nat) (offset : UtcOffset) (start : Nat)
    (batches : List (List DomainData)) :
    (batches.map fun batch => bucketCount width offset start batch % counterModulus).sum ≤
      bucketCount width offset start batches.flatten := by
  have wrapped := sum_map_mod_le counterModulus (batches.map (bucketCount width offset start))
  rwa [List.map_map, ← bucketCount_flatten] at wrapped

/-- Adding the tally of one more batch. -/
theorem CountsBatches.addAll {width : Nat} {offset : UtcOffset} {table : Rows Nat Nat}
    {batches : List (List DomainData)} {data : List DomainData} {keys : List Nat}
    {counts : List (Nat × Nat)} (countsBatches : CountsBatches width offset table batches)
    (isTally : IsTally counterModulus keys counts)
    (keyCount : ∀ start, keys.count start = bucketCount width offset start data) :
    CountsBatches width offset (Table.addAll table counts) (batches ++ [data]) := by
  intro start
  have before := countsBatches start
  have wrapped := sum_mod_bucketCount_le width offset start batches
  have listed : start ∈ keys ↔ bucketCount width offset start data ≠ 0 := by
    rw [← keyCount, ← Nat.pos_iff_ne_zero, List.count_pos_iff]
  rw [isTally.addAll_apply, keyCount, List.flatten_append, List.flatten_singleton,
    bucketCount_append, List.map_append, List.sum_append, List.map_singleton, List.sum_singleton]
  by_cases new : bucketCount width offset start data = 0
  · rw [if_neg (mt listed.mp (not_not.mpr new)), before, new, Nat.add_zero, Nat.zero_mod,
      Nat.add_zero]
  · rw [if_pos (listed.mpr new), if_neg (by omega), before]
    by_cases old : bucketCount width offset start batches.flatten = 0
    · have nothing : (batches.map fun batch =>
          bucketCount width offset start batch % counterModulus).sum = 0 := by omega
      rw [if_pos old, nothing]
      rfl
    · rw [if_neg old]
      rfl

/-- The table is exact if and only if no counter of a batch wrapped. -/
theorem CountsBatches.isExact_iff {width : Nat} {offset : UtcOffset} {table : Rows Nat Nat}
    {batches : List (List DomainData)} (countsBatches : CountsBatches width offset table batches) :
    IsExact width offset table batches.flatten ↔
      ∀ batch ∈ batches, ∀ start, bucketCount width offset start batch < counterModulus := by
  have wraps (start : Nat) :
      (batches.map fun batch => bucketCount width offset start batch % counterModulus).sum =
          bucketCount width offset start batches.flatten ↔
        ∀ batch ∈ batches, bucketCount width offset start batch < counterModulus := by
    have general := sum_map_mod_eq_iff (by decide : 0 < counterModulus)
      (batches.map (bucketCount width offset start))
    rwa [List.map_map, ← bucketCount_flatten, List.forall_mem_map] at general
  have exact_iff (start : Nat) :
      (table start = if bucketCount width offset start batches.flatten = 0 then none
        else some (bucketCount width offset start batches.flatten)) ↔
      ∀ batch ∈ batches, bucketCount width offset start batch < counterModulus := by
    rw [countsBatches start, ← wraps]
    have wrapped := sum_mod_bucketCount_le width offset start batches
    by_cases empty : bucketCount width offset start batches.flatten = 0
    · rw [if_pos empty, if_pos empty]
      exact ⟨fun _ => by omega, fun _ => rfl⟩
    · rw [if_neg empty, if_neg empty, Option.some.injEq]
  unfold IsExact
  rw [forall_congr' exact_iff]
  exact ⟨fun all batch listed start => all start batch listed,
    fun all start batch listed => all batch listed start⟩

/-- What the log says about its database. -/
structure LogInvariant (offset : UtcOffset) (log : QueryLog) : Prop where
  hours : CountsBatches hourWidth offset log.database.domainHourlyCount log.batches
  days : CountsBatches dayWidth offset log.database.domainDailyCount log.batches

theorem LogInvariant.insertStep {offset : UtcOffset} {log next : QueryLog} {call : InsertCall}
    (invariant : LogInvariant offset log) (valid : ∀ d ∈ call.data, ValidTimestamp d.timestamp)
    (stepped : insertStep offset log call = some next) : LogInvariant offset next := by
  unfold SmartDnsPlusUi.insertStep at stepped
  rcases outcome : insertDomain offset call log.database with ⟨database, committed⟩
  rw [outcome] at stepped
  cases committed with
  | true =>
      cases stepped
      have after := insertDomain_committed (congrArg Prod.snd outcome)
      rw [outcome] at after
      subst after
      have tallied (keys : List Nat) := isTally_tally (by decide : 1 < counterModulus) keys
      exact ⟨invariant.hours.addAll ((tallied _).perm (call.hourlyOrder.perm _))
          (count_bucketTimestamp (by decide) (by decide) valid),
        invariant.days.addAll ((tallied _).perm (call.dailyOrder.perm _))
          (count_bucketTimestamp (by decide) (by decide) valid)⟩
  | false =>
      cases stepped
      have unchanged := transact_failed (congrArg Prod.snd outcome)
      have same : (insertDomain offset call log.database).1 = log.database := unchanged
      rw [outcome] at same
      subst same
      exact invariant

theorem logInvariant_of_run {offset : UtcOffset} {calls : List InsertCall} {log : QueryLog}
    (valid : ∀ call ∈ calls, ∀ d ∈ call.data, ValidTimestamp d.timestamp)
    (runs : run (insertStep offset) {} calls = some log) : LogInvariant offset log := by
  have start : LogInvariant offset {} := ⟨fun _ => rfl, fun _ => rfl⟩
  exact invariant_of_throughout (fun _ _ _ invariant => invariant.insertStep) start
    (throughout_of_forall_mem valid _) runs

/-- A run of calls, each of which may fail, in which no counter of a stored
batch wraps. -/
structure IsRecording (offset : UtcOffset) (calls : List InsertCall) (log : QueryLog) : Prop where
  valid : ∀ call ∈ calls, ∀ d ∈ call.data, ValidTimestamp d.timestamp
  runs : run (insertStep offset) {} calls = some log
  hours_fit : ∀ batch ∈ log.batches, ∀ start,
    bucketCount hourWidth offset start batch < counterModulus
  days_fit : ∀ batch ∈ log.batches, ∀ start,
    bucketCount dayWidth offset start batch < counterModulus

theorem IsRecording.exact_hours {offset : UtcOffset} {calls : List InsertCall} {log : QueryLog}
    (recording : IsRecording offset calls log) :
    IsExact hourWidth offset log.database.domainHourlyCount log.batches.flatten :=
  (logInvariant_of_run recording.valid recording.runs).hours.isExact_iff.mpr recording.hours_fit

theorem IsRecording.exact_days {offset : UtcOffset} {calls : List InsertCall} {log : QueryLog}
    (recording : IsRecording offset calls log) :
    IsExact dayWidth offset log.database.domainDailyCount log.batches.flatten :=
  (logInvariant_of_run recording.valid recording.runs).days.isExact_iff.mpr recording.days_fit

/-- Exact tables do not depend on the order of the queries. -/
theorem IsExact.unique {width : Nat} {offset : UtcOffset} {table other : Rows Nat Nat}
    {data shuffled : List DomainData} (exact : IsExact width offset table data)
    (exact_other : IsExact width offset other shuffled) (same : data.Perm shuffled) :
    table = other := by
  funext start
  have counts : bucketCount width offset start data = bucketCount width offset start shuffled :=
    same.countP_eq _
  rw [exact start, exact_other start, counts]

theorem insertStep_failed {offset : UtcOffset} {call : InsertCall} {log : QueryLog}
    (failed : (insertDomain offset call log.database).2 = false) :
    insertStep offset log call = some log := by
  have unchanged : (insertDomain offset call log.database).1 = log.database :=
    transact_failed failed
  unfold insertStep
  rcases outcome : insertDomain offset call log.database with ⟨database, committed⟩
  rw [outcome] at failed unchanged
  subst failed unchanged
  rfl

/-- The count tables show the stored queries, whatever failed on the way, and
depend on nothing else. -/
theorem queryCounts_conserved {offset : UtcOffset} {calls others : List InsertCall}
    {log other : QueryLog} (recording : IsRecording offset calls log)
    (other_recording : IsRecording offset others other) :
    IsExact hourWidth offset log.database.domainHourlyCount log.batches.flatten ∧
      IsExact dayWidth offset log.database.domainDailyCount log.batches.flatten ∧
      (∀ call, (insertDomain offset call log.database).2 = false →
        insertStep offset log call = some log) ∧
      (log.batches.flatten.Perm other.batches.flatten →
        log.database.domainHourlyCount = other.database.domainHourlyCount ∧
          log.database.domainDailyCount = other.database.domainDailyCount) := by
  refine ⟨recording.exact_hours, recording.exact_days, fun call => insertStep_failed,
    fun same => ⟨?_, ?_⟩⟩
  · exact recording.exact_hours.unique other_recording.exact_hours same
  · exact recording.exact_days.unique other_recording.exact_days same

def utc : UtcOffset where
  seconds := 0
  lower := by decide
  upper := by decide

/-- A query of an hour after the given number of hours. -/
def queryAt (hours : Nat) (domain : Text) : DomainData where
  timestamp := hours * 3600000 + 60000
  domain := domain
  domainType := 1
  client := "10.0.0.2".toList
  domainGroup := "default".toList
  replyCode := 0
  queryTime := 5
  pingTime := 0
  isBlocked := false
  isCached := false

theorem queryCounts_conserved_example :
    let calls : List InsertCall :=
      [{ data := [queryAt 48 "a.com".toList, queryAt 49 "b.com".toList] },
        { data := [queryAt 50 "c.com".toList], fault := some 2 }]
    let others : List InsertCall :=
      [{ data := [queryAt 49 "b.com".toList] }, { data := [queryAt 48 "a.com".toList] }]
    let log := (run (insertStep utc) {} calls).getD {}
    let other := (run (insertStep utc) {} others).getD {}
    IsExact hourWidth utc log.database.domainHourlyCount log.batches.flatten ∧
      IsExact dayWidth utc log.database.domainDailyCount log.batches.flatten ∧
      (∀ call, (insertDomain utc call log.database).2 = false →
        insertStep utc log call = some log) ∧
      (log.batches.flatten.Perm other.batches.flatten →
        log.database.domainHourlyCount = other.database.domainHourlyCount ∧
          log.database.domainDailyCount = other.database.domainDailyCount) := by
  intro calls others log other
  have small (width start : Nat) (batch : List DomainData) (short : batch.length ≤ 2) :
      bucketCount width utc start batch < counterModulus :=
    Nat.lt_of_le_of_lt (List.countP_le_length.trans short) (by decide)
  refine @queryCounts_conserved _ calls others _ _ ?_ ?_
  · refine ⟨by decide, rfl, fun batch listed start => ?_, fun batch listed start => ?_⟩
    all_goals exact small _ _ _ ((by decide : ∀ batch ∈ log.batches, batch.length ≤ 2) _ listed)
  · refine ⟨by decide, rfl, fun batch listed start => ?_, fun batch listed start => ?_⟩
    all_goals exact small _ _ _ ((by decide : ∀ batch ∈ other.batches, batch.length ≤ 2) _ listed)

/-- A call without a fault goes through when the keys are valid and ids are left. -/
theorem insertDomain_of_room {offset : UtcOffset} {call : InsertCall} {database : Database}
    (faultless : call.fault = none) (valid : ∀ d ∈ call.data, ValidTimestamp d.timestamp)
    (room : database.domainSequence + call.data.length < 2 ^ 63) :
    insertDomain offset call database = (stored offset call database, true) := by
  have small (width : Nat) (positive : 0 < width) (bounded : width ≤ 86400000)
      (order : IterationOrder (Nat × Nat)) :
      ∀ entry ∈ order.enumerate (tally counterModulus (call.data.map fun d =>
        bucketTimestamp width offset d.timestamp)), entry.1 < 2 ^ 63 := by
    intro entry listed
    have tallied := (isTally_tally (by decide : 1 < counterModulus)
      (call.data.map fun d => bucketTimestamp width offset d.timestamp)).perm (order.perm _)
    have key := (tallied.mem_iff entry.1).mp (List.mem_map_of_mem listed)
    obtain ⟨d, inside, start⟩ := List.mem_map.mp key
    have bucket := (bucketTimestamp_eq_iff positive bounded (valid d inside) _).mp start
    have early := (valid d inside).2
    unfold InBucket at bucket
    omega
  unfold insertDomain
  rw [faultless]
  apply transact_none
  rw [runStatements_insertDomainStatements, if_pos]
  exact ⟨Or.inr room, small hourWidth (by decide) (by decide) _,
    small dayWidth (by decide) (by decide) _⟩

theorem bucketCount_replicate (offset : UtcOffset) {data : DomainData}
    (valid : ValidTimestamp data.timestamp) (n : Nat) :
    bucketCount hourWidth offset (hourTimestamp offset data.timestamp)
      (List.replicate n data) = n := by
  have inside : InBucket hourWidth offset (hourTimestamp offset data.timestamp) data.timestamp :=
    (bucketTimestamp_eq_iff (by decide) (by decide) valid _).mp rfl
  simp [bucketCount, List.countP_replicate, inside]

/-- A batch with `2 ^ 32` queries of one hour is stored, and its count wraps. -/
theorem not_queryCounts_conserved :
    ¬ ∀ (offset : UtcOffset) (calls : List InsertCall) (log : QueryLog),
      (∀ call ∈ calls, ∀ d ∈ call.data, ValidTimestamp d.timestamp) →
      run (insertStep offset) {} calls = some log →
      IsExact hourWidth offset log.database.domainHourlyCount log.batches.flatten := by
  intro exact
  obtain ⟨n, size⟩ : ∃ n : Nat, n = 2 ^ 32 := ⟨_, rfl⟩
  let call : InsertCall := { data := List.replicate n (queryAt 48 "a.com".toList) }
  have validQuery : ValidTimestamp (queryAt 48 "a.com".toList).timestamp := by decide
  have valid : ∀ d ∈ call.data, ValidTimestamp d.timestamp := by
    intro d listed
    rw [List.eq_of_mem_replicate listed]
    exact validQuery
  have goesThrough := @insertDomain_of_room utc call {} rfl valid
    (by rw [List.length_replicate, size]; decide)
  have runs : run (insertStep utc) {} [call] =
      some { database := stored utc call {}, batches := [call.data] } := by
    rw [run_cons, insertStep, goesThrough]
    rfl
  have validCalls : ∀ call' ∈ [call], ∀ d ∈ call'.data, ValidTimestamp d.timestamp := by
    intro call' listed
    rw [List.mem_singleton.mp listed]
    exact valid
  have fits := (logInvariant_of_run validCalls runs).hours.isExact_iff.mp
    (exact utc [call] _ validCalls runs) call.data List.mem_cons_self
    (hourTimestamp utc (queryAt 48 "a.com".toList).timestamp)
  rw [bucketCount_replicate utc validQuery, size] at fits
  exact Nat.lt_irrefl _ fits

end SmartDnsPlusUi
