import Mathlib.Data.List.Sort
import SmartDnsPlusUi.Arithmetic.Windows
import SmartDnsPlusUi.Server.QueryCount

/-!
# The windows of the query counts

The counts of the last hours or days are the rows since a bound.  The bound is computed in
seconds from the time to the next local hour, for hours and for days alike.
-/

namespace SmartDnsPlusUi

open Arithmetic Run Table

/-- The rows of `domain_hourly_count` or `domain_daily_count`, one for each time. -/
structure CountTable where
  rows : List (Nat × Nat)
  primaryKey : (rows.map (·.1)).Nodup

/-- One hour or one day. -/
structure QueryCountItem where
  name : Text
  queryCount : Nat
deriving DecidableEq

structure QueryCount where
  queryTimestamp : Nat
  queryCount : List QueryCountItem
deriving DecidableEq

def hourSeconds : Nat := 3600

def daySeconds : Nat := 86400

/-- The local clock shows the minutes and the seconds of a time in milliseconds. -/
def secondsUntilNextHour (offset : UtcOffset) (now : Nat) : Nat :=
  let localSeconds : Int := (now / 1000 : Nat) + offset.seconds
  let minutes := localSeconds % 3600 / 60
  let seconds := localSeconds % 60
  3600 - (minutes * 60 + seconds).toNat

/-- The age of the oldest row, computed in `u32`. -/
def windowSeconds (unit : Nat) (offset : UtcOffset) (now past : Nat) : Nat :=
  wrappingSub 32 (wrappingMul 32 unit past) (secondsUntilNextHour offset now)

/-- `WHERE timestamp >= strftime('%s', 'now') * 1000 - ? * 1000 ORDER BY timestamp DESC`. -/
def selectSince (now seconds : Nat) (table : CountTable) : List (Nat × Nat) :=
  (table.rows.filter fun row =>
    decide (((now / 1000 : Nat) : Int) * 1000 - seconds * 1000 ≤ row.1)).insertionSort
      fun row other => other.1 ≤ row.1

/-- A row whose count does not fit its `u32` cannot be read and is left out. -/
def readRow (name : Nat → Text) (row : Nat × Nat) : Option QueryCountItem :=
  if row.2 < 2 ^ 32 then some { name := name row.1, queryCount := row.2 } else none

section

-- the local time of a timestamp in a format
variable (strftime : String → Nat → Text)

def getQueryCount (unit : Nat) (format : String) (offset : UtcOffset) (now past : Nat) :
    Option CountTable → Except Text QueryCount
  | none => .error "db is not open".toList
  | some table => .ok {
      queryTimestamp := now
      queryCount := (selectSince now (windowSeconds unit offset now past) table).filterMap
        (readRow (strftime format)) }

def getHourlyQueryCount := getQueryCount strftime hourSeconds "%Y-%m-%d %H:00:00"

def getDailyQueryCount := getQueryCount strftime daySeconds "%Y-%m-%d"

end

/-! ### What the windows are for -/

/-- The start of the local hour or day of a time. -/
def currentStart (width : Nat) (offset : UtcOffset) (now : Nat) : Int :=
  floorTo width (now + 1000 * offset.seconds) - 1000 * offset.seconds

/-- The rows are stored at local starts and none lies in the future. -/
def StoredLocally (width : Nat) (offset : UtcOffset) (now : Nat) (table : CountTable) : Prop :=
  ∀ row ∈ table.rows, (width : Int) ∣ row.1 + 1000 * offset.seconds ∧ row.1 ≤ now

instance (width : Nat) (offset : UtcOffset) (now : Nat) (table : CountTable) :
    Decidable (StoredLocally width offset now table) :=
  inferInstanceAs (Decidable (∀ row ∈ table.rows, _ ∧ _))

/-- The rows of the current hour or day and of those before it, newest first. -/
structure IsWindow (readable : Nat → Prop) (width : Nat) (offset : UtcOffset) (now past : Nat)
    (table : CountTable) (rows : List (Nat × Nat)) : Prop where
  newestFirst : rows.Pairwise fun row older => older.1 < row.1
  mem_iff : ∀ row, row ∈ rows ↔ row ∈ table.rows ∧ readable row.2 ∧
    ∃ back < past, (row.1 : Int) = currentStart width offset now - width * (back : Int)

/-- The answer names the rows of the window with their counts. -/
def ReturnsWindow (readable : Nat → Prop) (width : Nat) (name : Nat → Text) (offset : UtcOffset)
    (now past : Nat) (table : CountTable) (answer : Except Text QueryCount) : Prop :=
  ∃ rows, IsWindow readable width offset now past table rows ∧
    answer = .ok {
      queryTimestamp := now
      queryCount := rows.map fun row => { name := name row.1, queryCount := row.2 } }

/-! ### The length of a window -/

theorem secondsUntilNextHour_eq (offset : UtcOffset) (now : Nat) :
    (secondsUntilNextHour offset now : Int) =
      3600 - ((now / 1000 : Nat) + offset.seconds) % 3600 := by
  simp only [secondsUntilNextHour]
  omega

theorem secondsUntilNextHour_range (offset : UtcOffset) (now : Nat) :
    1 ≤ secondsUntilNextHour offset now ∧ secondsUntilNextHour offset now ≤ 3600 := by
  have equality := secondsUntilNextHour_eq offset now
  omega

/-- Where the product fits and covers the rest of the hour, nothing wraps. -/
theorem windowSeconds_eq {unit past : Nat} {offset : UtcOffset} {now : Nat}
    (fits : unit * past < 2 ^ 32) (covers : secondsUntilNextHour offset now ≤ unit * past) :
    windowSeconds unit offset now past = unit * past - secondsUntilNextHour offset now := by
  have product : wrappingMul 32 unit past = unit * past := by
    unfold wrappingMul
    exact_mod_cast ofInt_natCast fits
  rw [windowSeconds, product, wrappingSub]
  have difference : ((unit * past : Nat) : Int) - (secondsUntilNextHour offset now : Nat) =
      ((unit * past - secondsUntilNextHour offset now : Nat) : Int) := by omega
  rw [difference]
  exact ofInt_natCast (by omega)

/-! ### The rows since a bound -/

theorem mem_selectSince {now seconds : Nat} {table : CountTable} {row : Nat × Nat} :
    row ∈ selectSince now seconds table ↔ row ∈ table.rows ∧
      ((now / 1000 : Nat) : Int) * 1000 - seconds * 1000 ≤ row.1 := by
  rw [selectSince, (List.perm_insertionSort _ _).mem_iff, List.mem_filter, decide_eq_true_eq]

theorem pairwise_selectSince (now seconds : Nat) (table : CountTable) :
    (selectSince now seconds table).Pairwise fun row older => older.1 < row.1 := by
  have sorted : (selectSince now seconds table).Pairwise fun row older => older.1 ≤ row.1 :=
    List.pairwise_insertionSort _ _
  have distinct : (selectSince now seconds table).Pairwise fun row older => row.1 ≠ older.1 := by
    rw [← List.pairwise_map (R := (· ≠ ·))]
    refine ((List.perm_insertionSort _ _).map _).nodup_iff.2 ?_
    exact table.primaryKey.sublist (List.filter_sublist.map _)
  exact sorted.imp₂ (fun row older newer different => lt_of_le_of_ne newer different.symm) distinct

theorem filterMap_readRow (name : Nat → Text) (rows : List (Nat × Nat)) :
    rows.filterMap (readRow name) =
      (rows.filter fun row => row.2 < 2 ^ 32).map fun row =>
        { name := name row.1, queryCount := row.2 } := by
  induction rows with
  | nil => rfl
  | cons row rows inductionHypothesis =>
      by_cases readable : row.2 < 2 ^ 32
      · have read : readRow name row = some { name := name row.1, queryCount := row.2 } :=
          if_pos readable
        rw [List.filterMap_cons_some read, inductionHypothesis,
          List.filter_cons_of_pos (by simpa using readable), List.map_cons]
      · have skipped : readRow name row = none := if_neg readable
        rw [List.filterMap_cons_none skipped, inductionHypothesis,
          List.filter_cons_of_neg (by simpa using readable)]

/-! ### The windows are exact -/

/-- The next local hour, in local milliseconds. -/
def nextHour (offset : UtcOffset) (now : Nat) : Int :=
  floorTo hourWidth (now + 1000 * offset.seconds) + hourWidth

theorem nextHour_eq (offset : UtcOffset) (now : Nat) :
    nextHour offset now =
      1000 * ((now / 1000 : Nat) + secondsUntilNextHour offset now + offset.seconds) := by
  have remaining := secondsUntilNextHour_eq offset now
  simp only [nextHour, floorTo, hourWidth]
  omega

/-- The hour ends within the day, for one of its 24 hours. -/
theorem nextHour_range (offset : UtcOffset) (now : Nat) :
    floorTo dayWidth (now + 1000 * offset.seconds) < nextHour offset now ∧
      nextHour offset now ≤ floorTo dayWidth (now + 1000 * offset.seconds) + dayWidth := by
  simp only [nextHour, floorTo, hourWidth, dayWidth]
  omega

/-- Where the next hour ends a window that does not wrap, its rows are those of the last
hours or days. -/
theorem returnsWindow {strftime : String → Nat → Text} {unit past now : Nat} {format : String}
    {offset : UtcOffset} {table : CountTable} (positive : 0 < unit)
    (fits : unit * past < 2 ^ 32) (covers : 3600 ≤ unit * past)
    (stored : StoredLocally (1000 * unit) offset now table)
    (after : floorTo (1000 * unit : Nat) (now + 1000 * offset.seconds) < nextHour offset now)
    (within : nextHour offset now ≤
      floorTo (1000 * unit : Nat) (now + 1000 * offset.seconds) + (1000 * unit : Nat)) :
    ReturnsWindow (· < 2 ^ 32) (1000 * unit) (strftime format) offset now past table
      (getQueryCount strftime unit format offset now past (some table)) := by
  have short := (secondsUntilNextHour_range offset now).2
  have window := windowSeconds_eq fits (Nat.le_trans short covers)
  have next := nextHour_eq offset now
  refine ⟨(selectSince now (windowSeconds unit offset now past) table).filter
    fun row => row.2 < 2 ^ 32, ⟨?_, ?_⟩, ?_⟩
  · exact (pairwise_selectSince now _ table).sublist List.filter_sublist
  · intro row
    rw [List.mem_filter, decide_eq_true_eq, mem_selectSince, and_assoc]
    refine and_congr_right fun listed => ?_
    obtain ⟨multiple, notFuture⟩ := stored row listed
    rw [and_comm]
    refine and_congr_right fun _ => ?_
    have since := @since_iff (1000 * unit : Nat) (now + 1000 * offset.seconds) _ _ past (by omega)
      multiple (by omega) after within
    have product : ((1000 * unit : Nat) : Int) * past = 1000 * (unit * past : Nat) := by
      rw [← Nat.cast_mul, Nat.mul_assoc, Nat.cast_mul, Nat.cast_ofNat]
    rw [product] at since
    have bound : ((now / 1000 : Nat) : Int) * 1000 -
          (windowSeconds unit offset now past : Nat) * 1000 ≤ row.1 ↔
        nextHour offset now - 1000 * (unit * past : Nat) ≤ row.1 + 1000 * offset.seconds := by
      omega
    rw [bound, since]
    refine exists_congr fun back => and_congr_right fun _ => ?_
    rw [currentStart, sub_right_comm]
    exact eq_sub_iff_add_eq.symm
  · rw [getQueryCount, filterMap_readRow]

/-- For every offset, every instant and every number of hours and days that fits: the two
queries return the rows of the current local hour (day) and of those before it, newest
first, without the rows whose count does not fit `u32`. -/
theorem queryCounts_window (strftime : String → Nat → Text) (offset : UtcOffset)
    (now past : Nat) (positive : 1 ≤ past) (fits : 86400 * past < 2 ^ 32)
    (hourly daily : CountTable) (hours : StoredLocally hourWidth offset now hourly)
    (days : StoredLocally dayWidth offset now daily) :
    ReturnsWindow (· < 2 ^ 32) hourWidth (strftime "%Y-%m-%d %H:00:00") offset now past hourly
        (getHourlyQueryCount strftime offset now past (some hourly)) ∧
      ReturnsWindow (· < 2 ^ 32) dayWidth (strftime "%Y-%m-%d") offset now past daily
        (getDailyQueryCount strftime offset now past (some daily)) := by
  have day := nextHour_range offset now
  constructor
  · apply @returnsWindow _ hourSeconds
    · decide
    · rw [hourSeconds]
      omega
    · rw [hourSeconds]
      omega
    · exact hours
    · exact lt_add_of_pos_right _ (by decide)
    · exact le_refl _
  · apply @returnsWindow _ daySeconds
    · decide
    · exact fits
    · rw [daySeconds]
      omega
    · exact days
    · exact day.1
    · exact day.2

/-- The names of the hours of the second day, and of that day. -/
def secondDay (format : String) (timestamp : Nat) : Text :=
  if format = "%Y-%m-%d" then "1970-01-02".toList
  else
    let hour := timestamp / hourWidth % 24
    "1970-01-02 ".toList ++ Nat.digitChar (hour / 10) :: Nat.digitChar (hour % 10) ::
      ":00:00".toList

/-- Seven queries in the sixth hour of the second day, two in the fifth and one in the
fourth. -/
def threeHours : CountTable where
  rows := [(30 * hourWidth, 7), (28 * hourWidth, 1), (29 * hourWidth, 2)]
  primaryKey := by decide

def secondDayCount : CountTable where
  rows := [(dayWidth, 10)]
  primaryKey := by decide

theorem queryCounts_window_example :
    ReturnsWindow (· < 2 ^ 32) hourWidth (secondDay "%Y-%m-%d %H:00:00") utc
        (30 * hourWidth + 1234567) 2 threeHours
        (getHourlyQueryCount secondDay utc (30 * hourWidth + 1234567) 2 (some threeHours)) ∧
      ReturnsWindow (· < 2 ^ 32) dayWidth (secondDay "%Y-%m-%d") utc (30 * hourWidth + 1234567) 2
        secondDayCount
        (getDailyQueryCount secondDay utc (30 * hourWidth + 1234567) 2 (some secondDayCount)) :=
  queryCounts_window secondDay utc (30 * hourWidth + 1234567) 2 (by decide) (by decide) threeHours
    secondDayCount (by decide) (by decide)

example : (getHourlyQueryCount secondDay utc (30 * hourWidth + 1234567) 2 (some threeHours)).toOption =
    some {
      queryTimestamp := 30 * hourWidth + 1234567
      queryCount := [
        { name := "1970-01-02 06:00:00".toList, queryCount := 7 },
        { name := "1970-01-02 05:00:00".toList, queryCount := 2 }] } := by decide

/-- A day with more queries than a `u32` counts. -/
def crowdedDay : CountTable where
  rows := [(dayWidth, 2 ^ 32)]
  primaryKey := by decide

theorem not_queryCounts_window :
    ¬ ∀ (strftime : String → Nat → Text) (offset : UtcOffset) (now past : Nat), 1 ≤ past →
      86400 * past < 2 ^ 32 → ∀ hourly daily : CountTable,
        StoredLocally hourWidth offset now hourly → StoredLocally dayWidth offset now daily →
          ReturnsWindow (fun _ => True) hourWidth (strftime "%Y-%m-%d %H:00:00") offset now past
              hourly (getHourlyQueryCount strftime offset now past (some hourly)) ∧
            ReturnsWindow (fun _ => True) dayWidth (strftime "%Y-%m-%d") offset now past daily
              (getDailyQueryCount strftime offset now past (some daily)) := by
  intro returns
  obtain ⟨-, rows, window, answered⟩ := returns secondDay utc (30 * hourWidth) 1 (by decide)
    (by decide) threeHours crowdedDay (by decide) (by decide)
  have skipped : getDailyQueryCount secondDay utc (30 * hourWidth) 1 (some crowdedDay) =
      .ok { queryTimestamp := 30 * hourWidth, queryCount := [] } := by rfl
  rw [skipped] at answered
  have empty : rows = [] := by
    simpa using congrArg QueryCount.queryCount (Except.ok.inj answered)
  have listed : (dayWidth, 2 ^ 32) ∈ rows :=
    (window.mem_iff _).2 ⟨List.mem_singleton_self _, trivial, 0, by decide, by decide⟩
  rw [empty] at listed
  exact absurd listed List.not_mem_nil

end SmartDnsPlusUi
