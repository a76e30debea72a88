import SmartDnsPlusUi.Server.CountWindow
import SmartDnsPlusUi.Text.Number

/-!
# The lengths of the count windows

The length of a window is computed in `u32`.  The hours come from the query string as they
are; within the bound a longer window returns no fewer buckets, and beyond it the length
wraps.
-/

namespace SmartDnsPlusUi

open Arithmetic Text

def checkedMul (w a b : Nat) : Option Nat := if a * b < 2 ^ w then some (a * b) else none

def checkedSub (a b : Nat) : Option Nat := if b ≤ a then some (a - b) else none

/-- The length of a window where neither the product nor the difference leaves `u32`. -/
def checkedWindow (unit : Nat) (offset : UtcOffset) (now past : Nat) : Option Nat :=
  (checkedMul 32 unit past).bind (checkedSub · (secondsUntilNextHour offset now))

/-- `params_get_value::<u32>`. -/
def paramsGetValue (params : Text → Option Text) (key : String) : Option Nat :=
  (params key.toList).bind parseU32

/-- The hours that `api_stats_get_hourly_query_count` passes on, with the default of the
data server. -/
def pastHours (params : Text → Option Text) : Nat := (paramsGetValue params "past_hours").getD 24

def bucketsReturned : Except Text QueryCount → Nat
  | .ok count => count.queryCount.length
  | .error _ => 0

/-- Neither window wraps, and from no table the longer one returns fewer buckets. -/
structure Grows (strftime : String → Nat → Text) (unit : Nat) (format : String)
    (offset : UtcOffset) (now shorter longer : Nat) : Prop where
  shorterFits : (checkedWindow unit offset now shorter).isSome = true
  longerFits : (checkedWindow unit offset now longer).isSome = true
  le : ∀ table, bucketsReturned (getQueryCount strftime unit format offset now shorter table) ≤
    bucketsReturned (getQueryCount strftime unit format offset now longer table)

section

variable {strftime : String → Nat → Text} {unit now past shorter longer : Nat} {format : String}
variable {offset : UtcOffset}

theorem checkedWindow_isSome_iff :
    (checkedWindow unit offset now past).isSome = true ↔
      unit * past < 2 ^ 32 ∧ secondsUntilNextHour offset now ≤ unit * past := by
  unfold checkedWindow checkedMul
  by_cases fits : unit * past < 2 ^ 32
  · rw [if_pos fits, Option.bind_some, checkedSub]
    by_cases covers : secondsUntilNextHour offset now ≤ unit * past
    · rw [if_pos covers]
      exact ⟨fun _ => ⟨fits, covers⟩, fun _ => rfl⟩
    · rw [if_neg covers]
      exact ⟨fun isSome => absurd isSome Bool.false_ne_true, fun both => absurd both.2 covers⟩
  · rw [if_neg fits]
    exact ⟨fun isSome => absurd isSome Bool.false_ne_true, fun both => absurd both.1 fits⟩

/-- A window fits unless it is empty or its seconds exceed 32 bits. -/
theorem checkedWindow_isSome_iff_of_hour (hour : 3600 ≤ unit) :
    (checkedWindow unit offset now past).isSome = true ↔ 1 ≤ past ∧ unit * past < 2 ^ 32 := by
  have remaining := secondsUntilNextHour_range offset now
  rw [checkedWindow_isSome_iff]
  rcases Nat.eq_zero_or_pos past with rfl | positive
  · rw [Nat.mul_zero]
    omega
  · have covers : unit ≤ unit * past := Nat.le_mul_of_pos_right unit positive
    omega

/-- The earlier the bound, the more rows. -/
theorem bucketsReturned_mono
    (ordered : windowSeconds unit offset now shorter ≤ windowSeconds unit offset now longer)
    (table : Option CountTable) :
    bucketsReturned (getQueryCount strftime unit format offset now shorter table) ≤
      bucketsReturned (getQueryCount strftime unit format offset now longer table) := by
  cases table with
  | none => exact Nat.le_refl _
  | some table =>
      simp only [getQueryCount, bucketsReturned, selectSince]
      rw [((List.perm_insertionSort _ _).filterMap _).length_eq,
        ((List.perm_insertionSort _ _).filterMap _).length_eq]
      apply List.Sublist.length_le
      apply List.Sublist.filterMap
      apply List.monotone_filter_right
      intro row since
      rw [decide_eq_true_eq] at since ⊢
      omega

theorem grows_iff (hour : 3600 ≤ unit) (ordered : shorter ≤ longer) :
    Grows strftime unit format offset now shorter longer ↔
      1 ≤ shorter ∧ unit * longer < 2 ^ 32 := by
  have products : unit * shorter ≤ unit * longer := Nat.mul_le_mul_left unit ordered
  constructor
  · intro grows
    have first := (checkedWindow_isSome_iff_of_hour hour).1 grows.shorterFits
    have second := (checkedWindow_isSome_iff_of_hour hour).1 grows.longerFits
    exact ⟨first.1, second.2⟩
  · rintro ⟨positive, fits⟩
    have shorterFits : (checkedWindow unit offset now shorter).isSome = true :=
      (checkedWindow_isSome_iff_of_hour hour).2 ⟨positive, Nat.lt_of_le_of_lt products fits⟩
    have longerFits : (checkedWindow unit offset now longer).isSome = true :=
      (checkedWindow_isSome_iff_of_hour hour).2 ⟨Nat.le_trans positive ordered, fits⟩
    refine ⟨shorterFits, longerFits, bucketsReturned_mono ?_⟩
    obtain ⟨first, covers⟩ := checkedWindow_isSome_iff.1 shorterFits
    obtain ⟨second, coversLonger⟩ := checkedWindow_isSome_iff.1 longerFits
    rw [windowSeconds_eq first covers, windowSeconds_eq second coversLonger]
    omega

end

/-- Every value of 32 bits that is asked for is passed on. -/
theorem pastHours_of_asked {params : Text → Option Text} {hours : Nat} (small : hours < 2 ^ 32)
    (asked : params "past_hours".toList = some (showNat hours)) : pastHours params = hours := by
  rw [pastHours, paramsGetValue, asked, Option.bind_some, parseU32,
    parseU64_showNat (by omega : hours < 2 ^ 64), Option.filter_some,
    if_pos (decide_eq_true small)]
  rfl

/-- For every two requests for hours, every two numbers of days, every offset and every
instant: neither window wraps and the longer one returns no fewer buckets if and only if
the shorter one is not empty and the seconds of the longer one fit 32 bits. -/
theorem windows_grow_iff (strftime : String → Nat → Text) (offset : UtcOffset) (now : Nat)
    {params longerParams : Text → Option Text} (ordered : pastHours params ≤ pastHours longerParams)
    {pastDays longerDays : Nat} (orderedDays : pastDays ≤ longerDays) :
    (Grows strftime hourSeconds "%Y-%m-%d %H:00:00" offset now (pastHours params)
        (pastHours longerParams) ↔
      1 ≤ pastHours params ∧ 3600 * pastHours longerParams < 2 ^ 32) ∧
    (Grows strftime daySeconds "%Y-%m-%d" offset now pastDays longerDays ↔
      1 ≤ pastDays ∧ 86400 * longerDays < 2 ^ 32) :=
  ⟨grows_iff (by decide) ordered, grows_iff (by decide) orderedDays⟩

/-- The query string `past_hours=` with a number. -/
def hoursQuery (hours key : Text) : Option Text :=
  if key = "past_hours".toList then some hours else none

theorem windows_grow_example :
    (Grows secondDay hourSeconds "%Y-%m-%d %H:00:00" utc (30 * hourWidth)
        (pastHours (hoursQuery "6".toList)) (pastHours fun _ => none) ↔
      1 ≤ pastHours (hoursQuery "6".toList) ∧ 3600 * pastHours (fun _ => none) < 2 ^ 32) ∧
    (Grows secondDay daySeconds "%Y-%m-%d" utc (30 * hourWidth) 7 30 ↔
      1 ≤ 7 ∧ 86400 * 30 < 2 ^ 32) :=
  windows_grow_iff secondDay utc (30 * hourWidth) (by decide) (by decide)

/-- With no hours asked for, the length wraps, and the window of one hour returns less. -/
theorem not_windows_grow :
    ¬ ∀ (strftime : String → Nat → Text) (offset : UtcOffset) (now : Nat)
        (params longerParams : Text → Option Text), pastHours params ≤ pastHours longerParams →
      ∀ pastDays longerDays : Nat, pastDays ≤ longerDays → longerDays < 2 ^ 32 →
        Grows strftime hourSeconds "%Y-%m-%d %H:00:00" offset now (pastHours params)
            (pastHours longerParams) ∧
          Grows strftime daySeconds "%Y-%m-%d" offset now pastDays longerDays := by
  intro grows
  have hours := (grows secondDay utc (30 * hourWidth) (hoursQuery "0".toList)
    (hoursQuery "1".toList) (by decide) 7 30 (by decide) (by decide)).1
  have fewer : bucketsReturned (getHourlyQueryCount secondDay utc (30 * hourWidth)
        (pastHours (hoursQuery "1".toList)) (some threeHours)) <
      bucketsReturned (getHourlyQueryCount secondDay utc (30 * hourWidth)
        (pastHours (hoursQuery "0".toList)) (some threeHours)) := by decide
  exact absurd (hours.le (some threeHours)) (Nat.not_le_of_lt fewer)

end SmartDnsPlusUi
