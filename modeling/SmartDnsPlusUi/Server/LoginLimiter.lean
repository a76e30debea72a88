import SmartDnsPlusUi.Server.Auth

/-!
# The login limiter

Five attempts are let through.  The next one waits until a minute has passed since the
time that is kept, which early attempts push back; then five more are let through.
-/

namespace SmartDnsPlusUi

/-- The number of attempts, an `i32`, and the time that is kept. -/
structure LoginAttempts where
  count : Int
  since : Nat
  deriving DecidableEq

namespace LoginAttempts

/-- `login_attempts_check` with a clock of `resolution` ticks a second. -/
def check (resolution instant : Nat) (attempts : LoginAttempts) : LoginAttempts × Bool :=
  let since := if attempts.count = 0 then instant else attempts.since
  let count := (attempts.count + 1).bmod (2 ^ 32)
  if 5 < count then
    let seconds := (instant - since) / resolution
    if seconds < 60 then (⟨count, if seconds < 30 then instant else since⟩, false)
    else (⟨0, instant⟩, true)
  else (⟨count, since⟩, true)

/-- What the checks at these times answer. -/
def answers (resolution : Nat) : LoginAttempts → List Nat → List Bool
  | _, [] => []
  | attempts, instant :: later =>
      (attempts.check resolution instant).2 ::
        answers resolution (attempts.check resolution instant).1 later

/-- The number of attempts in a window of time that are let through. -/
def allowedWithin (start width : Nat) : List Nat → List Bool → Nat
  | instant :: times, allowed :: answers =>
      (if allowed ∧ start ≤ instant ∧ instant < start + width then 1 else 0) +
        allowedWithin start width times answers
  | _, _ => 0

/-- The server counts in the same way while the number of attempts fits. -/
theorem check_loginAttempts (server : HttpServer) (instant : Nat)
    (fits : server.loginAttempts.1 + 1 < 2 ^ 31) :
    let checked := check 1000 instant ⟨server.loginAttempts.1, server.loginAttempts.2⟩
    server.loginAttemptsCheck instant =
      ({ server with loginAttempts := (checked.1.count.toNat, checked.1.since) }, checked.2) := by
  have count : (((server.loginAttempts.1 : Nat) : Int) + 1).bmod (2 ^ 32) =
      ((server.loginAttempts.1 + 1 : Nat) : Int) := by
    rw [Int.bmod_eq_of_le_mul_two] <;> omega
  have many : (5 : Int) < ((server.loginAttempts.1 + 1 : Nat) : Int) ↔
      5 < server.loginAttempts.1 + 1 := by omega
  unfold check HttpServer.loginAttemptsCheck
  simp only [count, many, Int.natCast_eq_zero]
  split_ifs <;> rfl

/-! ### One attempt -/

/-- The count fits for this many more attempts, and the time that is kept is over. -/
structure Fits (attempts : LoginAttempts) (times : List Nat) : Prop where
  natural : 0 ≤ attempts.count
  small : attempts.count + times.length < 2 ^ 31
  past : attempts.count = 0 ∨ ∀ instant ∈ times, attempts.since ≤ instant

/-- The time from which a check counts the minute. -/
def held (attempts : LoginAttempts) (instant : Nat) : Nat :=
  if attempts.count = 0 then instant else attempts.since

/-- What a check can do. -/
inductive Checked (resolution instant : Nat) (attempts : LoginAttempts) :
    LoginAttempts × Bool → Prop where
  | free (few : attempts.count < 5) :
      Checked resolution instant attempts (⟨attempts.count + 1, attempts.held instant⟩, true)
  | refused (since : Nat) (many : 5 ≤ attempts.count)
      (early : instant < attempts.since + 60 * resolution)
      (kept : since = instant ∨ since = attempts.since) :
      Checked resolution instant attempts (⟨attempts.count + 1, since⟩, false)
  | restarted (many : 5 ≤ attempts.count) (late : attempts.since + 60 * resolution ≤ instant) :
      Checked resolution instant attempts (⟨0, instant⟩, true)

variable {resolution instant start : Nat} {attempts : LoginAttempts} {times : List Nat}

theorem checked_check (positive : 0 < resolution) (fits : attempts.Fits (instant :: times)) :
    Checked resolution instant attempts (attempts.check resolution instant) := by
  have natural := fits.natural
  have small := fits.small
  rw [List.length_cons] at small
  have count : (attempts.count + 1).bmod (2 ^ 32) = attempts.count + 1 := by
    rw [Int.bmod_eq_of_le_mul_two] <;> omega
  unfold check
  dsimp only
  rw [count]
  by_cases few : attempts.count < 5
  · rw [if_neg (by omega)]
    exact .free few
  · have started : attempts.count ≠ 0 := by omega
    have many : 5 ≤ attempts.count := by omega
    rw [if_pos (by omega), if_neg started]
    by_cases early : (instant - attempts.since) / resolution < 60
    · rw [if_pos early]
      rw [Nat.div_lt_iff_lt_mul positive] at early
      refine .refused _ many (by omega) ?_
      split_ifs
      · exact Or.inl rfl
      · exact Or.inr rfl
    · rw [if_neg early]
      rw [Nat.div_lt_iff_lt_mul positive] at early
      have past := fits.past.resolve_left started instant List.mem_cons_self
      exact .restarted many (by omega)

theorem Fits.step {outcome : LoginAttempts × Bool} (fits : attempts.Fits (instant :: times))
    (ordered : (instant :: times).Pairwise (· ≤ ·))
    (checked : Checked resolution instant attempts outcome) :
    outcome.1.Fits times ∧ outcome.1.since ≤ instant := by
  have later := (List.pairwise_cons.mp ordered).1
  have natural := fits.natural
  have small := fits.small
  rw [List.length_cons] at small
  have held : attempts.held instant ≤ instant := by
    unfold LoginAttempts.held
    split_ifs with fresh
    · exact Nat.le_refl _
    · exact fits.past.resolve_left fresh instant List.mem_cons_self
  have kept : ∀ since ≤ instant, ∀ time ∈ times, since ≤ time :=
    fun since before time listed => before.trans (later time listed)
  cases checked with
  | free few =>
      refine ⟨⟨?_, ?_, Or.inr (kept _ held)⟩, held⟩
      · dsimp only
        omega
      · dsimp only
        omega
  | refused since many early before =>
      have past : since ≤ instant := by
        rcases before with rfl | rfl
        · exact Nat.le_refl _
        · refine fits.past.resolve_left ?_ instant List.mem_cons_self
          omega
      refine ⟨⟨?_, ?_, Or.inr (kept _ past)⟩, past⟩
      · dsimp only
        omega
      · dsimp only
        omega
  | restarted many late =>
      refine ⟨⟨Int.le_refl 0, ?_, Or.inl rfl⟩, Nat.le_refl _⟩
      dsimp only
      omega

/-! ### The bound -/

/-- How many more attempts can be let through within a window that has begun. -/
def budget (start : Nat) (attempts : LoginAttempts) : Nat :=
  if attempts.count = 0 then 5
  else (5 - attempts.count.toNat) + if attempts.since < start then 6 else 0

theorem budget_le (start : Nat) (attempts : LoginAttempts) (natural : 0 ≤ attempts.count) :
    attempts.budget start ≤ 10 := by
  unfold budget
  split_ifs <;> omega

theorem allowedWithin_of_late {width : Nat} (late : ∀ instant ∈ times, start + width ≤ instant)
    (answers : List Bool) : allowedWithin start width times answers = 0 := by
  induction times generalizing answers with
  | nil => rfl
  | cons instant times inductionHypothesis =>
      cases answers with
      | nil => rfl
      | cons allowed answers =>
          rw [List.forall_mem_cons] at late
          have outside : ¬ (allowed = true ∧ start ≤ instant ∧ instant < start + width) :=
            fun inside => absurd inside.2.2 (Nat.not_lt.mpr late.1)
          rw [allowedWithin, if_neg outside, inductionHypothesis late.2]

theorem budget_of_started (started : attempts.count ≠ 0) (start : Nat) :
    attempts.budget start =
      (5 - attempts.count.toNat) + if attempts.since < start then 6 else 0 := if_neg started

/-- One of the first five attempts of a minute is paid for. -/
theorem budget_free (natural : 0 ≤ attempts.count) (few : attempts.count < 5)
    (begun : start ≤ instant) :
    1 + budget start ⟨attempts.count + 1, attempts.held instant⟩ ≤ attempts.budget start := by
  have counted : attempts.count + 1 ≠ 0 := by omega
  rw [@budget_of_started ⟨attempts.count + 1, _⟩ counted, held]
  dsimp only
  by_cases fresh : attempts.count = 0
  · have all : attempts.budget start = 5 := if_pos fresh
    rw [all, if_pos fresh, if_neg (Nat.not_lt.mpr begun), fresh]
    decide
  · rw [budget_of_started fresh, if_neg fresh]
    omega

/-- An attempt that is refused opens no budget. -/
theorem budget_refused {since : Nat} (many : 5 ≤ attempts.count) (begun : start ≤ instant)
    (kept : since = instant ∨ since = attempts.since) :
    budget start ⟨attempts.count + 1, since⟩ ≤ attempts.budget start := by
  have counted : attempts.count + 1 ≠ 0 := by omega
  have started : attempts.count ≠ 0 := by omega
  rw [@budget_of_started ⟨attempts.count + 1, since⟩ counted, budget_of_started started]
  dsimp only
  rcases kept with rfl | rfl
  · rw [if_neg (Nat.not_lt.mpr begun)]
    omega
  · omega

/-- The first minute to start over within the window is paid for. -/
theorem budget_restarted (many : 5 ≤ attempts.count) (before : attempts.since < start)
    (instant : Nat) : 1 + budget start ⟨0, instant⟩ ≤ attempts.budget start := by
  have started : attempts.count ≠ 0 := by omega
  have fresh : budget start ⟨0, instant⟩ = 5 := if_pos rfl
  rw [fresh, budget_of_started started, if_pos before]
  omega

/-- The window has begun: every attempt that is let through uses up the budget. -/
theorem allowedWithin_le_budget (positive : 0 < resolution) (fits : attempts.Fits times)
    (ordered : times.Pairwise (· ≤ ·)) (begun : ∀ instant ∈ times, start ≤ instant) :
    allowedWithin start (60 * resolution) times (answers resolution attempts times) ≤
      attempts.budget start := by
  induction times generalizing attempts with
  | nil => exact Nat.zero_le _
  | cons instant times inductionHypothesis =>
      have checked := checked_check positive fits
      have natural := fits.natural
      have next := (fits.step ordered checked).1
      obtain ⟨sorted, orderedLater⟩ := List.pairwise_cons.mp ordered
      rw [List.forall_mem_cons] at begun
      have rest := inductionHypothesis next orderedLater begun.2
      rw [answers, allowedWithin]
      generalize attempts.check resolution instant = outcome at checked next rest
      have counts : ∀ p : Prop, [Decidable p] → (if p then 1 else 0) ≤ 1 := by
        intro p _
        split <;> decide
      cases checked with
      | free few =>
          have paid := budget_free natural few begun.1
          exact (Nat.add_le_add (counts _) rest).trans paid
      | refused since many early kept =>
          have unpaid := budget_refused many begun.1 kept
          rw [if_neg (fun inside => absurd inside.1 Bool.false_ne_true), Nat.zero_add]
          exact rest.trans unpaid
      | restarted many late =>
          by_cases before : attempts.since < start
          · have paid := budget_restarted many before instant
            exact (Nat.add_le_add (counts _) rest).trans paid
          · -- the restart and all that follows are behind the window
            have outside : ∀ time ∈ times, start + 60 * resolution ≤ time :=
              fun time listed => le_trans (by omega) (sorted time listed)
            rw [allowedWithin_of_late outside, if_neg (by omega)]
            exact Nat.zero_le _

theorem allowedWithin_le (positive : 0 < resolution) (fits : attempts.Fits times)
    (ordered : times.Pairwise (· ≤ ·)) (start : Nat) :
    allowedWithin start (60 * resolution) times (answers resolution attempts times) ≤ 10 := by
  induction times generalizing attempts with
  | nil => exact Nat.zero_le _
  | cons instant times inductionHypothesis =>
      obtain ⟨sorted, orderedLater⟩ := List.pairwise_cons.mp ordered
      by_cases begun : start ≤ instant
      · have all : ∀ time ∈ instant :: times, start ≤ time :=
          List.forall_mem_cons.mpr ⟨begun, fun time listed => begun.trans (sorted time listed)⟩
        exact (allowedWithin_le_budget positive fits ordered all).trans
          (budget_le start attempts fits.natural)
      · have next := (fits.step ordered (checked_check positive fits)).1
        have outside : ¬ ((attempts.check resolution instant).2 = true ∧ start ≤ instant ∧
            instant < start + 60 * resolution) := fun inside => begun inside.2.1
        rw [answers, allowedWithin, if_neg outside, Nat.zero_add]
        exact inductionHypothesis next orderedLater

/-! ### The recovery -/

/-- Whoever waits for a minute is let through. -/
theorem answers_of_pause (positive : 0 < resolution) (fits : attempts.Fits times)
    (ordered : times.Pairwise (· ≤ ·)) {index previous time : Nat}
    (before : times[index]? = some previous) (now : times[index + 1]? = some time)
    (pause : previous + 60 * resolution ≤ time) :
    (answers resolution attempts times)[index + 1]? = some true := by
  induction times generalizing attempts index with
  | nil => cases before
  | cons instant times inductionHypothesis =>
      have stepped := fits.step ordered (checked_check positive fits)
      have orderedLater := (List.pairwise_cons.mp ordered).2
      rw [answers, List.getElem?_cons_succ]
      rw [List.getElem?_cons_succ] at now
      cases index with
      | succ index => exact inductionHypothesis stepped.1 orderedLater before now
      | zero =>
          rw [List.getElem?_cons_zero, Option.some.injEq] at before
          subst before
          cases times with
          | nil => cases now
          | cons next later =>
              rw [List.getElem?_cons_zero, Option.some.injEq] at now
              subst now
              have checked := checked_check positive stepped.1
              rw [answers, List.getElem?_cons_zero]
              generalize ((attempts.check resolution instant).1.check resolution next) = outcome
                at checked
              cases checked with
              | free few => rfl
              | refused since many early kept =>
                  have kept := stepped.2
                  omega
              | restarted many late => rfl

/-- After a reset at most ten attempts are let through in a minute, and each that comes a
minute after the one before it is. -/
theorem login_limited (positive : 0 < resolution) (since : Nat)
    (ordered : times.Pairwise (· ≤ ·)) (few : times.length < 2 ^ 31) :
    (∀ start, allowedWithin start (60 * resolution) times (answers resolution ⟨0, since⟩ times) ≤
      10) ∧
    ∀ index previous time, times[index]? = some previous → times[index + 1]? = some time →
      previous + 60 * resolution ≤ time →
        (answers resolution ⟨0, since⟩ times)[index + 1]? = some true := by
  have fits : (⟨0, since⟩ : LoginAttempts).Fits times :=
    ⟨Int.le_refl 0, by dsimp only; omega, Or.inl rfl⟩
  exact ⟨allowedWithin_le positive fits ordered, fun index previous time before now pause =>
    answers_of_pause positive fits ordered before now pause⟩

/-- Ten attempts around the end of a minute, and one that waits. -/
def sampleTimes : List Nat := [0, 59, 59, 59, 59, 60, 60, 60, 60, 60, 60, 61, 121]

theorem login_limited_example :
    allowedWithin 59 60 sampleTimes (answers 1 ⟨0, 7⟩ sampleTimes) ≤ 10 ∧
      (answers 1 ⟨0, 7⟩ sampleTimes)[12]? = some true :=
  have limited := login_limited (by decide : 0 < 1) 7 (by decide : sampleTimes.Pairwise (· ≤ ·))
    (by decide)
  ⟨limited.1 59, limited.2 11 61 121 rfl rfl (by decide)⟩

-- the bound is reached
example : allowedWithin 59 60 sampleTimes (answers 1 ⟨0, 7⟩ sampleTimes) = 10 := by decide

end LoginAttempts

end SmartDnsPlusUi
