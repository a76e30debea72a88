import SmartDnsPlusUi.Server.Metrics

/-!
# The sub-counters

Runs in which the service may be killed at any time, may fail to save some of the
counters, and deletes old rows.  Each counter is saved and loaded on its own: the
total and the blocked one fall back to a count of the rows when nothing but zero
was saved, the failed one falls back to zero.
-/

namespace SmartDnsPlusUi

open Arithmetic Run Text

/-- What a refresh meets; a statement that fails deletes nothing. -/
structure RefreshCall where
  now : Nat
  maxLogAgeMs : Nat
  domainFails : Bool := false
  hourlyFails : Bool := false
  dailyFails : Bool := false

def deleteDomainBeforeTimestamp (timestamp : Nat) : Statement Database :=
  .guarded (timestamp < 2 ^ 63) fun database =>
    { database with domain := database.domain.filter (timestamp < ·.timestamp) }

/-- `DELETE FROM … WHERE timestamp <= ?` on a table of counts. -/
def deleteCountBeforeTimestamp (timestamp : Nat) (counts : Table.Rows Nat Nat) :
    Table.Rows Nat Nat :=
  fun start => if start ≤ timestamp then none else counts start

def deleteHourlyQueryCountBeforeTimestamp (timestamp : Nat) : Statement Database :=
  .guarded (timestamp < 2 ^ 63) fun database =>
    { database with
      domainHourlyCount := deleteCountBeforeTimestamp timestamp database.domainHourlyCount }

def deleteDailyQueryCountBeforeTimestamp (timestamp : Nat) : Statement Database :=
  .guarded (timestamp < 2 ^ 63) fun database =>
    { database with
      domainDailyCount := deleteCountBeforeTimestamp timestamp database.domainDailyCount }

/-- The database after a statement on its own, whose error is only logged. -/
def attempt (fails : Bool) (statement : Statement Database) (database : Database) : Database :=
  if fails then database else (statement database).getD database

/-- `DataStats::refresh`, without the lists of the top clients and domains. -/
def refresh (call : RefreshCall) (database : Database) : Database :=
  database
    |> attempt call.domainFails
      (deleteDomainBeforeTimestamp (wrappingSub 64 call.now call.maxLogAgeMs))
    |> attempt call.hourlyFails
      (deleteHourlyQueryCountBeforeTimestamp (30 * 24 * 3600 * 1000))
    |> attempt call.dailyFails
      (deleteDailyQueryCountBeforeTimestamp (90 * 24 * 3600 * 1000))

/-- The writes of `save_status_data`, in their order. -/
def statusWrites (stat : DataStatsItem) : List (Text × Text) :=
  [("total_request", showNat stat.totalRequest),
    ("total_blocked_request", showNat stat.totalBlockedRequest),
    ("total_failed_request", showNat stat.totalFailedRequest),
    ("request_drop", showNat stat.requestDropped)]

/-- `save_status_data` when only the first `written` of its writes succeed. -/
def saveStatusDataUntil (written : Nat) (stat : DataStatsItem) (database : Database) : Database :=
  ((statusWrites stat).take written).foldl
    (fun database write => setStatusData write.1 write.2 database) database

theorem saveStatusDataUntil_all {written : Nat} (all : 4 ≤ written) (stat : DataStatsItem)
    (database : Database) :
    saveStatusDataUntil written stat database = saveStatusData stat database := by
  unfold saveStatusDataUntil
  rw [List.take_of_length_le all]
  rfl

/-- The service on a database; what is in memory is lost when it does not run. -/
structure CounterState where
  server : DataServer := {}
  isRunning : Bool := false

inductive CounterEvent where
  | start
  | handle (call : HandleCall) (reqList : List DnsRequest)
  | refresh (call : RefreshCall)
  | stop (written : Nat)
  | kill

def counterStep (state : CounterState) : CounterEvent → Option CounterState
  | .start =>
      if state.isRunning then none
      else
        some {
          server := {
            stat := loadStatusData state.server.database {}
            database := state.server.database }
          isRunning := true }
  | .handle call reqList =>
      if state.isRunning then
        some { state with server := handleDnsRequest call reqList state.server }
      else none
  | .refresh call =>
      if state.isRunning then
        some { state with
          server := { state.server with database := refresh call state.server.database } }
      else none
  | .stop written =>
      if state.isRunning then
        some {
          server := {
            database := saveStatusDataUntil written state.server.stat state.server.database }
          isRunning := false }
      else none
  | .kill =>
      if state.isRunning then
        some { server := { database := state.server.database }, isRunning := false }
      else none

/-- The sub-counters do not exceed the total. -/
structure IsBounded (stat : DataStatsItem) : Prop where
  blocked : stat.totalBlockedRequest ≤ stat.totalRequest
  failed : stat.totalFailedRequest ≤ stat.totalRequest

def savedTotal (database : Database) : Nat := loadCount database.statusData "total_request"

def savedBlocked (database : Database) : Nat :=
  loadCount database.statusData "total_blocked_request"

def savedFailed (database : Database) : Nat :=
  loadCount database.statusData "total_failed_request"

/-- At a start where a total was saved, but of the blocked requests nothing but
zero, the blocked rows are no more than that total; and the total does not wrap
around when requests are handled. -/
def KeepsBounds (state : CounterState) : CounterEvent → Prop
  | .start =>
      savedTotal state.server.database ≠ 0 → savedBlocked state.server.database = 0 →
        state.server.database.domain.countP (·.isBlocked) ≤ savedTotal state.server.database
  | .handle _ reqList =>
      state.server.stat.totalRequest + (reqList.filter (·.isHandled)).length < 2 ^ 64
  | _ => True

/-! ### The rows -/

/-- The rows are as many as the ids given to them, at most. -/
structure HasIds (database : Database) : Prop where
  few : database.domain.length ≤ database.domainSequence
  room : database.domainSequence < 2 ^ 63

theorem foldl_setClient_sequence (clients : List ClientData) (database : Database) :
    (clients.foldl setClient database).domainSequence = database.domainSequence := by
  induction clients generalizing database with
  | nil => rfl
  | cons data clients inductionHypothesis => exact inductionHypothesis (setClient database data)

theorem HasIds.insertClient {database : Database} (hasIds : HasIds database)
    (fault : Option Nat) (clients : List ClientData) :
    HasIds (insertClient fault clients database).1 := by
  obtain ⟨sameDomain, -⟩ := insertClient_domain fault clients database
  have sameSequence : (SmartDnsPlusUi.insertClient fault clients database).1.domainSequence =
      database.domainSequence := by
    cases outcome : (SmartDnsPlusUi.insertClient fault clients database).2 with
    | true =>
        rw [insertClient_committed outcome]
        exact foldl_setClient_sequence clients database
    | false => rw [SmartDnsPlusUi.insertClient, transact_failed outcome]
  refine ⟨?_, ?_⟩
  · rw [sameDomain, sameSequence]
    exact hasIds.few
  · rw [sameSequence]
    exact hasIds.room

theorem HasIds.insertDomain {database : Database} (hasIds : HasIds database) (offset : UtcOffset)
    (call : InsertCall) : HasIds (insertDomain offset call database).1 := by
  cases outcome : (SmartDnsPlusUi.insertDomain offset call database).2 with
  | false =>
      have unchanged : (SmartDnsPlusUi.insertDomain offset call database).1 = database :=
        transact_failed outcome
      rw [unchanged]
      exact hasIds
  | true =>
      have runs := runStatements_of_transact outcome
      rw [runStatements_insertDomainStatements] at runs
      split at runs
      · rename_i allowed
        rw [insertDomain_committed outcome]
        have few := hasIds.few
        refine ⟨?_, ?_⟩
        · simp only [stored, List.length_append, length_numbered]
          omega
        · rcases allowed.1 with none_new | room
          · simp only [stored, none_new, List.length_nil, Nat.add_zero]
            exact hasIds.room
          · exact room
      · cases runs

theorem HasIds.storeBatch {database : Database} (hasIds : HasIds database) (call : HandleCall)
    (rows : List DomainData) (clients : List ClientData) :
    HasIds (storeBatch call rows clients database) := by
  have inserted := hasIds.insertDomain call.offset (call.insertCall rows)
  unfold SmartDnsPlusUi.storeBatch
  split
  · rename_i next outcome
    rw [outcome] at inserted
    exact inserted.insertClient call.clientFault clients
  · rename_i next outcome
    rw [outcome] at inserted
    exact inserted

theorem attempt_cases (fails : Bool) (statement : Statement Database) (database : Database) :
    attempt fails statement database = database ∨
      statement database = some (attempt fails statement database) := by
  unfold attempt
  cases fails with
  | true => exact .inl rfl
  | false =>
      cases outcome : statement database with
      | none => exact .inl rfl
      | some next => exact .inr rfl

theorem guarded_eq_some {allowed : Prop} [Decidable allowed] {apply : Database → Database}
    {database next : Database} (stepped : Statement.guarded allowed apply database = some next) :
    next = apply database := by
  unfold Statement.guarded at stepped
  split at stepped
  · exact (Option.some.inj stepped).symm
  · cases stepped

/-- `after` differs from `before` in rows that were deleted and in the counts of hours
and days, at most. -/
structure Retains (before after : Database) : Prop where
  domain : after.domain.Sublist before.domain
  domainSequence : after.domainSequence = before.domainSequence
  statusData : after.statusData = before.statusData

theorem Retains.trans {first second third : Database} (earlier : Retains first second)
    (later : Retains second third) : Retains first third :=
  ⟨later.domain.trans earlier.domain, later.domainSequence.trans earlier.domainSequence,
    later.statusData.trans earlier.statusData⟩

theorem retains_attempt (fails : Bool) {allowed : Prop} [Decidable allowed]
    {apply : Database → Database} (database : Database)
    (retains : Retains database (apply database)) :
    Retains database (attempt fails (.guarded allowed apply) database) := by
  rcases attempt_cases fails (.guarded allowed apply) database with unchanged | stepped
  · rw [unchanged]
    exact ⟨List.Sublist.refl _, rfl, rfl⟩
  · rw [guarded_eq_some stepped]
    exact retains

theorem retains_refresh (call : RefreshCall) (database : Database) :
    Retains database (refresh call database) := by
  unfold refresh
  refine ((retains_attempt _ _ ?_).trans (retains_attempt _ _ ?_)).trans (retains_attempt _ _ ?_)
  · exact ⟨List.filter_sublist, rfl, rfl⟩
  · exact ⟨List.Sublist.refl _, rfl, rfl⟩
  · exact ⟨List.Sublist.refl _, rfl, rfl⟩

theorem HasIds.of_retains {before after : Database} (hasIds : HasIds before)
    (retains : Retains before after) : HasIds after := by
  refine ⟨?_, ?_⟩
  · rw [retains.domainSequence]
    exact retains.domain.length_le.trans hasIds.few
  · rw [retains.domainSequence]
    exact hasIds.room

/-! ### The saved counters -/

theorem loadCount_setStatusData_self {n : Nat} (small : n < 2 ^ 64) (key : Text)
    (database : Database) :
    loadCount (setStatusData key (showNat n) database).statusData key = n :=
  loadCount_of_saved (if_pos rfl) small

theorem loadCount_setStatusData_of_ne {key other : Text} (different : other ≠ key) (value : Text)
    (database : Database) :
    loadCount (setStatusData key value database).statusData other =
      loadCount database.statusData other := by
  simp only [loadCount, setStatusData, if_neg different]

/-- The saved sub-counters do not exceed the saved total. -/
structure SavedBounded (database : Database) : Prop where
  blocked : savedBlocked database ≤ savedTotal database
  failed : savedFailed database ≤ savedTotal database

/-- The saved total is `total`, and the saved sub-counters do not exceed it. -/
structure SavedUnder (total : Nat) (database : Database) : Prop where
  total_eq : savedTotal database = total
  blocked : savedBlocked database ≤ total
  failed : savedFailed database ≤ total

theorem SavedUnder.writeBlocked {total n : Nat} {database : Database}
    (saved : SavedUnder total database) (few : n ≤ total) (small : n < 2 ^ 64) :
    SavedUnder total (setStatusData "total_blocked_request" (showNat n) database) where
  total_eq := (loadCount_setStatusData_of_ne (by decide) _ _).trans saved.total_eq
  blocked := (loadCount_setStatusData_self small _ _).trans_le few
  failed := (loadCount_setStatusData_of_ne (by decide) _ _).trans_le saved.failed

theorem SavedUnder.writeFailed {total n : Nat} {database : Database}
    (saved : SavedUnder total database) (few : n ≤ total) (small : n < 2 ^ 64) :
    SavedUnder total (setStatusData "total_failed_request" (showNat n) database) where
  total_eq := (loadCount_setStatusData_of_ne (by decide) _ _).trans saved.total_eq
  blocked := (loadCount_setStatusData_of_ne (by decide) _ _).trans_le saved.blocked
  failed := (loadCount_setStatusData_self small _ _).trans_le few

theorem SavedUnder.writeDrop {total : Nat} {database : Database}
    (saved : SavedUnder total database) (value : Text) :
    SavedUnder total (setStatusData "request_drop" value database) where
  total_eq := (loadCount_setStatusData_of_ne (by decide) _ _).trans saved.total_eq
  blocked := (loadCount_setStatusData_of_ne (by decide) _ _).trans_le saved.blocked
  failed := (loadCount_setStatusData_of_ne (by decide) _ _).trans_le saved.failed

/-- Writing the total first keeps the saved counters in order, however many of the
writes succeed. -/
theorem SavedBounded.saveStatusDataUntil {database : Database} (saved : SavedBounded database)
    {stat : DataStatsItem} (bounded : IsBounded stat) (small : stat.totalRequest < 2 ^ 64)
    (grown : savedTotal database ≤ stat.totalRequest) (written : Nat) :
    SavedBounded (saveStatusDataUntil written stat database) := by
  have blockedSmall : stat.totalBlockedRequest < 2 ^ 64 := bounded.blocked.trans_lt small
  have failedSmall : stat.totalFailedRequest < 2 ^ 64 := bounded.failed.trans_lt small
  have total : SavedUnder stat.totalRequest
      (setStatusData "total_request" (showNat stat.totalRequest) database) := by
    refine ⟨loadCount_setStatusData_self small _ _, ?_, ?_⟩
    · exact (loadCount_setStatusData_of_ne (by decide) _ _).trans_le (saved.blocked.trans grown)
    · exact (loadCount_setStatusData_of_ne (by decide) _ _).trans_le (saved.failed.trans grown)
  have blocked := total.writeBlocked bounded.blocked blockedSmall
  have failed := blocked.writeFailed bounded.failed failedSmall
  have under (after : Database) (savedUnder : SavedUnder stat.totalRequest after) :
      SavedBounded after :=
    ⟨savedUnder.total_eq ▸ savedUnder.blocked, savedUnder.total_eq ▸ savedUnder.failed⟩
  match written with
  | 0 => exact saved
  | 1 => exact under _ total
  | 2 => exact under _ blocked
  | 3 => exact under _ failed
  | written + 4 =>
      rw [saveStatusDataUntil_all (Nat.le_add_left 4 written)]
      exact under _ (failed.writeDrop _)

/-! ### The invariant -/

/-- What the start of the service loads. -/
theorem loadStatusData_totals (database : Database) :
    (loadStatusData database {}).totalRequest = wrappingAdd 64 0
        (if savedTotal database = 0 then database.domain.length else savedTotal database) ∧
      (loadStatusData database {}).totalBlockedRequest = wrappingAdd 64 0
        (if savedBlocked database = 0 then database.domain.countP (·.isBlocked)
          else savedBlocked database) ∧
      (loadStatusData database {}).totalFailedRequest =
        wrappingAdd 64 0 (savedFailed database) := by
  simp only [loadStatusData, DataStatsItem.addTotalRequest, DataStatsItem.addTotalBlockedRequest,
    DataStatsItem.addTotalFailedRequest, DataStatsItem.addRequestDrop, getDomainListCount_none,
    getDomainListCount_blocked]
  exact ⟨rfl, rfl, rfl⟩

theorem loadCount_lt (statusData : Table.Rows Text Text) (key : Text) :
    loadCount statusData key < 2 ^ 64 := by
  unfold loadCount
  split
  · decide
  · cases parsed : parseU64 _ with
    | none => decide
    | some n =>
        unfold parseU64 at parsed
        dsimp only at parsed
        split_ifs at parsed with allowed
        exact Option.some.inj parsed ▸ allowed.2.2

/-- A start loads sub-counters in order exactly if the condition holds. -/
theorem isBounded_loadStatusData_iff {database : Database} (hasIds : HasIds database)
    (saved : SavedBounded database) :
    IsBounded (loadStatusData database {}) ↔
      (savedTotal database ≠ 0 → savedBlocked database = 0 →
        database.domain.countP (·.isBlocked) ≤ savedTotal database) := by
  obtain ⟨total, blocked, failed⟩ := loadStatusData_totals database
  have totalSmall : savedTotal database < 2 ^ 64 := loadCount_lt _ _
  have fewBlocked := List.countP_le_length (p := fun row : DomainData => row.isBlocked)
    (l := database.domain)
  have ⟨rows, room⟩ := hasIds
  have ⟨savedBlocked_le, savedFailed_le⟩ := saved
  rw [wrappingAdd_of_lt (by split <;> omega)] at total blocked
  rw [wrappingAdd_of_lt (by omega)] at failed
  have failedBounded :
      (loadStatusData database {}).totalFailedRequest ≤ (loadStatusData database {}).totalRequest := by
    rw [failed, total]
    split <;> omega
  have reduced : IsBounded (loadStatusData database {}) ↔
      (loadStatusData database {}).totalBlockedRequest ≤
        (loadStatusData database {}).totalRequest :=
    ⟨IsBounded.blocked, fun blockedBounded => ⟨blockedBounded, failedBounded⟩⟩
  rw [reduced, blocked, total]
  split <;> split <;> omega

/-- What holds of the counters in memory and of those saved. -/
structure CounterState.Invariant (state : CounterState) : Prop where
  hasIds : HasIds state.server.database
  saved : SavedBounded state.server.database
  bounded : IsBounded state.server.stat
  small : state.server.stat.totalRequest < 2 ^ 64
  grown : state.isRunning = true →
    savedTotal state.server.database ≤ state.server.stat.totalRequest

theorem isBounded_countRequests {stat : DataStatsItem} (bounded : IsBounded stat)
    {reqList : List DnsRequest} (fits : stat.totalRequest + reqList.length < 2 ^ 64) :
    IsBounded (countRequests reqList stat) ∧
      (countRequests reqList stat).totalRequest = stat.totalRequest + reqList.length := by
  have blocked := List.countP_le_length (p := fun req : DnsRequest => req.isBlocked) (l := reqList)
  have failed := List.countP_le_length (p := fun req : DnsRequest => decide (req.rcode ≠ 0))
    (l := reqList)
  have ⟨blocked_le, failed_le⟩ := bounded
  simp only [countRequests, DataStatsItem.addTotalRequest, DataStatsItem.addTotalBlockedRequest,
    DataStatsItem.addTotalFailedRequest]
  rw [wrappingAdd_of_lt fits]
  refine ⟨⟨?_, ?_⟩, rfl⟩
  · dsimp only
    rw [wrappingAdd_of_lt (by omega)]
    omega
  · dsimp only
    rw [wrappingAdd_of_lt (by omega)]
    omega

theorem SavedBounded.of_statusData {database after : Database} (saved : SavedBounded database)
    (same : after.statusData = database.statusData) : SavedBounded after := by
  have ⟨blocked, failed⟩ := saved
  unfold savedBlocked savedTotal at blocked
  unfold savedFailed savedTotal at failed
  rw [← same] at blocked failed
  exact ⟨blocked, failed⟩

theorem HasIds.saveStatusDataUntil {database : Database} (hasIds : HasIds database)
    (written : Nat) (stat : DataStatsItem) :
    HasIds (saveStatusDataUntil written stat database) := by
  unfold SmartDnsPlusUi.saveStatusDataUntil
  induction (statusWrites stat).take written generalizing database with
  | nil => exact hasIds
  | cons write writes inductionHypothesis =>
      exact inductionHypothesis ⟨hasIds.few, hasIds.room⟩

theorem CounterState.Invariant.handle {state : CounterState} (invariant : state.Invariant)
    (running : state.isRunning = true) (call : HandleCall) {reqList : List DnsRequest}
    (fits : state.server.stat.totalRequest + (reqList.filter (·.isHandled)).length < 2 ^ 64) :
    CounterState.Invariant { state with server := handleDnsRequest call reqList state.server } := by
  obtain ⟨bounded, total⟩ := isBounded_countRequests invariant.bounded fits
  have status := (storeBatch_domain call ((reqList.filter (·.isHandled)).map (·.domainData))
    (takeDue 3000 call.toFlushCall (notedClients call reqList state.server)).1
    state.server.database).2
  refine ⟨invariant.hasIds.storeBatch call _ _, invariant.saved.of_statusData status, bounded,
    ?_, fun _ => ?_⟩
  · exact total.trans_lt fits
  · have grown := invariant.grown running
    refine le_trans ?_ (grown.trans ((Nat.le_add_right _ _).trans_eq total.symm))
    exact le_of_eq (congrArg (loadCount · "total_request") status)

theorem CounterState.Invariant.step {state next : CounterState} {event : CounterEvent}
    (invariant : state.Invariant) (keeps : KeepsBounds state event)
    (stepped : counterStep state event = some next) : next.Invariant := by
  have idle : IsBounded {} := ⟨Nat.le_refl 0, Nat.le_refl 0⟩
  have idleSmall : ({} : DataStatsItem).totalRequest < 2 ^ 64 := by decide
  cases event with
  | start =>
      simp only [counterStep] at stepped
      split at stepped
      · cases stepped
      · cases stepped
        have total := (loadStatusData_totals state.server.database).1
        refine ⟨invariant.hasIds, invariant.saved,
          (isBounded_loadStatusData_iff invariant.hasIds invariant.saved).mpr keeps,
          total ▸ wrappingAdd_lt _ _ _, fun _ => ?_⟩
        have small : savedTotal state.server.database < 2 ^ 64 := loadCount_lt _ _
        have ⟨rows, room⟩ := invariant.hasIds
        dsimp only
        rw [total, wrappingAdd_of_lt (by split <;> omega)]
        split <;> omega
  | handle call reqList =>
      simp only [counterStep] at stepped
      split at stepped
      · rename_i running
        cases stepped
        exact invariant.handle running call keeps
      · cases stepped
  | refresh call =>
      simp only [counterStep] at stepped
      split at stepped
      · rename_i running
        cases stepped
        have retains := retains_refresh call state.server.database
        refine ⟨invariant.hasIds.of_retains retains,
          invariant.saved.of_statusData retains.statusData, invariant.bounded, invariant.small,
          fun _ => ?_⟩
        exact (congrArg (loadCount · "total_request") retains.statusData).trans_le
          (invariant.grown running)
      · cases stepped
  | stop written =>
      simp only [counterStep] at stepped
      split at stepped
      · rename_i running
        cases stepped
        exact ⟨invariant.hasIds.saveStatusDataUntil written _,
          invariant.saved.saveStatusDataUntil invariant.bounded invariant.small
            (invariant.grown running) written, idle, idleSmall, nofun⟩
      · cases stepped
  | kill =>
      simp only [counterStep] at stepped
      split at stepped
      · cases stepped
        exact ⟨invariant.hasIds, invariant.saved, idle, idleSmall, nofun⟩
      · cases stepped

theorem counterInvariant_start : CounterState.Invariant {} :=
  ⟨⟨Nat.le_refl 0, by decide⟩, ⟨Nat.le_refl 0, Nat.le_refl 0⟩, ⟨Nat.le_refl 0, Nat.le_refl 0⟩,
    by decide, nofun⟩

/-- In every run on a new database whose steps meet the condition, the sub-counters
never exceed the total. -/
theorem subCounters_le_total {events : List CounterEvent}
    (keeps : Throughout counterStep KeepsBounds {} events) :
    Always counterStep (fun state => IsBounded state.server.stat) {} events :=
  always_of_throughout (fun _ => CounterState.Invariant.bounded)
    (fun _ _ _ invariant keepsNow stepped => invariant.step keepsNow stepped)
    counterInvariant_start keeps

/-- A blocked request is handled and the counters are saved; then the service is
killed after another one. -/
theorem subCounters_le_total_example :
    Always counterStep (fun state => IsBounded state.server.stat) {}
      [.start, .handle sampleCall [{ sampleRequest with isBlocked := true }], .stop 4, .start,
        .handle sampleCall [{ sampleRequest with isBlocked := true }], .kill, .start] := by
  apply subCounters_le_total
  refine throughout_cons rfl (fun saved => absurd rfl saved) ?_
  refine throughout_cons rfl (by decide : 0 + 1 < 2 ^ 64) ?_
  refine throughout_cons rfl trivial ?_
  refine throughout_cons rfl (fun _ unsaved => absurd unsaved (by decide)) ?_
  refine throughout_cons rfl (by decide : 1 + 1 < 2 ^ 64) ?_
  refine throughout_cons rfl trivial ?_
  exact throughout_cons rfl (fun _ unsaved => absurd unsaved (by decide)) trivial

/-- The counters are saved when no request was blocked.  The service is killed after
two blocked ones: the total is loaded as it was saved, the blocked ones are counted
in the rows. -/
theorem not_subCounters_le_total :
    ¬ ∀ (events : List CounterEvent) (final : CounterState),
      run counterStep {} events = some final → IsBounded final.server.stat := by
  intro boundedAll
  have bounded := boundedAll
    [.start, .handle sampleCall [sampleRequest], .stop 4, .start,
      .handle sampleCall [{ sampleRequest with isBlocked := true },
        { sampleRequest with isBlocked := true }], .kill, .start] _ rfl
  exact absurd bounded.blocked (by decide)

end SmartDnsPlusUi
