import SmartDnsPlusUi.Server.ClientFlush

/-!
# Metrics

The counters over the whole life of a database: requests are handled or dropped,
the service is stopped, which saves the counters, and started again, which loads
them.  The counters of handled requests are exact; the counter of dropped ones
stays zero.
-/

namespace SmartDnsPlusUi

open Arithmetic Run Text

/-- The service on a database, with the requests handled and dropped so far. -/
structure Metrics where
  server : DataServer := {}
  isRunning : Bool := true
  handled : List DnsRequest := []
  dropped : Nat := 0

inductive MetricsEvent where
  | handle (call : HandleCall) (reqList : List DnsRequest)
  | send (request : DnsRequest) (closed : Bool)
  | stop
  | restart

def metricsStep (state : Metrics) : MetricsEvent → Option Metrics
  | .handle call reqList =>
      if state.isRunning then
        some { state with
          server := handleDnsRequest call reqList state.server
          handled := state.handled ++ reqList.filter (·.isHandled) }
      else none
  | .send request closed =>
      let sent := sendRequest request closed state.server
      some { state with
        server := sent.1
        dropped := if sent.2 = .dropped then state.dropped + 1 else state.dropped }
  | .stop =>
      if state.isRunning then
        some { state with
          server := { state.server with
            database := saveStatusData state.server.stat state.server.database }
          isRunning := false }
      else none
  | .restart =>
      if state.isRunning then none
      else
        some { state with
          server := {
            stat := loadStatusData state.server.database {}
            database := state.server.database }
          isRunning := true }

/-- The counters show what has happened since the database was created. -/
structure Metrics.Exact (state : Metrics) : Prop where
  totalRequest : state.server.stat.totalRequest = state.handled.length
  totalBlockedRequest : state.server.stat.totalBlockedRequest = state.handled.countP (·.isBlocked)
  totalFailedRequest : state.server.stat.totalFailedRequest = state.handled.countP (·.rcode ≠ 0)
  requestDropped : state.server.stat.requestDropped = state.dropped

/-! ### The counts of rows -/

theorem getDomainListCount_none (database : Database) :
    getDomainListCount database none = database.domain.length := by
  simp [getDomainListCount, getDomainSqlWhere, selectDomain]

theorem getDomainListCount_blocked (database : Database) :
    getDomainListCount database (some { isBlocked := some true }) =
      database.domain.countP (·.isBlocked) := by
  have clauses : getDomainSqlWhere (some { isBlocked := some true }) =
      .ok ([.isBlockedIs true], some { descending := true, timestampFirst := false }) := rfl
  unfold getDomainListCount
  rw [clauses]
  simp [selectDomain, DomainOrder.sort, DomainCondition.holds, List.countP_eq_length_filter]

theorem countP_numbered (sequence : Nat) (rows : List DomainData) :
    (numbered sequence rows).countP (·.isBlocked) = rows.countP (·.isBlocked) := by
  induction rows generalizing sequence with
  | nil => rfl
  | cons row rows inductionHypothesis =>
      simp only [numbered, List.countP_cons, inductionHypothesis]

theorem length_numbered (sequence : Nat) (rows : List DomainData) :
    (numbered sequence rows).length = rows.length := by
  induction rows generalizing sequence with
  | nil => rfl
  | cons row rows inductionHypothesis => simp only [numbered, List.length_cons, inductionHypothesis]

theorem foldl_setClient (clients : List ClientData) (database : Database) :
    (clients.foldl setClient database).domain = database.domain ∧
      (clients.foldl setClient database).statusData = database.statusData := by
  induction clients generalizing database with
  | nil => exact ⟨rfl, rfl⟩
  | cons data clients inductionHypothesis => exact inductionHypothesis (setClient database data)

theorem insertClient_domain (fault : Option Nat) (clients : List ClientData) (database : Database) :
    (insertClient fault clients database).1.domain = database.domain ∧
      (insertClient fault clients database).1.statusData = database.statusData := by
  cases outcome : (insertClient fault clients database).2 with
  | true =>
      rw [insertClient_committed outcome]
      exact foldl_setClient clients database
  | false =>
      have unchanged : (insertClient fault clients database).1 = database :=
        transact_failed outcome
      rw [unchanged]
      exact ⟨rfl, rfl⟩

/-- A batch adds its rows or none, and leaves the saved counters alone. -/
theorem storeBatch_domain (call : HandleCall) (rows : List DomainData)
    (clients : List ClientData) (database : Database) :
    ((storeBatch call rows clients database).domain = database.domain ∨
        (storeBatch call rows clients database).domain =
          database.domain ++ numbered database.domainSequence rows) ∧
      (storeBatch call rows clients database).statusData = database.statusData := by
  unfold storeBatch
  rcases outcome : insertDomain call.offset (call.insertCall rows) database with ⟨next, committed⟩
  cases committed with
  | true =>
      have inserted := insertDomain_committed (congrArg Prod.snd outcome)
      rw [outcome] at inserted
      obtain rfl : next = stored call.offset (call.insertCall rows) database := inserted
      obtain ⟨sameDomain, sameStatus⟩ := insertClient_domain call.clientFault clients
        (stored call.offset (call.insertCall rows) database)
      simp only [sameDomain, sameStatus]
      exact ⟨Or.inr rfl, rfl⟩
  | false =>
      have unchanged : (insertDomain call.offset (call.insertCall rows) database).1 = database :=
        transact_failed (congrArg Prod.snd outcome)
      rw [outcome] at unchanged
      subst unchanged
      exact ⟨Or.inl rfl, rfl⟩

/-! ### The invariant -/

/-- The saved counters are those of the service. -/
structure IsSaved (stat : DataStatsItem) (database : Database) : Prop where
  totalRequest : database.statusData "total_request" = some (showNat stat.totalRequest)
  totalBlockedRequest :
    database.statusData "total_blocked_request" = some (showNat stat.totalBlockedRequest)
  totalFailedRequest :
    database.statusData "total_failed_request" = some (showNat stat.totalFailedRequest)

theorem isSaved_saveStatusData (stat : DataStatsItem) (database : Database) :
    IsSaved stat (saveStatusData stat database) :=
  ⟨rfl, rfl, rfl⟩

/-- What holds as long as the number of handled requests fits a counter. -/
structure Metrics.Counted (state : Metrics) : Prop where
  totalRequest : state.server.stat.totalRequest = state.handled.length
  totalBlockedRequest : state.server.stat.totalBlockedRequest = state.handled.countP (·.isBlocked)
  totalFailedRequest : state.server.stat.totalFailedRequest = state.handled.countP (·.rcode ≠ 0)
  rows : state.server.database.domain.length ≤ state.handled.length
  blockedRows : state.server.database.domain.countP (·.isBlocked) ≤
    state.handled.countP (·.isBlocked)
  saved : state.isRunning = false → IsSaved state.server.stat state.server.database

structure Metrics.Invariant (state : Metrics) : Prop where
  noDrops : state.server.stat.requestDropped = 0
  small : state.server.stat.totalRequest < 2 ^ 64
  counted : state.handled.length < 2 ^ 64 → state.Counted

theorem loadCount_of_saved {statusData : Table.Rows Text Text} {key : Text} {n : Nat}
    (saved : statusData key = some (showNat n)) (small : n < 2 ^ 64) :
    loadCount statusData key = n := by
  unfold loadCount
  rw [saved]
  simp only [parseU64_showNat small, Option.getD_some]

/-- A saved counter is loaded again; one that is zero is taken from the rows, of
which there are none then. -/
theorem load_of_saved {statusData : Table.Rows Text Text} {key : Text} {n rows : Nat}
    (saved : statusData key = some (showNat n)) (small : n < 2 ^ 64) (few : rows ≤ n) :
    wrappingAdd 64 0 (if loadCount statusData key = 0 then rows else loadCount statusData key) =
      n := by
  rw [loadCount_of_saved saved small]
  by_cases zero : n = 0
  · rw [if_pos zero, wrappingAdd_of_lt (by omega)]
    omega
  · rw [if_neg zero, wrappingAdd_of_lt (by omega), Nat.zero_add]

theorem handle_counted {state : Metrics} (counted : state.Counted) (running : state.isRunning = true)
    (call : HandleCall) (reqList : List DnsRequest)
    (fits : (state.handled ++ reqList.filter (·.isHandled)).length < 2 ^ 64) :
    Metrics.Counted { state with
      server := handleDnsRequest call reqList state.server
      handled := state.handled ++ reqList.filter (·.isHandled) } := by
  rw [List.length_append] at fits
  have blocked := List.countP_le_length (p := fun req : DnsRequest => req.isBlocked)
    (l := state.handled)
  have blockedNew := List.countP_le_length (p := fun req : DnsRequest => req.isBlocked)
    (l := reqList.filter (·.isHandled))
  have failed := List.countP_le_length (p := fun req : DnsRequest => decide (req.rcode ≠ 0))
    (l := state.handled)
  have failedNew := List.countP_le_length (p := fun req : DnsRequest => decide (req.rcode ≠ 0))
    (l := reqList.filter (·.isHandled))
  have newRows := (storeBatch_domain call ((reqList.filter (·.isHandled)).map (·.domainData))
    (takeDue 3000 call.toFlushCall (notedClients call reqList state.server)).1
    state.server.database).1
  have rows := counted.rows
  have blockedRows := counted.blockedRows
  refine ⟨?_, ?_, ?_, ?_, ?_, fun stopped => ?_⟩
  · simp only [handleDnsRequest, countRequests, DataStatsItem.addTotalRequest,
      DataStatsItem.addTotalBlockedRequest, DataStatsItem.addTotalFailedRequest]
    rw [counted.totalRequest, wrappingAdd_of_lt fits, List.length_append]
  · simp only [handleDnsRequest, countRequests, DataStatsItem.addTotalRequest,
      DataStatsItem.addTotalBlockedRequest, DataStatsItem.addTotalFailedRequest]
    rw [counted.totalBlockedRequest, wrappingAdd_of_lt (by omega), List.countP_append]
  · simp only [handleDnsRequest, countRequests, DataStatsItem.addTotalRequest,
      DataStatsItem.addTotalBlockedRequest, DataStatsItem.addTotalFailedRequest]
    rw [counted.totalFailedRequest, wrappingAdd_of_lt (by omega), List.countP_append]
  · simp only [handleDnsRequest, List.length_append]
    rcases newRows with same | more
    · rw [same]
      omega
    · rw [more, List.length_append, length_numbered, List.length_map]
      omega
  · simp only [handleDnsRequest, List.countP_append]
    rcases newRows with same | more
    · rw [same]
      omega
    · have new : (((reqList.filter (·.isHandled)).map (·.domainData)).countP (·.isBlocked)) =
          (reqList.filter (·.isHandled)).countP (·.isBlocked) := by
        rw [List.countP_map]
        rfl
      rw [more, List.countP_append, countP_numbered, new]
      omega
  · simp only [running] at stopped
    cases stopped

theorem sendRequest_stat (request : DnsRequest) (closed : Bool) {server : DataServer}
    (noDrops : server.stat.requestDropped = 0) :
    (sendRequest request closed server).1.stat.totalRequest = server.stat.totalRequest ∧
      (sendRequest request closed server).1.stat.totalBlockedRequest =
        server.stat.totalBlockedRequest ∧
      (sendRequest request closed server).1.stat.totalFailedRequest =
        server.stat.totalFailedRequest ∧
      (sendRequest request closed server).1.stat.requestDropped = 0 := by
  have dropped : server.stat.requestDropped &&& 1 = 0 := by
    rw [noDrops]
    rfl
  unfold sendRequest
  dsimp only
  split
  · exact ⟨rfl, rfl, rfl, noDrops⟩
  · split
    · exact ⟨rfl, rfl, rfl, noDrops⟩
    · split
      · exact ⟨rfl, rfl, rfl, noDrops⟩
      · exact ⟨rfl, rfl, rfl, dropped⟩

theorem restart_counted {state : Metrics} (counted : state.Counted)
    (stopped : state.isRunning = false) (fits : state.handled.length < 2 ^ 64) :
    Metrics.Counted { state with
      server := {
        stat := loadStatusData state.server.database {}
        database := state.server.database }
      isRunning := true } := by
  have saved := counted.saved stopped
  have blocked := List.countP_le_length (p := fun req : DnsRequest => req.isBlocked)
    (l := state.handled)
  have failed := List.countP_le_length (p := fun req : DnsRequest => decide (req.rcode ≠ 0))
    (l := state.handled)
  have savedTotal := saved.totalRequest
  have savedBlocked := saved.totalBlockedRequest
  have savedFailed := saved.totalFailedRequest
  rw [counted.totalRequest] at savedTotal
  rw [counted.totalBlockedRequest] at savedBlocked
  rw [counted.totalFailedRequest] at savedFailed
  refine ⟨?_, ?_, ?_, counted.rows, counted.blockedRows, nofun⟩
  · simp only [loadStatusData, DataStatsItem.addTotalRequest, DataStatsItem.addTotalBlockedRequest,
      DataStatsItem.addTotalFailedRequest, DataStatsItem.addRequestDrop, getDomainListCount_none]
    exact load_of_saved savedTotal fits counted.rows
  · simp only [loadStatusData, DataStatsItem.addTotalRequest, DataStatsItem.addTotalBlockedRequest,
      DataStatsItem.addTotalFailedRequest, DataStatsItem.addRequestDrop,
      getDomainListCount_blocked]
    exact load_of_saved savedBlocked (by omega) counted.blockedRows
  · simp only [loadStatusData, DataStatsItem.addTotalRequest, DataStatsItem.addTotalBlockedRequest,
      DataStatsItem.addTotalFailedRequest, DataStatsItem.addRequestDrop]
    rw [loadCount_of_saved savedFailed (by omega), wrappingAdd_of_lt (by omega), Nat.zero_add]

theorem metricsStep_invariant {state next : Metrics} {event : MetricsEvent}
    (invariant : state.Invariant) (stepped : metricsStep state event = some next) :
    next.Invariant := by
  cases event with
  | handle call reqList =>
      simp only [metricsStep] at stepped
      split at stepped
      · rename_i running
        cases stepped
        refine ⟨invariant.noDrops, wrappingAdd_lt _ _ _, fun fits => ?_⟩
        have before : state.handled.length < 2 ^ 64 := by
          simp only [List.length_append] at fits
          omega
        exact handle_counted (invariant.counted before) running call reqList fits
      · cases stepped
  | send request closed =>
      cases stepped
      obtain ⟨total, blocked, failed, noDrops⟩ := sendRequest_stat request closed invariant.noDrops
      have database := (sendRequest_pending request closed state.server).2
      refine ⟨noDrops, total ▸ invariant.small, fun fits => ?_⟩
      have counted := invariant.counted fits
      refine ⟨total.trans counted.totalRequest, blocked.trans counted.totalBlockedRequest,
        failed.trans counted.totalFailedRequest, ?_, ?_, fun stopped => ?_⟩
      · simp only [database]
        exact counted.rows
      · simp only [database]
        exact counted.blockedRows
      · have saved := counted.saved stopped
        refine ⟨?_, ?_, ?_⟩
        · simp only [database, total]
          exact saved.totalRequest
        · simp only [database, blocked]
          exact saved.totalBlockedRequest
        · simp only [database, failed]
          exact saved.totalFailedRequest
  | stop =>
      simp only [metricsStep] at stepped
      split at stepped
      · cases stepped
        refine ⟨invariant.noDrops, invariant.small, fun fits => ?_⟩
        have counted := invariant.counted fits
        exact ⟨counted.totalRequest, counted.totalBlockedRequest, counted.totalFailedRequest,
          counted.rows, counted.blockedRows, fun _ => isSaved_saveStatusData _ _⟩
      · cases stepped
  | restart =>
      simp only [metricsStep] at stepped
      split at stepped
      · cases stepped
      · rename_i notRunning
        cases stepped
        exact ⟨Nat.zero_and _, wrappingAdd_lt _ _ _, fun fits =>
          restart_counted (invariant.counted fits) (Bool.eq_false_iff.mpr notRunning) fits⟩

/-- The counters of a service on a new database show what has happened since then
exactly if no request was dropped and the handled ones can be counted in 64 bits. -/
theorem metrics_exact_iff {events : List MetricsEvent} {final : Metrics}
    (runs : run metricsStep {} events = some final) :
    final.Exact ↔ final.dropped = 0 ∧ final.handled.length < 2 ^ 64 := by
  have start : Metrics.Invariant {} :=
    ⟨rfl, by decide, fun _ => ⟨rfl, rfl, rfl, Nat.le_refl 0, Nat.le_refl 0, nofun⟩⟩
  have invariant : final.Invariant :=
    invariant_of_run (fun _ _ _ => metricsStep_invariant) start runs
  constructor
  · intro exact
    exact ⟨exact.requestDropped.symm.trans invariant.noDrops, exact.totalRequest ▸ invariant.small⟩
  · rintro ⟨noneDropped, fits⟩
    have counted := invariant.counted fits
    exact ⟨counted.totalRequest, counted.totalBlockedRequest, counted.totalFailedRequest,
      invariant.noDrops.trans noneDropped.symm⟩

/-- The state in which a run on a new database ends. -/
def metricsEnd (events : List MetricsEvent) : Metrics := (run metricsStep {} events).getD {}

theorem metrics_exact_example :
    (metricsEnd [.handle sampleCall [sampleRequest], .stop, .restart]).Exact ↔
      (metricsEnd [.handle sampleCall [sampleRequest], .stop, .restart]).dropped = 0 ∧
        (metricsEnd [.handle sampleCall [sampleRequest], .stop, .restart]).handled.length < 2 ^ 64 :=
  @metrics_exact_iff [.handle sampleCall [sampleRequest], .stop, .restart] _ rfl

/-- A request that comes when the channel is closed is not counted as dropped. -/
theorem not_metrics_exact :
    ¬ ∀ (events : List MetricsEvent) (final : Metrics),
      run metricsStep {} events = some final → final.Exact := by
  intro exactAll
  have exact := exactAll [.send sampleRequest true] _ rfl
  exact absurd exact.requestDropped (by decide)

end SmartDnsPlusUi
