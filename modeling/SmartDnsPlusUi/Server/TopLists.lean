import Mathlib.Data.List.Dedup
import Mathlib.Logic.Function.Basic
import SmartDnsPlusUi.Run.Published
import SmartDnsPlusUi.Server.ApiMsg
import SmartDnsPlusUi.Server.Database
import SmartDnsPlusUi.Table.Top

/-!
# Top lists

A refresh counts the queries of each client, or of each domain, through a connection of its
own, and replaces the stored list in a transaction later.  Refreshes start every hour and
whenever a request asks for one, so several of them may be under way while queries are logged
and deleted.
-/

namespace SmartDnsPlusUi

open Run Table ApiMsg

/-- A table of counts, and the column of the query log whose values it counts. -/
structure TopListTable (Row : Type) where
  column : DomainData → Text
  row : Text → UInt32 → UInt64 → UInt64 → Row
  name : Row → Text
  count : Row → UInt32
  timestampStart : Row → UInt64
  timestampEnd : Row → UInt64
  count_row : ∀ value total first last, count (row value total first last) = total

def topClientList : TopListTable ClientQueryCount where
  column := DomainData.client
  row := ClientQueryCount.mk
  name := ClientQueryCount.clientIp
  count := ClientQueryCount.count
  timestampStart := ClientQueryCount.timestampStart
  timestampEnd := ClientQueryCount.timestampEnd
  count_row _ _ _ _ := rfl

def topDomainList : TopListTable DomainQueryCount where
  column := DomainData.domain
  row := DomainQueryCount.mk
  name := DomainQueryCount.domain
  count := DomainQueryCount.count
  timestampStart := DomainQueryCount.timestampStart
  timestampEnd := DomainQueryCount.timestampEnd
  count_row _ _ _ _ := rfl

/-- A refresh: from when it counts, when it runs, in which order the database meets the groups,
and the row at which the reading fails, if it does. -/
structure CountQuery where
  timestamp : UInt64
  timestampNow : UInt64
  order : IterationOrder (Text × Nat) := .inserted
  fault : Option Nat := none

/-- How many of the rows up to a limit are read: reading ends without an error at a row that
fails. -/
def readLimit (fault : Option Nat) (limit : Nat) : Nat :=
  match fault with
  | none => limit
  | some row => min row limit

/-- `SELECT column, COUNT(*) FROM domain WHERE timestamp >= ? GROUP BY column`. -/
def groupCounts (column : DomainData → Text) (timestamp : Nat) (domain : List DomainData) :
    List (Text × Nat) :=
  let values := (domain.filter fun data => decide (timestamp ≤ data.timestamp)).map column
  values.dedup.map fun value => (value, values.count value)

/-- `ORDER BY count DESC`. -/
def byCount {Row : Type} (count : Row → Nat) (rows : List Row) : List Row :=
  rows.mergeSort fun row later => decide (count later ≤ count row)

namespace TopListTable

variable {Row : Type} (table : TopListTable Row)

/-- A count that does not fit 32 bits makes the row an error, which is skipped. -/
def countRow (query : CountQuery) (entry : Text × Nat) : Option Row :=
  if entry.2 < 2 ^ 32 then
    some (table.row entry.1 (UInt32.ofNat entry.2) query.timestamp query.timestampNow)
  else none

/-- What a refresh reads: at most twenty rows. -/
def countList (query : CountQuery) (domain : List DomainData) : List Row :=
  let groups := groupCounts table.column query.timestamp.toNat domain
  (byCount Prod.snd (query.order.enumerate groups)).take (readLimit query.fault 20)
    |>.filterMap (table.countRow query)

/-- The times have to fit a signed integer of the database, and the name is the primary key. -/
def insertCount (row : Row) : Statement (List Row) := fun rows =>
  if (table.timestampStart row).toNat < 2 ^ 63 ∧ (table.timestampEnd row).toNat < 2 ^ 63 ∧
      table.name row ∉ rows.map table.name then
    some (rows ++ [row])
  else none

def deleteAll : Statement (List Row) := fun _ => some []

/-- Begin, prepare, delete, finalize, prepare, insert each row, finalize, commit. -/
def replaceRows (rows : List Row) : List (Statement (List Row)) :=
  [.skip, .skip, deleteAll, .skip, .skip] ++ rows.map table.insertCount ++ [.skip, .skip]

end TopListTable

/-- `get_client_top_list`, where the database meets the rows in some order. -/
def getClientTopList (order : IterationOrder ClientQueryCount) (fault : Option Nat) (count : Nat)
    (rows : List ClientQueryCount) : List ClientQueryCount :=
  (byCount (·.count.toNat) (order.enumerate rows)).take (readLimit fault count)

/-- `get_domain_top_list`: the statement names `DESC` as an alias of the table, so that the rows
come as the database scans them. -/
def getDomainTopList (scan : IterationOrder DomainQueryCount) (fault : Option Nat) (count : Nat)
    (rows : List DomainQueryCount) : List DomainQueryCount :=
  (scan.enumerate rows).take (readLimit fault count)

/-- The query log, a stored list, and the lists that the refreshes under way have read. -/
structure TopLists (Row : Type) where
  domain : List DomainData := []
  topList : List Row := []
  countLists : Nat → Option (List Row) := fun _ => none

inductive TopListEvent
  /-- Whatever else writes to the query log. -/
  | write (domain : List DomainData)
  | select (refresh : Nat) (query : CountQuery)
  /-- A refresh takes the connection that writes. -/
  | replace (refresh : Nat) (fault : Option Nat)

section

variable {Row : Type}

/-- The two parts of `refresh_client_top_list` and `refresh_domain_top_list`, between which the
log may change. -/
def topListStep (table : TopListTable Row) (state : TopLists Row) : TopListEvent → TopLists Row
  | .write domain => { state with domain }
  | .select refresh query =>
      { state with
        countLists := Function.update state.countLists refresh
          (some (table.countList query state.domain)) }
  | .replace refresh fault =>
      match state.countLists refresh with
      | none => state
      | some rows =>
          { state with
            topList := (transact fault (table.replaceRows rows) state.topList).1
            countLists := Function.update state.countLists refresh none }

/-- The event is a refresh whose transaction is committed. -/
def replaces (table : TopListTable Row) (state : TopLists Row) : TopListEvent → Bool
  | .replace refresh fault =>
      match state.countLists refresh with
      | none => false
      | some rows => (transact fault (table.replaceRows rows) state.topList).2
  | _ => false

/-- No refresh of the run replaces the list. -/
def KeepsList (table : TopListTable Row) (state : TopLists Row) (events : List TopListEvent) :
    Prop :=
  ∀ before event rest, events = before ++ event :: rest →
    replaces table (after (topListStep table) state before) event = false

/-- The last refresh of the run that replaced the list has read the log, after `before`, with the
query. -/
def LastReplaced (table : TopListTable Row) (start : TopLists Row) (events : List TopListEvent)
    (before : List TopListEvent) (query : CountQuery) : Prop :=
  ∃ refresh between fault since,
    events = before ++ .select refresh query :: (between ++ .replace refresh fault :: since) ∧
    (∀ other, TopListEvent.select refresh other ∉ between) ∧
    replaces table (after (topListStep table) start (before ++ .select refresh query :: between))
      (.replace refresh fault) = true ∧
    KeepsList table
      (after (topListStep table) start
        (before ++ .select refresh query :: (between ++ [.replace refresh fault]))) since

/-- The counts of all values of the column. -/
def TopListTable.allCounts (table : TopListTable Row) (query : CountQuery)
    (domain : List DomainData) : List Row :=
  (groupCounts table.column query.timestamp.toNat domain).filterMap (table.countRow query)

/-- How many rows a refresh stores at most: values with too many queries are skipped. -/
def TopListTable.stored (table : TopListTable Row) (query : CountQuery)
    (domain : List DomainData) : Nat :=
  readLimit query.fault 20 -
    (groupCounts table.column query.timestamp.toNat domain).countP
      fun entry => decide (2 ^ 32 ≤ entry.2)

/-! ### The transaction -/

variable {table : TopListTable Row}

theorem runStatements_insertCount {rows stored final : List Row}
    (inserted : runStatements (rows.map table.insertCount) stored = some final) :
    final = stored ++ rows := by
  induction rows generalizing stored with
  | nil =>
      cases inserted
      exact (List.append_nil _).symm
  | cons row rows inductionHypothesis =>
      obtain ⟨next, first, later⟩ := Option.bind_eq_some_iff.mp inserted
      unfold TopListTable.insertCount at first
      split_ifs at first
      cases first
      rw [inductionHypothesis later, List.append_assoc, List.singleton_append]

/-- A list that is replaced is replaced as a whole. -/
theorem runStatements_replaceRows (rows stored : List Row) :
    runStatements (table.replaceRows rows) stored =
      (runStatements (rows.map table.insertCount) []).bind some := by
  have deleted : runStatements (table.replaceRows rows) stored =
      runStatements (rows.map table.insertCount ++ [.skip, .skip]) [] := rfl
  rw [deleted, runStatements_append]
  rfl

theorem transact_replaceRows {fault : Option Nat} {rows stored : List Row}
    (committed : (transact fault (table.replaceRows rows) stored).2 = true) :
    (transact fault (table.replaceRows rows) stored).1 = rows := by
  have ran := runStatements_of_transact committed
  rw [runStatements_replaceRows, Option.bind_fun_some] at ran
  exact runStatements_insertCount ran

/-! ### What a refresh reads -/

theorem readRows_isTop {Counted : Type} (weight : Counted → Nat)
    (order : IterationOrder Counted) (rows : List Counted) (limit : Nat) :
    IsTop weight limit rows ((byCount weight (order.enumerate rows)).take limit) :=
  isTop_mergeSort weight (order.perm rows) limit

theorem filterMap_countRow (query : CountQuery) (entries : List (Text × Nat)) :
    entries.filterMap (table.countRow query) =
      (entries.filter fun entry => decide (entry.2 < 2 ^ 32)).map fun entry =>
        table.row entry.1 (UInt32.ofNat entry.2) query.timestamp query.timestampNow := by
  induction entries with
  | nil => rfl
  | cons entry entries inductionHypothesis =>
      by_cases small : entry.2 < 2 ^ 32
      · have counted : table.countRow query entry = some (table.row entry.1
            (UInt32.ofNat entry.2) query.timestamp query.timestampNow) := if_pos small
        simp only [List.filterMap_cons_some counted, inductionHypothesis, List.filter_cons, small,
          decide_true, if_true, List.map_cons]
      · have skipped : table.countRow query entry = none := if_neg small
        simp only [List.filterMap_cons_none skipped, inductionHypothesis, List.filter_cons, small,
          decide_false, Bool.false_eq_true, if_false]

theorem isTop_countList (query : CountQuery) (domain : List DomainData) :
    IsTop (fun row => (table.count row).toNat) (table.stored query domain)
      (table.allCounts query domain) (table.countList query domain) := by
  unfold TopListTable.stored TopListTable.allCounts TopListTable.countList
  rw [filterMap_countRow, filterMap_countRow]
  apply IsTop.map ((readRows_isTop Prod.snd query.order _ _).filter_light (2 ^ 32))
  intro entry listed
  have small := of_decide_eq_true (List.mem_filter.mp listed).2
  rw [table.count_row, UInt32.toNat_ofNat_of_lt' small]

/-! ### The refreshes of a run -/

/-- The refreshes of a list read and publish the counts of the log. -/
def refreshes (table : TopListTable Row) :
    Publisher (TopLists Row) TopListEvent (List Row) Nat where
  step := topListStep table
  held refresh state := state.countLists refresh
  published state := state.topList
  reads refresh event := ∃ query, event = .select refresh query
  publishes refresh state event :=
    (∃ fault, event = .replace refresh fault) ∧ replaces table state event = true
  summarizes event state rows :=
    ∃ refresh query, event = .select refresh query ∧ rows = table.countList query state.domain

theorem countLists_step_of_select (state : TopLists Row) (refresh other : Nat) (query : CountQuery) :
    (topListStep table state (.select other query)).countLists refresh =
      if refresh = other then some (table.countList query state.domain)
      else state.countLists refresh :=
  Function.update_apply _ _ _ _

theorem countLists_step_of_replace {state : TopLists Row} {refresh other : Nat}
    {fault : Option Nat} {rows : List Row}
    (held : (topListStep table state (.replace other fault)).countLists refresh = some rows) :
    state.countLists refresh = some rows := by
  cases read : state.countLists other with
  | none =>
      simp only [topListStep, read] at held
      exact held
  | some others =>
      simp only [topListStep, read, Function.update_apply] at held
      split_ifs at held
      exact held

theorem replaces_eq_true {state : TopLists Row} {event : TopListEvent}
    (committed : replaces table state event = true) :
    ∃ refresh fault, event = .replace refresh fault ∧
      state.countLists refresh = some (topListStep table state event).topList := by
  cases event with
  | write domain => cases committed
  | select refresh query => cases committed
  | replace refresh fault =>
      refine ⟨refresh, fault, rfl, ?_⟩
      cases read : state.countLists refresh with
      | none =>
          simp only [replaces, read] at committed
          cases committed
      | some rows =>
          simp only [replaces, read] at committed
          simp only [topListStep, read]
          exact congrArg some (transact_replaceRows committed).symm

/-- A refresh that fails keeps the list. -/
theorem topList_of_replaces_eq_false {state : TopLists Row} {event : TopListEvent}
    (failed : replaces table state event = false) :
    (topListStep table state event).topList = state.topList := by
  cases event with
  | write domain => rfl
  | select refresh query => rfl
  | replace refresh fault =>
      cases read : state.countLists refresh with
      | none => simp only [topListStep, read]
      | some rows =>
          simp only [replaces, read] at failed
          simp only [topListStep, read]
          exact transact_failed failed

theorem refreshes_lawful : (refreshes table).Lawful where
  read := by
    rintro refresh state _ ⟨query, rfl⟩ rows held
    refine ⟨refresh, query, rfl, ?_⟩
    have read := @countLists_step_of_select _ table state refresh refresh query
    rw [if_pos rfl] at read
    exact Option.some.inj (held.symm.trans read)
  keep := by
    intro refresh state event other rows held
    cases event with
    | write domain => exact held
    | select reader query =>
        have read := @countLists_step_of_select _ table state refresh reader query
        have elsewhere : refresh ≠ reader := fun same => other ⟨query, same ▸ rfl⟩
        rw [if_neg elsewhere] at read
        exact read.symm.trans held
    | replace replacer fault => exact countLists_step_of_replace held
  publish := by
    rintro refresh state _ ⟨⟨fault, rfl⟩, committed⟩
    obtain ⟨other, fault', same, held⟩ := replaces_eq_true committed
    cases same
    exact held
  stay := by
    intro state event none
    apply topList_of_replaces_eq_false
    by_contra committed
    obtain ⟨refresh, fault, replaced, -⟩ := replaces_eq_true (Bool.not_eq_false _ ▸ committed)
    exact none refresh ⟨⟨fault, replaced⟩, Bool.not_eq_false _ ▸ committed⟩

theorem keepsList_of_quiet {state : TopLists Row} {events : List TopListEvent}
    (quiet : (refreshes table).Quiet state events) : KeepsList table state events := by
  intro before event rest split
  by_contra committed
  have replaced := Bool.not_eq_false _ ▸ committed
  obtain ⟨refresh, fault, isReplace, -⟩ := replaces_eq_true replaced
  exact quiet before event rest split refresh ⟨⟨fault, isReplace⟩, replaced⟩

/-- The list is the one from the start, or the one that the last refresh to replace it read. -/
theorem topList_after {start : TopLists Row} (idle : ∀ refresh, start.countLists refresh = none)
    (events : List TopListEvent) :
    (KeepsList table start events ∧
        (after (topListStep table) start events).topList = start.topList) ∨
      ∃ before query, LastReplaced table start events before query ∧
        (after (topListStep table) start events).topList =
          table.countList query (after (topListStep table) start before).domain := by
  rcases (@refreshes_lawful _ table).published_after idle events with
    ⟨quiet, same⟩ | ⟨refresh, earlier, publish, since, split, ⟨⟨fault, rfl⟩, committed⟩, quiet, found⟩
  · exact Or.inl ⟨keepsList_of_quiet quiet, same⟩
  · obtain ⟨before, event, last⟩ := found
    obtain ⟨between, rfl, unread⟩ := last.events_eq
    obtain ⟨query, rfl⟩ := last.reads
    obtain ⟨reader, queried, same, read⟩ := last.summarizes
    cases same
    refine Or.inr ⟨before, query, ⟨refresh, between, fault, since, ?_, ?_, committed, ?_⟩, read⟩
    · rw [split, List.append_assoc, List.cons_append]
    · exact fun other listed => unread _ listed ⟨other, rfl⟩
    · have shape : before ++ .select refresh query :: (between ++ [.replace refresh fault]) =
          (before ++ .select refresh query :: between) ++ [.replace refresh fault] := by simp
      rw [shape]
      exact keepsList_of_quiet quiet

end

/-! ### The answers -/

def twoQueries : List DomainData :=
  [⟨1, 6, "d", 1, "c", "", 0, 0, 0, false, false⟩,
    ⟨2, 7, "d", 1, "c", "", 0, 0, 0, false, false⟩]

/-- The queries are deleted after a refresh has counted them. -/
def countedThenDeleted : List TopListEvent :=
  [.write twoQueries, .select 0 { timestamp := 5, timestampNow := 9 }, .write [], .replace 0 none]

theorem not_keepsList_countedThenDeleted {Row : Type} {table : TopListTable Row} {value : Text}
    (groups : groupCounts table.column 5 twoQueries = [(value, 2)])
    (started : table.timestampStart (table.row value 2 5 9) = 5)
    (ended : table.timestampEnd (table.row value 2 5 9) = 9) :
    ¬ KeepsList table {} countedThenDeleted := by
  intro keeps
  have counted : table.countList { timestamp := 5, timestampNow := 9 } twoQueries =
      [table.row value 2 5 9] := by
    unfold TopListTable.countList
    rw [show (5 : UInt64).toNat = 5 from rfl, groups]
    simp [byCount, IterationOrder.inserted, readLimit, TopListTable.countRow]
  have kept := keeps (countedThenDeleted.take 3) _ [] rfl
  simp [countedThenDeleted, after, topListStep, replaces, counted, transact,
    TopListTable.replaceRows, Transaction.executeAll, Transaction.execute,
    TopListTable.insertCount, Statement.skip, TopListTable.deleteAll, started, ended] at kept

end SmartDnsPlusUi
