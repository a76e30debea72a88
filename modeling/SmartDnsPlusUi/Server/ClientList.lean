import SmartDnsPlusUi.Server.CursorStep

/-!
# The client list

`get_client_list` reads a page of the clients.  Its conditions are those of the query list,
but the order that is asked for does not reach the `ORDER BY` clause: only going back with a
cursor turns it.
-/

namespace SmartDnsPlusUi

open Arithmetic Table

structure ClientListGetParamCursor where
  id : Option Nat
  totalCount : Nat
  direction : Text
  deriving DecidableEq

structure ClientListGetParam where
  id : Option Nat := none
  order : Option Text := none
  pageNum : Nat := 1
  pageSize : Nat := 10
  clientIp : Option Text := none
  mac : Option Text := none
  hostname : Option Text := none
  timestampBefore : Option Nat := none
  timestampAfter : Option Nat := none
  cursor : Option ClientListGetParamCursor := none
  deriving DecidableEq

structure QueryClientListResult where
  clientList : List ClientData
  totalCount : Nat
  stepByCursor : Bool
  deriving DecidableEq

/-- A term of the `WHERE` clause. -/
inductive ClientCondition where
  | idIs (id : Nat)
  | idLess (id : Nat)
  | idGreater (id : Nat)
  | clientIpIs (clientIp : Text)
  | macIs (mac : Text)
  | hostnameIs (hostname : Text)
  | timestampAtMost (timestamp : Nat)
  | timestampAtLeast (timestamp : Nat)
  deriving DecidableEq

def ClientCondition.holds (client : ClientData) : ClientCondition → Bool
  | .idIs id => client.id = id
  | .idLess id => client.id < id
  | .idGreater id => id < client.id
  | .clientIpIs clientIp => client.clientIp = clientIp
  | .macIs mac => client.mac = mac
  | .hostnameIs hostname => client.hostname = hostname
  | .timestampAtMost timestamp => client.lastQueryTimestamp ≤ timestamp
  | .timestampAtLeast timestamp => timestamp ≤ client.lastQueryTimestamp

/-- The `ORDER BY` clause: the id, then the time of the last query, both in one direction. -/
structure ClientOrder where
  descending : Bool
  deriving DecidableEq

def ClientOrder.le (order : ClientOrder) (a b : ClientData) : Bool :=
  let first := if order.descending then b else a
  let second := if order.descending then a else b
  first.id < second.id ||
    (first.id = second.id && first.lastQueryTimestamp ≤ second.lastQueryTimestamp)

def ClientOrder.sort (order : ClientOrder) (rows : List ClientData) : List ClientData :=
  rows.insertionSort fun a b => order.le a b = true

/-- The direction of the cursor: whether the order stays descending. -/
def clientCursorDirection : Option ClientListGetParamCursor → Except Text Bool
  | none => .ok true
  | some v =>
      if eqIgnoreAsciiCase v.direction "prev" then .ok false
      else if eqIgnoreAsciiCase v.direction "next" then .ok true
      else .error "cursor direction param error"

/-- The bound `timestamp_before`, replaced by one on the id if the cursor is used. -/
def clientBeforeFilter (useCursor : Bool) : Option Nat → Option Nat → List ClientCondition
  | none, _ => []
  | some v, none => [.timestampAtMost v]
  | some v, some id => if useCursor then [.idLess id] else [.timestampAtMost v]

/-- The bound `timestamp_after`, replaced by one on the id if the cursor is used. -/
def clientAfterFilter (useCursor : Bool) : Option Nat → Option Nat → List ClientCondition
  | none, _ => []
  | some v, none => [.timestampAtLeast v]
  | some v, some id => if useCursor then [.idGreater id] else [.timestampAtLeast v]

/-- The bound of the cursor, unless it replaced a bound on the time. -/
def clientCursorFilter (cursorWithTimestamp isCursorPrev isDescOrder : Bool) :
    Option Nat → List ClientCondition
  | none => []
  | some id =>
      if cursorWithTimestamp then []
      else if isCursorPrev then
        if isDescOrder then [.idGreater id] else [.idLess id]
      else
        if isDescOrder then [.idLess id] else [.idGreater id]

/-- The conditions of the `WHERE` clause and the `ORDER BY` clause. -/
def getClientSqlWhere :
    Option ClientListGetParam → Except Text (List ClientCondition × Option ClientOrder)
  | none => .ok ([], none)
  | some param => do
      let isCursorPrev ← orderParam param.order
      let isDescOrder ← clientCursorDirection param.cursor
      let cursorId := param.cursor.bind (·.id)
      let useBefore := isDescOrder || isCursorPrev
      let useAfter := !isDescOrder || isCursorPrev
      let cursorWithTimestamp := cursorId.isSome &&
        (param.timestampBefore.isSome && useBefore || param.timestampAfter.isSome && useAfter)
      .ok (param.id.toList.map .idIs ++ param.clientIp.toList.map .clientIpIs ++
          param.mac.toList.map .macIs ++ param.hostname.toList.map .hostnameIs ++
          clientBeforeFilter useBefore param.timestampBefore cursorId ++
          clientAfterFilter useAfter param.timestampAfter cursorId ++
          clientCursorFilter cursorWithTimestamp isCursorPrev isDescOrder cursorId,
        some { descending := isDescOrder })

/-- The rows that a `SELECT` with these clauses returns. -/
def selectClient (clauses : List ClientCondition × Option ClientOrder)
    (rows : List ClientData) : List ClientData :=
  let found := rows.filter fun client => clauses.1.all (·.holds client)
  match clauses.2 with
  | none => found
  | some order => order.sort found

/-- `LIMIT` and `OFFSET`, as for the query list. -/
def limitClients (limit offset : Nat) (rows : List ClientData) : List ClientData :=
  if limit < 2 ^ 63 ∧ offset < 2 ^ 63 then (rows.drop offset).take limit else []

def getClientListCount (database : Database) (param : Option ClientListGetParam) : Nat :=
  match getClientSqlWhere param with
  | .ok clauses => (selectClient clauses database.client).length
  | .error _ => database.client.length

/-- `(page_num - 1) * page_size` of unsigned integers. -/
def ClientListGetParam.offset (param : ClientListGetParam) : Nat :=
  wrappingMul 64 (wrappingSub 64 param.pageNum 1) param.pageSize

/-- A row that does not decode is left out of the answer; the rows here are values of the
program's own types, and those decode. -/
def getClientList (database : Database) (param : Option ClientListGetParam) :
    Except Text QueryClientListResult := do
  let clauses ← getClientSqlWhere param
  let found := selectClient clauses database.client
  match param with
  | none => .ok { clientList := found, totalCount := 0, stepByCursor := false }
  | some p =>
      let rows := match p.cursor.bind (·.id) with
        | some _ => limitClients p.pageSize 0 found
        | none => limitClients p.pageSize p.offset found
      match p.cursor with
      | some cursor =>
          .ok {
            clientList :=
              if eqIgnoreAsciiCase cursor.direction "prev" then rows.reverse else rows
            totalCount := cursor.totalCount
            stepByCursor := true }
      | none =>
          .ok {
            clientList := rows
            totalCount := getClientListCount database param
            stepByCursor := false }

/-! ### The rows in order -/

theorem ClientOrder.le_total (order : ClientOrder) (a b : ClientData) :
    order.le a b = true ∨ order.le b a = true := by
  rcases order with ⟨descending⟩
  cases descending <;> simp [ClientOrder.le] <;> omega

theorem ClientOrder.le_trans {order : ClientOrder} {a b c : ClientData}
    (first : order.le a b = true) (second : order.le b c = true) : order.le a c = true := by
  rcases order with ⟨descending⟩
  cases descending <;> simp [ClientOrder.le] at first second ⊢ <;> omega

theorem ClientOrder.follows_of_le {order : ClientOrder} {a b : ClientData}
    (ordered : order.le a b = true) (different : a.id ≠ b.id) :
    follows (·.id) (!order.descending) a b = true := by
  rcases order with ⟨descending⟩
  cases descending <;> simp [ClientOrder.le, follows] at ordered ⊢ <;> omega

/-- The rows in id order. -/
theorem ClientOrder.isListing (order : ClientOrder) {rows : List ClientData}
    (unique : (rows.map (·.id)).Nodup) :
    IsListing (·.id) rows (!order.descending) (order.sort rows) := by
  have sorted : (order.sort rows).Perm rows := List.perm_insertionSort _ rows
  refine ⟨sorted, ?_⟩
  have total : Std.Total fun a b => order.le a b = true := ⟨order.le_total⟩
  have trans : IsTrans ClientData fun a b => order.le a b = true := ⟨fun _ _ _ => le_trans⟩
  have different := (sorted.map (·.id)).nodup_iff.mpr unique
  rw [List.Nodup, List.pairwise_map] at different
  have ordered := List.pairwise_insertionSort (fun a b => order.le a b = true) rows
  exact (ordered.and different).imp fun both => follows_of_le both.1 both.2

theorem ClientOrder.sort_filter (order : ClientOrder) {rows : List ClientData}
    (unique : (rows.map (·.id)).Nodup) (p : ClientData → Bool) :
    order.sort (rows.filter p) = (order.sort rows).filter p := by
  have uniqueFound : ((rows.filter p).map (·.id)).Nodup :=
    unique.sublist (List.filter_sublist.map _)
  exact (order.isListing uniqueFound).unique ((order.isListing unique).filter p)

/-! ### The page that is asked for -/

/-- The conditions that neither the cursor nor a bound on the time is part of. -/
def ClientListGetParam.fixedConditions (param : ClientListGetParam) : List ClientCondition :=
  param.id.toList.map .idIs ++ param.clientIp.toList.map .clientIpIs ++
    param.mac.toList.map .macIs ++ param.hostname.toList.map .hostnameIs

/-- All the filters. -/
def ClientListGetParam.matches (param : ClientListGetParam) (client : ClientData) : Bool :=
  param.fixedConditions.all (·.holds client) &&
    withinTimes param.timestampBefore param.timestampAfter client.lastQueryTimestamp

/-- What a row has to meet to be shown behind a cursor. -/
def ClientListGetParam.stepShows (param : ClientListGetParam) (ascending forward : Bool)
    (cursor : Nat) (client : ClientData) : Bool :=
  param.fixedConditions.all (·.holds client) &&
    keptTimes ascending forward param.timestampBefore param.timestampAfter
      client.lastQueryTimestamp &&
    shownSide ascending forward param.timestampBefore param.timestampAfter cursor client.id

/-- What is asked for behind a cursor. -/
def ClientListGetParam.stepWanted (param : ClientListGetParam) (ascending forward : Bool)
    (cursor : Nat) (client : ClientData) : Bool :=
  param.matches client && beyondCursor ascending forward cursor client.id

/-- A request that is not refused, without a cursor or with the cursor and its direction. -/
structure IsClientRequest (param : ClientListGetParam) (ascending : Bool)
    (place : Option (Nat × Bool)) : Prop where
  order : orderParam param.order = .ok ascending
  pageSize : 1 ≤ param.pageSize
  cursor : match place with
    | none => param.cursor = none
    | some (id, forward) =>
        param.cursor.bind (·.id) = some id ∧ clientCursorDirection param.cursor = .ok forward

/-- The clients in id order. -/
def clientListing (database : Database) (rising : Bool) : List ClientData :=
  ClientOrder.sort { descending := !rising } database.client

/-- The page that is asked for. -/
def clientPage (database : Database) (param : ClientListGetParam) (ascending : Bool) :
    Option (Nat × Bool) → List ClientData
  | none =>
      (((clientListing database ascending).filter param.matches).drop
        ((param.pageNum - 1) * param.pageSize)).take param.pageSize
  | some (cursor, forward) =>
      nearest forward param.pageSize ((clientListing database ascending).filter
        (param.stepWanted ascending forward cursor))

/-! ### When the page is the one that is asked for -/

/-- Without a cursor: the pages of the descending listing are those of the ascending one
behind their ends, and in the middle if they have one row. -/
def ListFits (database : Database) (param : ClientListGetParam) (ascending : Bool) : Prop :=
  let count := (database.client.filter param.matches).length
  let place := (param.pageNum - 1) * param.pageSize
  if param.pageSize < 2 ^ 63 ∧ param.offset < 2 ^ 63 then
    if ascending then
      count ≤ param.offset ∧ count ≤ place ∨
        param.offset + place + 1 = count ∧ (param.pageSize = 1 ∨ count = 1)
    else param.offset = place ∨ count ≤ param.offset ∧ count ≤ place
  else count ≤ place

/-- With a cursor.  Ascending, the page has the rows that are furthest from the cursor: these
are the nearest only where there is one row, or one of each kind at its end. -/
def ClientStepFits (database : Database) (param : ClientListGetParam) (ascending forward : Bool)
    (cursor : Nat) : Prop :=
  if param.pageSize < 2 ^ 63 then
    if ascending then
      let shown := (clientListing database forward).filter (param.stepShows true forward cursor)
      let wanted := (clientListing database forward).filter (param.stepWanted true forward cursor)
      shown = [] ∧ wanted = [] ∨
        ∃ client, shown.getLast? = some client ∧ wanted.head? = some client ∧
          (param.pageSize = 1 ∨ shown = [client] ∧ wanted = [client])
    else
      ∀ client ∈ database.client,
        param.stepShows false forward cursor client ≠ param.stepWanted false forward cursor client →
          param.pageSize ≤ (database.client.filter fun other =>
            param.stepShows false forward cursor other &&
              follows (·.id) (false == forward) other client).length
  else ∀ client ∈ database.client, param.stepWanted ascending forward cursor client = false

def ClientPageFits (database : Database) (param : ClientListGetParam) (ascending : Bool) :
    Option (Nat × Bool) → Prop
  | none => ListFits database param ascending
  | some (cursor, forward) => ClientStepFits database param ascending forward cursor

variable {param : ClientListGetParam} {ascending forward : Bool} {cursor : Nat}
  {database : Database}

theorem getClientSqlWhere_list (request : IsClientRequest param ascending none) :
    getClientSqlWhere (some param) =
      .ok (param.fixedConditions ++ clientBeforeFilter true param.timestampBefore none ++
          clientAfterFilter ascending param.timestampAfter none,
        some { descending := true }) := by
  have direction : clientCursorDirection none = .ok true := rfl
  have cursorNone : param.cursor = none := request.cursor
  simp only [getClientSqlWhere, request.order, cursorNone, direction, bind, Except.bind,
    Option.bind_none, Bool.true_or, Bool.not_true, Bool.false_or, clientCursorFilter,
    List.append_nil]
  rfl

theorem getClientSqlWhere_step
    (request : IsClientRequest param ascending (some (cursor, forward))) :
    getClientSqlWhere (some param) =
      .ok (param.fixedConditions ++
          clientBeforeFilter (forward || ascending) param.timestampBefore (some cursor) ++
          clientAfterFilter (!forward || ascending) param.timestampAfter (some cursor) ++
          clientCursorFilter (param.timestampBefore.isSome && (forward || ascending) ||
              param.timestampAfter.isSome && (!forward || ascending))
            ascending forward (some cursor),
        some { descending := forward }) := by
  obtain ⟨cursorId, direction⟩ := request.cursor
  simp only [getClientSqlWhere, request.order, direction, cursorId, bind, Except.bind,
    Option.isSome_some, Bool.true_and]
  rfl

theorem matches_eq (client : ClientData) :
    (param.fixedConditions ++ clientBeforeFilter true param.timestampBefore none ++
      clientAfterFilter ascending param.timestampAfter none).all (·.holds client) =
      param.matches client := by
  rw [List.all_append, List.all_append]
  unfold ClientListGetParam.matches withinTimes
  cases param.timestampBefore <;> cases param.timestampAfter <;>
    simp [clientBeforeFilter, clientAfterFilter, ClientCondition.holds, Bool.and_assoc]

theorem clientStepShows_eq (client : ClientData) :
    (param.fixedConditions ++
      clientBeforeFilter (forward || ascending) param.timestampBefore (some cursor) ++
      clientAfterFilter (!forward || ascending) param.timestampAfter (some cursor) ++
      clientCursorFilter (param.timestampBefore.isSome && (forward || ascending) ||
          param.timestampAfter.isSome && (!forward || ascending))
        ascending forward (some cursor)).all (·.holds client) =
      param.stepShows ascending forward cursor client := by
  rw [List.all_append, List.all_append, List.all_append]
  unfold ClientListGetParam.stepShows keptTimes shownSide beyondCursor
  generalize param.fixedConditions.all (·.holds client) = fixed
  cases ascending <;> cases forward <;> cases param.timestampBefore <;>
    cases param.timestampAfter <;>
    simp [clientBeforeFilter, clientAfterFilter, clientCursorFilter, ClientCondition.holds,
      Bool.and_assoc]
  exact congrArg _ (Bool.and_comm _ _)

theorem isListing_clientListing (unique : (database.client.map (·.id)).Nodup) (rising : Bool) :
    IsListing (·.id) database.client rising (clientListing database rising) := by
  have listing := ClientOrder.isListing { descending := !rising } unique
  rwa [Bool.not_not] at listing

theorem clientListing_not (unique : (database.client.map (·.id)).Nodup) (rising : Bool) :
    clientListing database (!rising) = (clientListing database rising).reverse :=
  (isListing_clientListing unique (!rising)).unique (isListing_clientListing unique rising).reverse

/-- Without a cursor the listing is descending, whatever the order that is asked for. -/
theorem getClientList_list (unique : (database.client.map (·.id)).Nodup)
    (request : IsClientRequest param ascending none) :
    ∃ result, getClientList database (some param) = .ok result ∧
      result.clientList = limitClients param.pageSize param.offset
        ((clientListing database false).filter param.matches) := by
  have cursorNone : param.cursor = none := request.cursor
  unfold getClientList
  simp only [getClientSqlWhere_list request, bind, Except.bind, cursorNone, Option.bind_none]
  refine ⟨_, rfl, ?_⟩
  have found : (database.client.filter fun client =>
      (param.fixedConditions ++ clientBeforeFilter true param.timestampBefore none ++
        clientAfterFilter ascending param.timestampAfter none).all (·.holds client)) =
      database.client.filter param.matches := List.filter_congr fun client _ => matches_eq client
  simp only [selectClient, found, ClientOrder.sort_filter _ unique]
  rfl

/-- With a cursor the listing is descending on the way forward and ascending on the way back. -/
theorem getClientList_step (unique : (database.client.map (·.id)).Nodup)
    (request : IsClientRequest param ascending (some (cursor, forward))) :
    ∃ result, getClientList database (some param) = .ok result ∧
      result.clientList =
        let rows := limitClients param.pageSize 0
          ((clientListing database (!forward)).filter (param.stepShows ascending forward cursor))
        if forward then rows else rows.reverse := by
  obtain ⟨cursorId, direction⟩ := request.cursor
  obtain ⟨cursorParam, found⟩ : ∃ cursorParam, param.cursor = some cursorParam := by
    cases found : param.cursor with
    | none => exact absurd (found ▸ cursorId) nofun
    | some cursorParam => exact ⟨cursorParam, rfl⟩
  have backwards : eqIgnoreAsciiCase cursorParam.direction "prev" = !forward := by
    rw [found] at direction
    simp only [clientCursorDirection] at direction
    split_ifs at direction with prev next
    · cases direction
      exact prev
    · cases direction
      exact Bool.eq_false_iff.mpr prev
  rw [found, Option.bind_some] at cursorId
  unfold getClientList
  simp only [getClientSqlWhere_step request, bind, Except.bind, found, Option.bind_some, cursorId,
    backwards]
  refine ⟨_, rfl, ?_⟩
  have shown : (database.client.filter fun client => (param.fixedConditions ++
      clientBeforeFilter (forward || ascending) param.timestampBefore (some cursor) ++
      clientAfterFilter (!forward || ascending) param.timestampAfter (some cursor) ++
      clientCursorFilter (param.timestampBefore.isSome && (forward || ascending) ||
          param.timestampAfter.isSome && (!forward || ascending))
        ascending forward (some cursor)).all (·.holds client)) =
      database.client.filter (param.stepShows ascending forward cursor) :=
    List.filter_congr fun client _ => clientStepShows_eq client
  simp only [selectClient, shown, ClientOrder.sort_filter _ unique]
  cases forward <;> rfl

theorem list_iff (unique : (database.client.map (·.id)).Nodup)
    (request : IsClientRequest param ascending none) :
    limitClients param.pageSize param.offset
        ((clientListing database false).filter param.matches) =
        clientPage database param ascending none ↔
      ListFits database param ascending := by
  have listing := (isListing_clientListing unique ascending).filter param.matches
  have count := listing.perm.length_eq
  unfold limitClients ListFits clientPage
  rw [← count]
  split_ifs with small up
  · subst up
    rw [show false = !true from rfl, clientListing_not unique, List.filter_reverse]
    exact take_drop_reverse_eq_iff (follows_irreflexive _) (follows_asymmetric _) listing.ordered
      request.pageSize _ _
  · rw [Bool.not_eq_true] at up
    subst up
    exact take_drop_eq_iff (follows_irreflexive _) listing.ordered request.pageSize _ _
  · rw [eq_comm, List.take_eq_nil_iff, List.drop_eq_nil_iff]
    have positive := request.pageSize
    constructor
    · rintro (zero | past)
      · omega
      · exact past
    · exact Or.inr

theorem step_iff (unique : (database.client.map (·.id)).Nodup)
    (request : IsClientRequest param ascending (some (cursor, forward))) {rows : List ClientData}
    (read : rows = limitClients param.pageSize 0
      ((clientListing database (!forward)).filter (param.stepShows ascending forward cursor))) :
    (if forward then rows else rows.reverse) =
        clientPage database param ascending (some (cursor, forward)) ↔
      ClientStepFits database param ascending forward cursor := by
  subst read
  have listing := isListing_clientListing unique ascending
  have away := isListing_clientListing unique forward
  unfold limitClients ClientStepFits clientPage
  by_cases small : param.pageSize < 2 ^ 63
  · simp only [small, if_true, List.drop_zero, true_and, show 0 < 2 ^ 63 from by decide]
    cases ascending with
    | false =>
        have opposite : (false == forward) = !forward := by cases forward <;> rfl
        rw [if_neg Bool.false_ne_true, ← opposite]
        exact listing.nearest_iff (isListing_clientListing unique _) param.pageSize
    | true =>
        rw [if_pos rfl]
        have shown := (away.filter (param.stepShows true forward cursor)).ordered
        have wanted := (away.filter (param.stepWanted true forward cursor)).ordered
        have ends := take_reverse_eq_take_iff (follows_asymmetric _) shown wanted request.pageSize
        rw [← ends, clientListing_not unique, List.filter_reverse]
        cases forward with
        | true => simp [nearest]
        | false =>
            have back : clientListing database true = (clientListing database false).reverse :=
              clientListing_not unique false
            simp [nearest, back, List.rtake_eq_reverse_take_reverse, List.filter_reverse]
  · simp only [small, if_false, false_and, List.reverse_nil, ite_self]
    rw [eq_comm, nearest_eq_nil_iff request.pageSize, List.filter_eq_nil_iff]
    simp only [Bool.not_eq_true, listing.perm.mem_iff]

/-- A page of the clients is the page that is asked for exactly under these conditions. -/
theorem getClientList_iff {place : Option (Nat × Bool)}
    (unique : (database.client.map (·.id)).Nodup)
    (request : IsClientRequest param ascending place) :
    (∃ result, getClientList database (some param) = .ok result ∧
        result.clientList = clientPage database param ascending place) ↔
      ClientPageFits database param ascending place := by
  cases place with
  | none =>
      obtain ⟨result, found, shown⟩ := getClientList_list unique request
      rw [found]
      simp only [Except.ok.injEq, exists_eq_left', shown]
      exact list_iff unique request
  | some place =>
      obtain ⟨cursor, forward⟩ := place
      obtain ⟨result, found, shown⟩ := getClientList_step unique request
      rw [found]
      simp only [Except.ok.injEq, exists_eq_left', shown]
      exact step_iff unique request rfl

def knownClient (id lastQueryTimestamp : Nat) : ClientData where
  id
  hostname := "phone"
  clientIp := "10.0.0.2"
  mac := "aa"
  lastQueryTimestamp

theorem getClientList_example :
    ∃ result,
      getClientList { client := [knownClient 1 10, knownClient 2 20] } (some {}) = .ok result ∧
        result.clientList =
          clientPage { client := [knownClient 1 10, knownClient 2 20] } {} false none :=
  (getClientList_iff (by decide) ⟨rfl, by decide, rfl⟩).mpr (by
    unfold ClientPageFits ListFits
    decide)

/-- In ascending order the clients come in descending order. -/
theorem not_getClientList :
    ¬ ∀ (database : Database) (param : ClientListGetParam) (ascending : Bool)
        (place : Option (Nat × Bool)),
      (database.client.map (·.id)).Nodup → IsClientRequest param ascending place →
      ∃ result, getClientList database (some param) = .ok result ∧
        result.clientList = clientPage database param ascending place := by
  intro shows
  obtain ⟨result, found, shown⟩ := shows { client := [knownClient 1 10, knownClient 2 20] }
    { order := some "asc" } true none (by decide) ⟨rfl, by decide, rfl⟩
  have descending : (getClientList { client := [knownClient 1 10, knownClient 2 20] }
      (some { order := some "asc" })).toOption.map (·.clientList) =
        some [knownClient 2 20, knownClient 1 10] := by decide
  rw [found] at descending
  have rows : result.clientList = [knownClient 2 20, knownClient 1 10] :=
    Option.some.inj descending
  rw [rows] at shown
  revert shown
  decide

end SmartDnsPlusUi
