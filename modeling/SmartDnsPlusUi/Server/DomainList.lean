import SmartDnsPlusUi.Arithmetic.Wrapping
import SmartDnsPlusUi.Server.Database
import SmartDnsPlusUi.Table.Paging
import SmartDnsPlusUi.Text.Bytes

/-!
# The query list

`get_domain_list` reads a page of the query log.  `get_domain_sql_where` turns
the filter, the order and the cursor into conditions and an order; the first
page may be ordered by time, a page with a cursor is ordered by id.
-/

namespace SmartDnsPlusUi

open Arithmetic Table Text

structure DomainListGetParamCursor where
  id : Option Nat
  totalCount : Nat
  direction : Text
  deriving DecidableEq

structure DomainListGetParam where
  id : Option Nat := none
  order : Option Text := none
  pageNum : Nat := 1
  pageSize : Nat := 10
  domain : Option Text := none
  domainFilterMode : Option Text := none
  domainType : Option Nat := none
  client : Option Text := none
  domainGroup : Option Text := none
  replyCode : Option Nat := none
  timestampBefore : Option Nat := none
  timestampAfter : Option Nat := none
  isBlocked : Option Bool := none
  isCached : Option Bool := none
  cursor : Option DomainListGetParamCursor := none
  deriving DecidableEq

structure QueryDomainListResult where
  domainList : List DomainData
  totalCount : Nat
  stepByCursor : Bool
  deriving DecidableEq

/-- A term of the `WHERE` clause. -/
inductive DomainCondition where
  | idIs (id : Nat)
  | idLess (id : Nat)
  | idGreater (id : Nat)
  | domainLike (pattern : Text)
  | domainIs (domain : Text)
  | domainNotEmpty
  | domainTypeIs (domainType : Nat)
  | clientIs (client : Text)
  | domainGroupIs (domainGroup : Text)
  | replyCodeIs (replyCode : Nat)
  | timestampAtMost (timestamp : Nat)
  | timestampAtLeast (timestamp : Nat)
  | isBlockedIs (isBlocked : Bool)
  | isCachedIs (isCached : Bool)
  deriving DecidableEq

/-- What is read of a C string. -/
def untilNul (t : Text) : Text := t.takeWhile (· ≠ '\x00')

/-- `%` stands for any text, `_` for any character, and ASCII letters match in either
case. -/
def likeLoop : Text → Text → Bool
  | [], text => text.isEmpty
  | c :: pattern, text =>
      if c = '%' then text.tails.any (likeLoop pattern)
      else match text with
        | [] => false
        | d :: rest => (c = '_' || c.toLower = d.toLower) && likeLoop pattern rest

/-- The bytes that SQLite allows in a pattern. -/
def likePatternLimit : Nat := 50000

/-- The `LIKE` operator of SQLite.  With a pattern over the limit the query fails at the
first row that is compared, and the rows of a failed query are none. -/
def like (pattern text : Text) : Bool :=
  byteLength pattern ≤ likePatternLimit && likeLoop (untilNul pattern) (untilNul text)

def DomainCondition.holds (d : DomainData) : DomainCondition → Bool
  | .idIs id => d.id = id
  | .idLess id => d.id < id
  | .idGreater id => id < d.id
  | .domainLike pattern => like pattern d.domain
  | .domainIs domain => d.domain = domain
  | .domainNotEmpty => d.domain ≠ []
  | .domainTypeIs domainType => d.domainType = domainType
  | .clientIs client => d.client = client
  | .domainGroupIs domainGroup => d.domainGroup = domainGroup
  | .replyCodeIs replyCode => d.replyCode = replyCode
  | .timestampAtMost timestamp => d.timestamp ≤ timestamp
  | .timestampAtLeast timestamp => timestamp ≤ d.timestamp
  | .isBlockedIs isBlocked => d.isBlocked = isBlocked
  | .isCachedIs isCached => d.isCached = isCached

/-- The `ORDER BY` clause: the id and the timestamp, in one of two orders and
both in the same direction. -/
structure DomainOrder where
  descending : Bool
  timestampFirst : Bool
  deriving DecidableEq

/-- Rows in the order of the clause, or equal in both columns. -/
def DomainOrder.le (order : DomainOrder) (a b : DomainData) : Bool :=
  let first := if order.descending then b else a
  let second := if order.descending then a else b
  if order.timestampFirst then
    first.timestamp < second.timestamp ||
      (first.timestamp = second.timestamp && first.id ≤ second.id)
  else
    first.id < second.id || (first.id = second.id && first.timestamp ≤ second.timestamp)

def DomainOrder.sort (order : DomainOrder) (rows : List DomainData) : List DomainData :=
  rows.insertionSort fun a b => order.le a b = true

/-- The parameter `order`: whether it reverses the direction (`is_cursor_prev`). -/
def orderParam : Option Text → Except Text Bool
  | none => .ok false
  | some v =>
      if eqIgnoreAsciiCase v "asc" then .ok true
      else if eqIgnoreAsciiCase v "desc" then .ok false
      else .error "order param error"

/-- The direction of the cursor: whether the order stays descending. -/
def cursorDirection : Option DomainListGetParamCursor → Except Text Bool
  | none => .ok true
  | some v =>
      if eqIgnoreAsciiCase v.direction "prev" then .ok false
      else if eqIgnoreAsciiCase v.direction "next" then .ok true
      else .error "cursor direction param error"

def domainFilter : Option Text → Option Text → Except Text (List DomainCondition)
  | none, _ => .ok []
  | some v, none => .ok [.domainIs v]
  | some v, some m =>
      if eqIgnoreAsciiCase m "endswith" then .ok [.domainLike (v ++ ['%'])]
      else if eqIgnoreAsciiCase m "startswith" then .ok [.domainLike ('%' :: v)]
      else if eqIgnoreAsciiCase m "contains" then .ok [.domainLike ('%' :: v ++ ['%'])]
      else if eqIgnoreAsciiCase m "equals" then .ok [.domainIs v]
      else if eqIgnoreAsciiCase m "notempty" then .ok [.domainNotEmpty]
      else .error "domain_filter_mode param error"

/-- The bound `timestamp_before`, replaced by one on the id if the cursor is used. -/
def timestampBeforeFilter (useCursor : Bool) : Option Nat → Option Nat → List DomainCondition
  | none, _ => []
  | some v, none => [.timestampAtMost v]
  | some v, some id => if useCursor then [.idLess id] else [.timestampAtMost v]

/-- The bound `timestamp_after`, replaced by one on the id if the cursor is used. -/
def timestampAfterFilter (useCursor : Bool) : Option Nat → Option Nat → List DomainCondition
  | none, _ => []
  | some v, none => [.timestampAtLeast v]
  | some v, some id => if useCursor then [.idGreater id] else [.timestampAtLeast v]

/-- The bound of the cursor, unless it replaced a bound on the time. -/
def cursorFilter (cursorWithTimestamp isCursorPrev isDescOrder : Bool) :
    Option Nat → List DomainCondition
  | none => []
  | some id =>
      if cursorWithTimestamp then []
      else if isCursorPrev then
        if isDescOrder then [.idGreater id] else [.idLess id]
      else
        if isDescOrder then [.idLess id] else [.idGreater id]

/-- The conditions of the `WHERE` clause and the `ORDER BY` clause. -/
def getDomainSqlWhere :
    Option DomainListGetParam → Except Text (List DomainCondition × Option DomainOrder)
  | none => .ok ([], none)
  | some param => do
      let isCursorPrev ← orderParam param.order
      let isDescOrder ← cursorDirection param.cursor
      let domain ← domainFilter param.domain param.domainFilterMode
      let cursorId := param.cursor.bind (·.id)
      let useBefore := isDescOrder || isCursorPrev
      let useAfter := !isDescOrder || isCursorPrev
      let cursorWithTimestamp := cursorId.isSome &&
        (param.timestampBefore.isSome && useBefore || param.timestampAfter.isSome && useAfter)
      let orderTimestampFirst := param.id.isNone &&
        !(param.domain.isSome && param.domainFilterMode.isNone) && param.domainType.isNone &&
        param.client.isNone && param.domainGroup.isNone && param.replyCode.isNone &&
        cursorId.isNone && param.isBlocked.isNone && param.isCached.isNone
      .ok (param.id.toList.map .idIs ++ domain ++ param.domainType.toList.map .domainTypeIs ++
          param.client.toList.map .clientIs ++ param.domainGroup.toList.map .domainGroupIs ++
          param.replyCode.toList.map .replyCodeIs ++
          timestampBeforeFilter useBefore param.timestampBefore cursorId ++
          timestampAfterFilter useAfter param.timestampAfter cursorId ++
          cursorFilter cursorWithTimestamp isCursorPrev isDescOrder cursorId ++
          param.isBlocked.toList.map .isBlockedIs ++ param.isCached.toList.map .isCachedIs,
        some {
          descending := if isCursorPrev then !isDescOrder else isDescOrder
          timestampFirst := orderTimestampFirst })

/-- The rows that a `SELECT` with these clauses returns. -/
def selectDomain (clauses : List DomainCondition × Option DomainOrder)
    (rows : List DomainData) : List DomainData :=
  let found := rows.filter fun d => clauses.1.all (·.holds d)
  match clauses.2 with
  | none => found
  | some order => order.sort found

/-- `LIMIT` and `OFFSET`; a value that no signed integer holds is an error, and
the rows of a failed query are none. -/
def limitRows (limit offset : Nat) (rows : List DomainData) : List DomainData :=
  if limit < 2 ^ 63 ∧ offset < 2 ^ 63 then (rows.drop offset).take limit else []

def getDomainListCount (database : Database) (param : Option DomainListGetParam) : Nat :=
  match getDomainSqlWhere param with
  | .ok clauses => (selectDomain clauses database.domain).length
  | .error _ => database.domain.length

/-- A row that does not decode is left out of the answer; the rows here are values of the
program's own types, and those decode. -/
def getDomainList (database : Database) (param : Option DomainListGetParam) :
    Except Text QueryDomainListResult := do
  let clauses ← getDomainSqlWhere param
  let found := selectDomain clauses database.domain
  match param with
  | none => .ok { domainList := found, totalCount := 0, stepByCursor := false }
  | some p =>
      let rows := match p.cursor.bind (·.id) with
        | some _ => limitRows p.pageSize 0 found
        | none =>
            limitRows p.pageSize (wrappingMul 64 (wrappingSub 64 p.pageNum 1) p.pageSize) found
      match p.cursor with
      | some cursor =>
          .ok {
            domainList :=
              if eqIgnoreAsciiCase cursor.direction "prev" then rows.reverse else rows
            totalCount := cursor.totalCount
            stepByCursor := true }
      | none =>
          .ok {
            domainList := rows
            totalCount := getDomainListCount database param
            stepByCursor := false }

/-! ### Sorted rows -/

theorem DomainOrder.le_total (order : DomainOrder) (a b : DomainData) :
    order.le a b = true ∨ order.le b a = true := by
  rcases order with ⟨descending, timestampFirst⟩
  cases descending <;> cases timestampFirst <;> simp [DomainOrder.le] <;> omega

theorem DomainOrder.le_trans {order : DomainOrder} {a b c : DomainData}
    (first : order.le a b = true) (second : order.le b c = true) : order.le a c = true := by
  rcases order with ⟨descending, timestampFirst⟩
  cases descending <;> cases timestampFirst <;> simp [DomainOrder.le] at first second ⊢ <;> omega

theorem DomainOrder.id_eq_of_le {order : DomainOrder} {a b : DomainData}
    (first : order.le a b = true) (second : order.le b a = true) : a.id = b.id := by
  rcases order with ⟨descending, timestampFirst⟩
  cases descending <;> cases timestampFirst <;> simp [DomainOrder.le] at first second <;> omega

theorem DomainOrder.sort_perm (order : DomainOrder) (rows : List DomainData) :
    (order.sort rows).Perm rows :=
  List.perm_insertionSort _ rows

theorem DomainOrder.pairwise_sort (order : DomainOrder) (rows : List DomainData) :
    (order.sort rows).Pairwise fun a b => order.le a b = true := by
  have total : Std.Total fun a b => order.le a b = true := ⟨order.le_total⟩
  have trans : IsTrans DomainData fun a b => order.le a b = true := ⟨fun _ _ _ => le_trans⟩
  exact List.pairwise_insertionSort _ rows

/-- Rows with different ids can be sorted in one way only. -/
theorem DomainOrder.sort_unique {order : DomainOrder} {rows others : List DomainData}
    (unique : (rows.map (·.id)).Nodup) (same : rows.Perm others)
    (ordered : rows.Pairwise fun a b => order.le a b = true)
    (ordered_other : others.Pairwise fun a b => order.le a b = true) : rows = others := by
  refine List.Perm.eq_of_pairwise (fun a b listed listed_other first second => ?_) ordered
    ordered_other same
  exact List.inj_on_of_nodup_map unique listed (same.mem_iff.mpr listed_other)
    (id_eq_of_le first second)

end SmartDnsPlusUi
