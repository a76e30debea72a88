import SmartDnsPlusUi.Server.ClientList
import SmartDnsPlusUi.Table.ChangingWalk

/-!
# Walks while the tables change

Between two pages of a walk other queries are logged, old ones are deleted and clients are
updated.  The bound of the cursor is a bound on the id, so a walk of the query list or of the
clients shows no row twice and misses none that stays.
-/

namespace SmartDnsPlusUi

open Arithmetic Table

/-- No row of the table is shown twice, each one matched when its page was read, and what
matches at every page is shown. -/
structure ShowsWhatStays {Row : Type} (key : Row → Nat) (rising : Bool)
    (matched : Nat → List Row) (shown : List (List Row)) : Prop where
  ordered : shown.flatten.Pairwise fun row other => follows key rising row other = true
  from_table : ∀ moment rows, shown[moment]? = some rows → ∀ row ∈ rows, row ∈ matched moment
  stayed : ∀ id, (∀ moment, id ∈ (matched moment).map key) → id ∈ shown.flatten.map key

theorem showsWhatStays_of_receives {Row : Type} {key : Row → Nat} {rising : Bool}
    {matched listed : Nat → List Row} {shown : List (List Row)}
    (receives : Receives key rising listed 0 none shown)
    (same : ∀ moment, (listed moment).Perm (matched moment)) :
    ShowsWhatStays key rising matched shown := by
  constructor
  · exact receives.ordered
  · intro moment rows page row among
    have there := receives.was_there moment rows page row among
    rw [Nat.zero_add] at there
    exact (same moment).mem_iff.mp there
  · intro id there
    apply receives.stayed id nofun
    exact fun moment _ => ((same moment).map key).mem_iff.mpr (there moment)

/-! ### The query list -/

section

variable {param : DomainListGetParam} {ascending : Bool} {domain : List DomainCondition}

/-- The bounds on the time do not depend on the cursor. -/
def DomainListGetParam.KeepsBounds (param : DomainListGetParam) (ascending : Bool) : Prop :=
  param.timestampBefore = none ∧ (ascending = true → param.timestampAfter = none)

theorem DomainListGetParam.KeepsBounds.remains_eq (keeps : param.KeepsBounds ascending)
    (d : DomainData) : param.remains ascending domain d = param.shows domain d := by
  obtain ⟨before, after⟩ := keeps
  unfold DomainListGetParam.remains DomainListGetParam.shows
  rw [before, Option.all_none, Bool.and_true]
  cases ascending with
  | true => rw [after rfl, Option.all_none, Bool.true_or]
  | false => rw [Bool.false_or]

theorem DomainListGetParam.KeepsBounds.behind_eq (keeps : param.KeepsBounds ascending)
    (cursor d : DomainData) :
    param.behind ascending cursor d = follows (·.id) ascending cursor d := by
  unfold DomainListGetParam.behind
  rw [keeps.1, Option.isSome_none, Bool.and_false, if_neg Bool.false_ne_true]
  rfl

/-- The first page is in the order of the ids: it is asked for in this order, or the rows were
logged in the order of their times. -/
def FirstInOrder (database : Database) (param : DomainListGetParam) : Prop :=
  param.timestampFirst = false ∨ ∀ d ∈ matching database param, ∀ other ∈ matching database param,
    d.id < other.id → d.timestamp ≤ other.timestamp

theorem listing_of_firstInOrder {database : Database}
    (unique : ((matching database param).map (·.id)).Nodup)
    (ordered : FirstInOrder database param) :
    listing database param ascending = (idOrder ascending).sort (matching database param) := by
  rcases ordered with byId | logged
  · rw [listing, DomainListGetParam.firstOrder, byId]
    rfl
  · have perm := (idOrder ascending).sort_perm (matching database param)
    apply @DomainOrder.sort_unique (param.firstOrder ascending)
    · exact (((param.firstOrder ascending).sort_perm _).map _).nodup_iff.mpr unique
    · exact ((param.firstOrder ascending).sort_perm _).trans perm.symm
    · exact (param.firstOrder ascending).pairwise_sort _
    · refine (pairwise_followsById unique).imp_of_mem ?_
      intro d other among amongOther follows
      have one := logged d (perm.mem_iff.mp among) other (perm.mem_iff.mp amongOther)
      have two := logged other (perm.mem_iff.mp amongOther) d (perm.mem_iff.mp among)
      unfold DomainListGetParam.firstOrder DomainOrder.le
      unfold followsById at follows
      cases ascending <;> cases param.timestampFirst <;> simp at follows one two ⊢ <;> omega

theorem pagesBehind_domainPage {databases : Nat → Database}
    (unique : ∀ moment, ((databases moment).domain.map (·.id)).Nodup)
    (request : IsFirstRequest param ascending domain) (small : param.pageSize < 2 ^ 63)
    (keeps : param.KeepsBounds ascending) (ordered : FirstInOrder (databases 0) param) :
    PagesBehind (fun moment => domainPage (databases moment) param) (·.id) ascending param.pageSize
      fun moment => (idOrder ascending).sort (matching (databases moment) param) := by
  constructor
  · exact request.pageSize
  · exact fun moment => pairwise_followsById (unique_matching (unique moment) request)
  · intro moment cursor first
    cases cursor with
    | none =>
        obtain rfl := first rfl
        rw [domainPage_none request, if_pos small,
          listing_of_firstInOrder (unique_matching (unique 0) request) ordered]
        congr 1
        exact (List.filter_eq_self.mpr fun row _ => decide_eq_true (behind_none row.id)).symm
    | some last =>
        have rows : remaining (databases moment) param ascending domain =
            (idOrder ascending).sort (matching (databases moment) param) := by
          rw [remaining, matching_eq request]
          exact congrArg _ (List.filter_congr fun d _ => keeps.remains_eq d)
        rw [domainPage_some (unique moment) request, if_pos small, rows]
        congr 1
        refine List.filter_congr fun d _ => (keeps.behind_eq last d).trans ?_
        simp [Behind, follows]

/-- Whatever is written to the database between the pages, a walk of the query list shows rows
that match when their page is read, in the order of their ids, none of them twice, and every row
that matches throughout; in descending order it comes to an end. -/
theorem walkOver_domainPage {databases : Nat → Database}
    (unique : ∀ moment, ((databases moment).domain.map (·.id)).Nodup)
    (request : IsFirstRequest param ascending domain) (small : param.pageSize < 2 ^ 63)
    (keeps : param.KeepsBounds ascending) (ordered : FirstInOrder (databases 0) param) :
    (∀ shown, WalksOver (fun moment => domainPage (databases moment) param) 0 none shown →
        ShowsWhatStays (·.id) ascending (fun moment => matching (databases moment) param) shown) ∧
      (ascending = false →
        ∃ shown, WalksOver (fun moment => domainPage (databases moment) param) 0 none shown) := by
  have pages := pagesBehind_domainPage unique request small keeps ordered
  constructor
  · intro shown walks
    apply showsWhatStays_of_receives (pages.receives (fun _ => rfl) walks)
    exact fun moment => (idOrder ascending).sort_perm _
  · rintro rfl
    exact pages.exists_walksOver

end

/-- Behind the first page a query is deleted and another one is logged. -/
def changingLog : Nat → Database
  | 0 => { domain := [loggedQuery 1 100, loggedQuery 2 200, loggedQuery 3 300] }
  | _ + 1 => { domain := [loggedQuery 1 100, loggedQuery 3 300, loggedQuery 4 400] }

theorem walkOver_domainPage_example :
    ∃ shown, WalksOver (fun moment => domainPage (changingLog moment) { pageSize := 1 }) 0 none
      shown ∧ 1 ∈ shown.flatten.map (·.id) ∧ 3 ∈ shown.flatten.map (·.id) := by
  have unique : ∀ moment, ((changingLog moment).domain.map (·.id)).Nodup := by
    intro moment
    cases moment with
    | zero => decide
    | succ moment => exact (by decide : ([1, 3, 4] : List Nat).Nodup)
  have walk := @walkOver_domainPage { pageSize := 1 } false [] changingLog unique
    ⟨rfl, rfl, rfl, rfl, by decide⟩ (by decide) ⟨rfl, nofun⟩ (.inr (by decide))
  have stays : ∀ moment, 1 ∈ (matching (changingLog moment) { pageSize := 1 }).map (·.id) ∧
      3 ∈ (matching (changingLog moment) { pageSize := 1 }).map (·.id) := by
    intro moment
    cases moment with
    | zero => decide
    | succ moment =>
        exact (by decide : 1 ∈ (matching (changingLog 1) { pageSize := 1 }).map (·.id) ∧
          3 ∈ (matching (changingLog 1) { pageSize := 1 }).map (·.id))
  obtain ⟨shown, walks⟩ := walk.2 rfl
  have shows := walk.1 shown walks
  refine ⟨shown, walks, shows.stayed 1 ?_, shows.stayed 3 ?_⟩
  · exact fun moment => (stays moment).1
  · exact fun moment => (stays moment).2

/-! ### The clients -/

section

variable {param : ClientListGetParam}

/-- The request for the page behind a client. -/
def ClientListGetParam.next (param : ClientListGetParam) (totalCount : Nat) (last : ClientData) :
    ClientListGetParam :=
  { param with cursor := some { id := some last.id, totalCount, direction := "next" } }

def clientsOf : Except Text QueryClientListResult → List ClientData
  | .ok result => result.clientList
  | .error _ => []

/-- The first page, or the page behind a client. -/
def nextClients (database : Database) (param : ClientListGetParam) :
    Option ClientData → List ClientData
  | none => clientsOf (getClientList database (some param))
  | some last => clientsOf (getClientList database
      (some (param.next (getClientListCount database (some param)) last)))

/-- A request for the first page of the clients, the last ones first, that is not refused. -/
structure IsFirstClients (param : ClientListGetParam) : Prop where
  order : orderParam param.order = .ok false
  cursor : param.cursor = none
  pageNum : param.pageNum = 1
  pageSize : 1 ≤ param.pageSize
  small : param.pageSize < 2 ^ 63
  timestampBefore : param.timestampBefore = none

theorem IsFirstClients.stepShows_eq (request : IsFirstClients param) (last client : ClientData) :
    param.stepShows false true last.id client =
      (param.matches client && follows (·.id) false last client) := by
  unfold ClientListGetParam.stepShows ClientListGetParam.matches keptTimes shownSide beyondCursor
    withinTimes follows
  simp [request.timestampBefore]

theorem pagesBehind_nextClients {databases : Nat → Database}
    (unique : ∀ moment, ((databases moment).client.map (·.id)).Nodup)
    (request : IsFirstClients param) :
    PagesBehind (fun moment => nextClients (databases moment) param) (·.id) false param.pageSize
      fun moment => (clientListing (databases moment) false).filter param.matches := by
  constructor
  · exact request.pageSize
  · exact fun moment => (isListing_clientListing (unique moment) false).ordered.filter _
  · intro moment cursor first
    cases cursor with
    | none =>
        obtain ⟨result, got, rows⟩ := getClientList_list (unique moment)
          (⟨request.order, request.pageSize, request.cursor⟩ : IsClientRequest param false none)
        have start : param.offset = 0 := by
          have zero : wrappingSub 64 1 1 = 0 := rfl
          rw [ClientListGetParam.offset, request.pageNum, zero, wrappingMul, Nat.cast_zero, zero_mul]
          rfl
        rw [nextClients, got, clientsOf, rows, limitClients, start, if_pos ⟨request.small, by decide⟩,
          List.drop_zero]
        congr 1
        exact (List.filter_eq_self.mpr fun row _ => decide_eq_true (behind_none row.id)).symm
    | some last =>
        let next := param.next (getClientListCount (databases moment) (some param)) last
        obtain ⟨result, got, rows⟩ := getClientList_step (unique moment)
          (⟨request.order, request.pageSize, rfl, rfl⟩ :
            IsClientRequest next false (some (last.id, true)))
        rw [nextClients, got, clientsOf, rows]
        have shown : (clientListing (databases moment) false).filter
            (next.stepShows false true last.id) =
              ((clientListing (databases moment) false).filter param.matches).filter
                fun client => Behind (·.id) false (some last) client.id := by
          rw [List.filter_filter]
          refine List.filter_congr fun client _ => ?_
          refine (request.stepShows_eq last client).trans ((Bool.and_comm _ _).trans ?_)
          congr 1
          simp [Behind, follows]
        simp only [Bool.not_true, if_pos, limitClients, List.drop_zero]
        rw [shown, if_pos ⟨request.small, by decide⟩]
        rfl

/-- Whatever is written to the database between the pages, a walk of the clients from the last
one back comes to an end, and shows clients in the order of their ids, none of them twice, and
every client that matches throughout. -/
theorem walkOver_nextClients {databases : Nat → Database}
    (unique : ∀ moment, ((databases moment).client.map (·.id)).Nodup)
    (request : IsFirstClients param) :
    (∀ shown, WalksOver (fun moment => nextClients (databases moment) param) 0 none shown →
        ShowsWhatStays (·.id) false
          (fun moment => (databases moment).client.filter param.matches) shown) ∧
      ∃ shown, WalksOver (fun moment => nextClients (databases moment) param) 0 none shown := by
  have pages := pagesBehind_nextClients unique request
  constructor
  · intro shown walks
    apply showsWhatStays_of_receives (pages.receives (fun _ => rfl) walks)
    exact fun moment => (isListing_clientListing (unique moment) false).perm.filter _
  · exact pages.exists_walksOver

end

/-- A client comes back behind the first page. -/
def returningClient : Nat → Database
  | 0 => { client := [knownClient 1 10, knownClient 2 20] }
  | _ + 1 => { client := [knownClient 1 30, knownClient 2 20] }

theorem walkOver_nextClients_example :
    ∃ shown, WalksOver (fun moment => nextClients (returningClient moment) { pageSize := 1 }) 0
      none shown ∧ 1 ∈ shown.flatten.map (·.id) := by
  have unique : ∀ moment, ((returningClient moment).client.map (·.id)).Nodup := by
    intro moment
    cases moment with
    | zero => decide
    | succ moment => exact (by decide : ([1, 2] : List Nat).Nodup)
  have walk := @walkOver_nextClients { pageSize := 1 } returningClient unique
    ⟨rfl, rfl, rfl, by decide, by decide, rfl⟩
  obtain ⟨shown, walks⟩ := walk.2
  refine ⟨shown, walks, (walk.1 shown walks).stayed 1 fun moment => ?_⟩
  cases moment with
  | zero => decide
  | succ moment => exact (by decide : 1 ∈ (((returningClient 1).client.filter
      ({ pageSize := 1 } : ClientListGetParam).matches).map (·.id)))

end SmartDnsPlusUi
