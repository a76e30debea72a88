import SmartDnsPlusUi.Server.ClientList
import SmartDnsPlusUi.Table.OffsetPages

/-!
# Pages by number

Without a cursor a page is asked for by its number, and the API tells how many pages there
are.  The pages are the matching rows in one order, unless the size of a page is no signed
integer: then the statement fails, its error is dropped, and the page is empty.
-/

namespace SmartDnsPlusUi

open Arithmetic Table

/-- The number of pages that the API computes. -/
def totalPage (listCount pageSize : Nat) : Nat :=
  let total := listCount / pageSize
  if listCount % pageSize ≠ 0 then total + 1 else total

theorem totalPage_eq {pageSize : Nat} (positive : 1 ≤ pageSize) (listCount : Nat) :
    totalPage listCount pageSize = listCount ⌈/⌉ pageSize := by
  have split := Nat.div_add_mod listCount pageSize
  have below := Nat.mod_lt listCount positive
  rw [Nat.ceilDiv_eq_add_pred_div]
  unfold totalPage
  dsimp only
  symm
  split_ifs with remainder
  · refine Nat.div_eq_of_lt_le ?_ ?_
    · rw [Nat.succ_mul, Nat.mul_comm]
      omega
    · rw [Nat.succ_mul, Nat.succ_mul, Nat.mul_comm]
      omega
  · refine Nat.div_eq_of_lt_le ?_ ?_
    · rw [Nat.mul_comm]
      omega
    · rw [Nat.succ_mul, Nat.mul_comm]
      omega

/-- A page number, and the offset of the page is a signed integer. -/
def HasOffset (pageSize number : Nat) : Prop :=
  1 ≤ number ∧ (number - 1) * pageSize < 2 ^ 63

/-- What a listing reads for a page number: the rows and the count, or an error. -/
abbrev PageReader (Row : Type) := Nat → Except Text (List Row × Nat)

/-- Every page is read, and the pages are these rows as the numbers say. -/
structure ReadsPages {Row : Type} (read : PageReader Row) (pageSize : Nat)
    (page : Nat → List Row) (listed : List Row) : Prop where
  reads : ∀ number, HasOffset pageSize number →
    read number = .ok (page number, listed.length)
  paged : IsPaged page pageSize (totalPage listed.length pageSize) listed
  count : totalPage listed.length pageSize = listed.length ⌈/⌉ pageSize
  later : ∀ number, HasOffset pageSize number → totalPage listed.length pageSize < number →
    page number = []

/-- The pages are the matching rows, each once, in one strict order. -/
def ReadsExactly {Row : Type} (read : PageReader Row) (pageSize : Nat)
    (before : Row → Row → Prop) (matched : List Row) : Prop :=
  ∃ page listed, listed.Perm matched ∧ listed.Pairwise before ∧
    ReadsPages read pageSize page listed

theorem readsExactly_iff {Row : Type} {read : PageReader Row} {pageSize : Nat}
    {before : Row → Row → Prop} {matched listed : List Row} (positive : 1 ≤ pageSize)
    (perm : listed.Perm matched) (ordered : listed.Pairwise before)
    (fits : (totalPage matched.length pageSize - 1) * pageSize < 2 ^ 63)
    (reads : ∀ number, HasOffset pageSize number → read number =
      .ok (if pageSize < 2 ^ 63 then numberedPage pageSize listed number else [],
        listed.length)) :
    ReadsExactly read pageSize before matched ↔ pageSize < 2 ^ 63 ∨ matched = [] := by
  have count := totalPage_eq positive listed.length
  by_cases small : pageSize < 2 ^ 63
  · simp only [if_pos small] at reads
    refine iff_of_true ⟨_, listed, perm, ordered, reads, ?_, count, ?_⟩ (.inl small)
    · rw [count]
      exact isPaged_numberedPage positive listed
    · intro number _ past
      rw [count] at past
      exact numberedPage_past positive listed past
  · simp only [if_neg small] at reads
    rw [or_iff_right small]
    constructor
    · rintro ⟨page, others, permOthers, -, readsOthers, paged, -, -⟩
      have first : HasOffset pageSize 1 := ⟨le_rfl, by simp⟩
      have nothing : page 1 = [] := by
        have same := (reads 1 first).symm.trans (readsOthers 1 first)
        rw [Except.ok.injEq, Prod.mk.injEq] at same
        exact same.1.symm
      have single : totalPage others.length pageSize ≤ 1 := by
        by_contra several
        rw [← permOthers.length_eq] at fits
        have more : 1 ≤ totalPage others.length pageSize - 1 := by omega
        have large := Nat.mul_le_mul_right pageSize more
        omega
      have rows := paged.rows
      have empty : others = [] := by
        rcases Nat.le_one_iff_eq_zero_or_eq_one.mp single with zero | one
        · rw [zero, List.range_zero, List.flatMap_nil] at rows
          exact rows.symm
        · rw [one, List.range_one, List.flatMap_singleton, nothing] at rows
          exact rows.symm
      subst empty
      exact List.nil_perm.mp permOthers
    · rintro rfl
      have empty := List.perm_nil.mp perm
      subst empty
      have pages : ∀ number, numberedPage pageSize ([] : List Row) number = [] := fun _ => by
        rw [numberedPage, List.drop_nil, List.take_nil]
      refine ⟨numberedPage pageSize [], [], perm, ordered, fun number offset => ?_, ?_, count,
        fun number _ _ => pages number⟩
      · rw [reads number offset, pages]
      · rw [count]
        exact isPaged_numberedPage positive []

/-! ### Offsets -/

/-- The offset of a page does not wrap. -/
theorem offset_eq {pageSize number : Nat} (positive : 1 ≤ pageSize)
    (offset : HasOffset pageSize number) :
    wrappingMul 64 (wrappingSub 64 number 1) pageSize = (number - 1) * pageSize := by
  obtain ⟨first, small⟩ := offset
  have below : number - 1 ≤ (number - 1) * pageSize := Nat.le_mul_of_pos_right _ positive
  have before : wrappingSub 64 number 1 = number - 1 := by
    unfold wrappingSub
    rw [Nat.cast_one, ← Nat.cast_pred first]
    exact ofInt_natCast (by omega)
  rw [before]
  unfold wrappingMul
  rw [← Nat.cast_mul]
  exact ofInt_natCast (by omega)

theorem limited_eq {Row : Type} {pageSize number : Nat} (offset : HasOffset pageSize number)
    (rows : List Row) :
    (if pageSize < 2 ^ 63 ∧ (number - 1) * pageSize < 2 ^ 63 then
        (rows.drop ((number - 1) * pageSize)).take pageSize
      else []) =
      if pageSize < 2 ^ 63 then numberedPage pageSize rows number else [] := by
  simp only [offset.2, and_true]
  rfl

/-! ### The query list -/

/-- A request without a cursor that is not refused. -/
structure IsNumberedRequest (param : DomainListGetParam) (ascending : Bool)
    (domain : List DomainCondition) : Prop where
  order : orderParam param.order = .ok ascending
  filter : domainFilter param.domain param.domainFilterMode = .ok domain
  cursor : param.cursor = none
  pageSize : 1 ≤ param.pageSize

/-- What `get_domain_list` returns for a page number. -/
def domainReader (database : Database) (param : DomainListGetParam) : PageReader DomainData :=
  fun number => (getDomainList database (some { param with pageNum := number })).map
    fun result => (result.domainList, result.totalCount)

def DomainOrder.before (order : DomainOrder) (a b : DomainData) : Prop :=
  order.le a b = true ∧ order.le b a = false

theorem DomainOrder.pairwise_before (order : DomainOrder) {rows : List DomainData}
    (unique : (rows.map (·.id)).Nodup) : (order.sort rows).Pairwise order.before := by
  have different : ((order.sort rows).map (·.id)).Nodup :=
    ((order.sort_perm rows).map _).nodup_iff.mpr unique
  rw [List.Nodup, List.pairwise_map] at different
  refine ((order.pairwise_sort rows).and different).imp fun both => ⟨both.1, ?_⟩
  exact Bool.eq_false_iff.mpr fun turned => both.2 (id_eq_of_le both.1 turned)

/-- Without a cursor the rows are a part of the sorted rows that match. -/
theorem getDomainList_limited {database : Database} {param : DomainListGetParam}
    {ascending : Bool} {domain : List DomainCondition}
    (order : orderParam param.order = .ok ascending)
    (filter : domainFilter param.domain param.domainFilterMode = .ok domain)
    (cursor : param.cursor = none) :
    let listed := (param.firstOrder ascending).sort (database.domain.filter (param.shows domain))
    getDomainList database (some param) = .ok {
      domainList := limitRows param.pageSize
        (wrappingMul 64 (wrappingSub 64 param.pageNum 1) param.pageSize) listed
      totalCount := listed.length
      stepByCursor := false } := by
  intro listed
  have clauses := getDomainSqlWhere_first order filter cursor
  have found : (database.domain.filter fun d => (param.conditionsWith domain
      (timestampBeforeFilter true param.timestampBefore none ++
        timestampAfterFilter ascending param.timestampAfter none)).all (·.holds d)) =
      database.domain.filter (param.shows domain) :=
    List.filter_congr fun d _ => shows_eq d
  unfold getDomainList getDomainListCount
  simp only [clauses, bind, Except.bind, cursor, Option.bind_none, selectDomain, found]
  rfl

theorem getDomainList_numbered {database : Database} {param : DomainListGetParam}
    {ascending : Bool} {domain : List DomainCondition}
    (request : IsNumberedRequest param ascending domain)
    (offset : HasOffset param.pageSize param.pageNum) :
    let listed := (param.firstOrder ascending).sort (database.domain.filter (param.shows domain))
    getDomainList database (some param) = .ok {
      domainList :=
        if param.pageSize < 2 ^ 63 then numberedPage param.pageSize listed param.pageNum else []
      totalCount := listed.length
      stepByCursor := false } := by
  intro listed
  rw [getDomainList_limited request.order request.filter request.cursor,
    offset_eq request.pageSize offset, limitRows, limited_eq offset]

theorem domainReader_eq {database : Database} {param : DomainListGetParam} {ascending : Bool}
    {domain : List DomainCondition} (request : IsNumberedRequest param ascending domain)
    {number : Nat} (offset : HasOffset param.pageSize number) :
    let listed := (param.firstOrder ascending).sort (database.domain.filter (param.shows domain))
    domainReader database param number =
      .ok (if param.pageSize < 2 ^ 63 then numberedPage param.pageSize listed number else [],
        listed.length) := by
  have numbered : IsNumberedRequest { param with pageNum := number } ascending domain :=
    ⟨request.order, request.filter, request.cursor, request.pageSize⟩
  unfold domainReader
  rw [getDomainList_numbered numbered offset]
  rfl

/-! ### The clients -/

/-- What `get_client_list` returns for a page number. -/
def clientReader (database : Database) (param : ClientListGetParam) : PageReader ClientData :=
  fun number => (getClientList database (some { param with pageNum := number })).map
    fun result => (result.clientList, result.totalCount)

/-- The order of the clients does not depend on the request. -/
def clientBefore (a b : ClientData) : Prop := follows (·.id) false a b = true

theorem getClientList_numbered {database : Database} {param : ClientListGetParam}
    {ascending : Bool} (unique : (database.client.map (·.id)).Nodup)
    (request : IsClientRequest param ascending none)
    (offset : HasOffset param.pageSize param.pageNum) :
    let listed := (clientListing database false).filter param.matches
    getClientList database (some param) = .ok {
      clientList :=
        if param.pageSize < 2 ^ 63 then numberedPage param.pageSize listed param.pageNum else []
      totalCount := listed.length
      stepByCursor := false } := by
  intro listed
  have cursorNone : param.cursor = none := request.cursor
  have found : (database.client.filter fun client =>
      (param.fixedConditions ++ clientBeforeFilter true param.timestampBefore none ++
        clientAfterFilter ascending param.timestampAfter none).all (·.holds client)) =
      database.client.filter param.matches := List.filter_congr fun client _ => matches_eq client
  unfold getClientList getClientListCount
  simp only [getClientSqlWhere_list request, bind, Except.bind, cursorNone, Option.bind_none,
    selectClient, found, ClientOrder.sort_filter _ unique, limitClients,
    ClientListGetParam.offset, offset_eq request.pageSize offset, limited_eq offset]
  rfl

theorem clientReader_eq {database : Database} {param : ClientListGetParam} {ascending : Bool}
    (unique : (database.client.map (·.id)).Nodup)
    (request : IsClientRequest param ascending none) {number : Nat}
    (offset : HasOffset param.pageSize number) :
    let listed := (clientListing database false).filter param.matches
    clientReader database param number =
      .ok (if param.pageSize < 2 ^ 63 then numberedPage param.pageSize listed number else [],
        listed.length) := by
  have numbered : IsClientRequest { param with pageNum := number } ascending none :=
    ⟨request.order, request.pageSize, request.cursor⟩
  unfold clientReader
  rw [getClientList_numbered unique numbered offset]
  rfl

/-- Exactly when the numbered pages of both listings are the matching rows. -/
theorem readsExactly_iff_pageSize {database : Database}
    (uniqueDomain : (database.domain.map (·.id)).Nodup)
    (uniqueClient : (database.client.map (·.id)).Nodup) :
    (∀ (param : DomainListGetParam) (ascending : Bool) (domain : List DomainCondition),
      let matched := database.domain.filter (param.shows domain)
      IsNumberedRequest param ascending domain →
      (totalPage matched.length param.pageSize - 1) * param.pageSize < 2 ^ 63 →
      (ReadsExactly (domainReader database param) param.pageSize
          (param.firstOrder ascending).before matched ↔
        param.pageSize < 2 ^ 63 ∨ matched = [])) ∧
    (∀ (param : ClientListGetParam) (ascending : Bool),
      let matched := database.client.filter param.matches
      IsClientRequest param ascending none →
      (totalPage matched.length param.pageSize - 1) * param.pageSize < 2 ^ 63 →
      (ReadsExactly (clientReader database param) param.pageSize clientBefore matched ↔
        param.pageSize < 2 ^ 63 ∨ matched = [])) := by
  constructor
  · intro param ascending domain matched request fits
    have unique : (matched.map (·.id)).Nodup :=
      uniqueDomain.sublist (List.filter_sublist.map _)
    exact readsExactly_iff request.pageSize ((param.firstOrder ascending).sort_perm matched)
      ((param.firstOrder ascending).pairwise_before unique) fits
      fun number offset => domainReader_eq request offset
  · intro param ascending matched request fits
    have listing := (isListing_clientListing uniqueClient false).filter param.matches
    exact readsExactly_iff request.pageSize listing.perm listing.ordered fits
      fun number offset => clientReader_eq uniqueClient request offset

def threeRows : Database where
  domain := [loggedQuery 1 10, loggedQuery 2 20, loggedQuery 3 30]
  client := [knownClient 1 10, knownClient 2 20, knownClient 3 30]

/-- Two pages hold the three rows of a table. -/
theorem readsExactly_iff_pageSize_example :
    ReadsExactly (domainReader threeRows { pageSize := 2, order := some "asc" }) 2
        (({ pageSize := 2, order := some "asc" } : DomainListGetParam).firstOrder true).before threeRows.domain ∧
      ReadsExactly (clientReader threeRows { pageSize := 2 }) 2 clientBefore threeRows.client := by
  have exact := @readsExactly_iff_pageSize threeRows (by decide) (by decide)
  constructor
  · apply (exact.1 { pageSize := 2, order := some "asc" } true [] ⟨rfl, rfl, rfl, by decide⟩
      (by decide)).mpr
    exact .inl (by decide)
  · apply (exact.2 { pageSize := 2 } false ⟨rfl, by decide, rfl⟩ (by decide)).mpr
    exact .inl (by decide)

/-- A page that is too large for a signed integer is empty, and one row matches. -/
theorem not_readsExactly :
    ¬ ∀ (database : Database) (param : DomainListGetParam) (ascending : Bool)
        (domain : List DomainCondition),
      (database.domain.map (·.id)).Nodup → IsNumberedRequest param ascending domain →
      (totalPage (database.domain.filter (param.shows domain)).length param.pageSize - 1) *
        param.pageSize < 2 ^ 63 →
      ReadsExactly (domainReader database param) param.pageSize
        (param.firstOrder ascending).before (database.domain.filter (param.shows domain)) := by
  intro exact
  obtain ⟨page, listed, perm, -, pages⟩ := exact { domain := [loggedQuery 1 10] }
    { pageSize := 2 ^ 63 } false [] (by decide) ⟨rfl, rfl, rfl, by decide⟩ (by decide)
  have found : listed = [loggedQuery 1 10] := List.perm_singleton.mp perm
  subst found
  have first : HasOffset (2 ^ 63) 1 := ⟨by decide, by decide⟩
  have nothing : domainReader { domain := [loggedQuery 1 10] } { pageSize := 2 ^ 63 } 1 =
    .ok ([], 1) := by rfl
  have read := nothing.symm.trans (pages.reads 1 first)
  rw [Except.ok.injEq, Prod.mk.injEq] at read
  have rows := pages.paged.rows
  rw [show totalPage _ _ = 1 from rfl, List.range_one, List.flatMap_singleton, ← read.1] at rows
  cases rows

end SmartDnsPlusUi
