import SmartDnsPlusUi.Server.RequestLoop

/-!
# Clients on their way to the database

The client of a handled request waits in the pending list.  Three places take
entries out of it before they are stored; an entry that is taken out is lost when
the write fails, or is not tried because the write before it failed.
-/

namespace SmartDnsPlusUi

open Run Table

/-- The client table has a row with this address. -/
def IsStored (database : Database) (ip : Text) : Prop := ∃ row ∈ database.client, row.clientIp = ip

/-- The client is stored, or still pending. -/
def IsKept (server : DataServer) (ip : Text) : Prop :=
  ip ∈ server.clientPendingList ∨ IsStored server.database ip

/-! ### The client table -/

theorem isStored_setClient (database : Database) (data : ClientData) :
    IsStored (setClient database data) data.clientIp := by
  unfold IsStored setClient putClient
  by_cases known : database.client.any data.sameClient = true
  · obtain ⟨row, listed, same⟩ := List.any_eq_true.mp known
    have sameIp : data.clientIp = row.clientIp := by
      unfold ClientData.sameClient at same
      exact of_decide_eq_true (Bool.and_eq_true_iff.mp same).1
    simp only [if_pos known]
    refine ⟨_, List.mem_map_of_mem listed, ?_⟩
    rw [if_pos same]
    exact sameIp.symm
  · simp only [if_neg known]
    exact ⟨_, List.mem_append_right _ List.mem_cons_self, rfl⟩

theorem isStored_setClient_of_isStored {database : Database} {ip : Text}
    (stored : IsStored database ip) (data : ClientData) : IsStored (setClient database data) ip := by
  obtain ⟨row, listed, same⟩ := stored
  unfold IsStored setClient putClient
  by_cases known : database.client.any data.sameClient = true
  · simp only [if_pos known]
    refine ⟨_, List.mem_map_of_mem listed, ?_⟩
    split
    · exact same
    · exact same
  · simp only [if_neg known]
    exact ⟨row, List.mem_append_left _ listed, same⟩

theorem isStored_foldl_of_isStored {database : Database} {ip : Text} (clients : List ClientData)
    (stored : IsStored database ip) : IsStored (clients.foldl setClient database) ip := by
  induction clients generalizing database with
  | nil => exact stored
  | cons data clients inductionHypothesis =>
      exact inductionHypothesis (isStored_setClient_of_isStored stored data)

theorem isStored_foldl {clients : List ClientData} {data : ClientData} (listed : data ∈ clients)
    (database : Database) : IsStored (clients.foldl setClient database) data.clientIp := by
  induction clients generalizing database with
  | nil => cases listed
  | cons first clients inductionHypothesis =>
      rcases List.mem_cons.mp listed with same | later
      · subst same
        exact isStored_foldl_of_isStored clients (isStored_setClient database data)
      · exact inductionHypothesis later (setClient database first)

theorem insertClient_committed {fault : Option Nat} {clients : List ClientData}
    {database : Database} (committed : (insertClient fault clients database).2 = true) :
    (insertClient fault clients database).1 = clients.foldl setClient database := by
  have runs := runStatements_of_transact committed
  have upserts := runStatements_guarded (fun data : ClientData => data.lastQueryTimestamp < 2 ^ 63)
    setClient clients database
  rw [runStatements_append, runStatements_append] at runs
  have body : runStatements (clients.map upsertClient) database =
      some (insertClient fault clients database).1 := by
    cases result : runStatements (clients.map upsertClient) database with
    | none =>
        simp only [runStatements, Option.bind_some, Statement.skip, result, Option.bind_none] at runs
        cases runs
    | some after =>
        simp only [runStatements, Option.bind_some, Statement.skip, result] at runs
        exact runs
  have same := body.symm.trans upserts
  split at same
  · exact Option.some.inj same
  · cases same

theorem isStored_insertClient_of_isStored {database : Database} {ip : Text} (fault : Option Nat)
    (clients : List ClientData) (stored : IsStored database ip) :
    IsStored (insertClient fault clients database).1 ip := by
  cases outcome : (insertClient fault clients database).2 with
  | true =>
      rw [insertClient_committed outcome]
      exact isStored_foldl_of_isStored clients stored
  | false =>
      have unchanged : (insertClient fault clients database).1 = database :=
        transact_failed outcome
      rw [unchanged]
      exact stored

theorem isStored_insertClient {fault : Option Nat} {clients : List ClientData}
    {database : Database} (committed : (insertClient fault clients database).2 = true)
    {data : ClientData} (listed : data ∈ clients) :
    IsStored (insertClient fault clients database).1 data.clientIp := by
  rw [insertClient_committed committed]
  exact isStored_foldl listed database

theorem client_insertDomain (offset : UtcOffset) (call : InsertCall) (database : Database) :
    (insertDomain offset call database).1.client = database.client := by
  cases outcome : (insertDomain offset call database).2 with
  | true =>
      rw [insertDomain_committed outcome]
      rfl
  | false =>
      have unchanged : (insertDomain offset call database).1 = database := transact_failed outcome
      rw [unchanged]

/-! ### The pending list -/

/-- Every entry has the address it is filed under. -/
def Labelled (pending : ClientPendingList) : Prop :=
  ∀ ip entry, pending.lookup ip = some entry → entry.2.clientIp = ip

theorem labelled_empty : Labelled ∅ := by
  intro ip entry found
  rw [AList.lookup_empty] at found
  cases found

theorem labelled_insert {pending : ClientPendingList} (labelled : Labelled pending) {ip : Text}
    {entry : Nat × ClientData} (same : entry.2.clientIp = ip) :
    Labelled (pending.insert ip entry) := by
  intro other otherEntry found
  by_cases equal : other = ip
  · subst equal
    rw [AList.lookup_insert] at found
    cases found
    exact same
  · rw [AList.lookup_insert_ne equal] at found
    exact labelled other otherEntry found

variable {timestampNow : Nat} {macCache : MacCache}

theorem mem_notePending {pending : ClientPendingList} {req : DnsRequest} {ip : Text} :
    ip ∈ notePending timestampNow macCache pending req ↔ ip = req.remoteAddr ∨ ip ∈ pending := by
  unfold notePending
  cases found : pending.lookup req.remoteAddr with
  | none => exact AList.mem_insert _
  | some entry => exact AList.mem_insert _

theorem labelled_notePending {pending : ClientPendingList} (labelled : Labelled pending)
    (req : DnsRequest) : Labelled (notePending timestampNow macCache pending req) := by
  unfold notePending
  cases found : pending.lookup req.remoteAddr with
  | none => exact labelled_insert labelled rfl
  | some entry => exact labelled_insert labelled (labelled req.remoteAddr entry found)

theorem mem_foldl_notePending {handled : List DnsRequest} {pending : ClientPendingList} {ip : Text} :
    ip ∈ handled.foldl (notePending timestampNow macCache) pending ↔
      (∃ req ∈ handled, req.remoteAddr = ip) ∨ ip ∈ pending := by
  induction handled generalizing pending with
  | nil => simp
  | cons req handled inductionHypothesis =>
      rw [List.foldl_cons, inductionHypothesis, mem_notePending, List.exists_mem_cons_iff]
      constructor
      · rintro (later | same | old)
        · exact Or.inl (Or.inr later)
        · exact Or.inl (Or.inl same.symm)
        · exact Or.inr old
      · rintro ((same | later) | old)
        · exact Or.inr (Or.inl same.symm)
        · exact Or.inl later
        · exact Or.inr (Or.inr old)

theorem labelled_foldl_notePending {pending : ClientPendingList} (labelled : Labelled pending)
    (handled : List DnsRequest) :
    Labelled (handled.foldl (notePending timestampNow macCache) pending) := by
  induction handled generalizing pending with
  | nil => exact labelled
  | cons req handled inductionHypothesis => exact inductionHypothesis (labelled_notePending labelled req)

theorem lookup_foldl_erase (toRemove : List PendingEntry) (pending : ClientPendingList) (ip : Text) :
    (toRemove.foldl (fun pending entry => pending.erase entry.1) pending).lookup ip =
      if ip ∈ toRemove.map (·.1) then none else pending.lookup ip := by
  induction toRemove generalizing pending with
  | nil => simp
  | cons entry toRemove inductionHypothesis =>
      rw [List.foldl_cons, inductionHypothesis]
      by_cases same : ip = entry.1
      · subst same
        simp
      · have listed : ip ∈ (entry :: toRemove).map (·.1) ↔ ip ∈ toRemove.map (·.1) := by
          rw [List.map_cons, List.mem_cons, or_iff_right same]
        simp only [listed, AList.lookup_erase_ne same]

theorem labelled_takeDue {pending : ClientPendingList} (labelled : Labelled pending) (age : Nat)
    (call : FlushCall) : Labelled (takeDue age call pending).2 := by
  intro ip entry found
  unfold takeDue at found
  simp only [lookup_foldl_erase] at found
  split at found
  · cases found
  · exact labelled ip entry found

/-- Every pending client is still pending, or among those taken out. -/
theorem mem_takeDue {pending : ClientPendingList} (labelled : Labelled pending) (age : Nat)
    (call : FlushCall) {ip : Text} (waiting : ip ∈ pending) :
    ip ∈ (takeDue age call pending).2 ∨
      ∃ data ∈ (takeDue age call pending).1, data.clientIp = ip := by
  obtain ⟨entry, found⟩ := Option.isSome_iff_exists.mp (AList.lookup_isSome.mpr waiting)
  by_cases removed : ip ∈ ((call.order.enumerate pending.entries).filter
      (isDue age call.timestampNow)).map (·.1)
  · right
    obtain ⟨⟨key, value⟩, listed, rfl⟩ := List.mem_map.mp removed
    refine ⟨value.2, List.mem_map.mpr ⟨⟨key, value⟩, listed, rfl⟩, ?_⟩
    have inside : ⟨key, value⟩ ∈ pending.entries :=
      (call.order.perm _).mem_iff.mp (List.mem_filter.mp listed).1
    exact labelled key value (AList.mem_lookup_iff.mpr inside)
  · left
    rw [← AList.lookup_isSome]
    unfold takeDue
    simp only [lookup_foldl_erase, if_neg removed]
    rw [found]
    rfl

/-! ### The three places -/

/-- The clients that the handling of a batch takes out of the pending list. -/
def dueClients (call : HandleCall) (reqList : List DnsRequest) (server : DataServer) :
    List ClientData :=
  (takeDue 3000 call.toFlushCall (notedClients call reqList server)).1

/-- The clients taken out are stored already, or the write goes through. -/
def FlushStores (fault : Option Nat) (flushList : List ClientData) (database : Database) : Prop :=
  (∀ data ∈ flushList, IsStored database data.clientIp) ∨
    (insertClient fault flushList database).2 = true

/-- The clients taken out are stored already, or both writes go through. -/
def BatchStores (call : HandleCall) (reqList : List DnsRequest) (server : DataServer) : Prop :=
  let inserted := insertDomain call.offset
    (call.insertCall ((reqList.filter (·.isHandled)).map (·.domainData))) server.database
  (∀ data ∈ dueClients call reqList server, IsStored server.database data.clientIp) ∨
    inserted.2 = true ∧
      (insertClient call.clientFault (dueClients call reqList server) inserted.1).2 = true

/-- No write of the step fails for a client that is taken out and not stored yet. -/
def KeepsClients (state : DataServerLoop) : LoopEvent → Prop
  | .recvMany count call =>
      count = 0 ∨ (state.server.recvInBatch = true ∧
        (state.receive count).reqList.length < batchSize true) ∨
      BatchStores call (state.receive count).reqList (state.receive count).server
  | .batchTimerFires call => BatchStores call state.reqList state.server
  | .clientFlushTick call =>
      FlushStores call.clientFault (takeDue 10000 call state.server.clientPendingList).1
        state.server.database
  | .shutdownFlush call =>
      FlushStores call.clientFault
        ((call.order.enumerate state.server.clientPendingList.entries).map (·.2.2))
        state.server.database
  | _ => True

theorem isStored_storeBatch_of_isStored {database : Database} {ip : Text} (call : HandleCall)
    (rows : List DomainData) (clients : List ClientData) (stored : IsStored database ip) :
    IsStored (storeBatch call rows clients database) ip := by
  have sameClients := client_insertDomain call.offset (call.insertCall rows) database
  unfold storeBatch
  rcases outcome : insertDomain call.offset (call.insertCall rows) database with ⟨next, committed⟩
  rw [outcome] at sameClients
  have storedNext : IsStored next ip := by
    unfold IsStored
    rw [sameClients]
    exact stored
  cases committed with
  | true => exact isStored_insertClient_of_isStored call.clientFault clients storedNext
  | false => exact storedNext

theorem isStored_storeBatch {call : HandleCall} {rows : List DomainData}
    {clients : List ClientData} {database : Database}
    (insertedDomain : (insertDomain call.offset (call.insertCall rows) database).2 = true)
    (insertedClient : (insertClient call.clientFault clients
      (insertDomain call.offset (call.insertCall rows) database).1).2 = true)
    {data : ClientData} (listed : data ∈ clients) :
    IsStored (storeBatch call rows clients database) data.clientIp := by
  unfold storeBatch
  rcases outcome : insertDomain call.offset (call.insertCall rows) database with ⟨next, committed⟩
  rw [outcome] at insertedDomain insertedClient
  subst insertedDomain
  exact isStored_insertClient insertedClient listed

theorem isKept_handleDnsRequest {call : HandleCall} {reqList : List DnsRequest}
    {server : DataServer} {ip : Text} (labelled : Labelled server.clientPendingList)
    (stores : BatchStores call reqList server)
    (seen : (∃ req ∈ reqList.filter (·.isHandled), req.remoteAddr = ip) ∨ IsKept server ip) :
    IsKept (handleDnsRequest call reqList server) ip := by
  have noted : ip ∈ notedClients call reqList server ∨ IsStored server.database ip := by
    unfold notedClients
    rw [mem_foldl_notePending]
    rcases seen with new | old | stored
    · exact Or.inl (Or.inl new)
    · exact Or.inl (Or.inr old)
    · exact Or.inr stored
  unfold IsKept handleDnsRequest
  rcases noted with waiting | stored
  · rcases mem_takeDue (labelled_foldl_notePending labelled _) 3000 call.toFlushCall waiting with
      still | ⟨data, taken, rfl⟩
    · exact Or.inl still
    · right
      rcases stores with known | ⟨insertedDomain, insertedClient⟩
      · exact isStored_storeBatch_of_isStored call _ _ (known data taken)
      · exact isStored_storeBatch insertedDomain insertedClient taken
  · exact Or.inr (isStored_storeBatch_of_isStored call _ _ stored)

theorem isStored_flushClients_of_isStored {database : Database} {ip : Text} (fault : Option Nat)
    (flushList : List ClientData) (stored : IsStored database ip) :
    IsStored (flushClients fault flushList database) ip := by
  unfold flushClients
  split
  · exact stored
  · exact isStored_insertClient_of_isStored fault flushList stored

theorem isStored_flushClients {fault : Option Nat} {flushList : List ClientData}
    {database : Database} (stores : FlushStores fault flushList database) {data : ClientData}
    (listed : data ∈ flushList) :
    IsStored (flushClients fault flushList database) data.clientIp := by
  rcases stores with known | committed
  · exact isStored_flushClients_of_isStored fault flushList (known data listed)
  · unfold flushClients
    rw [if_neg (List.ne_nil_of_mem listed)]
    exact isStored_insertClient committed listed

theorem isKept_flushDue {call : FlushCall} {server : DataServer} {ip : Text}
    (labelled : Labelled server.clientPendingList)
    (stores : FlushStores call.clientFault (takeDue 10000 call server.clientPendingList).1
      server.database) (kept : IsKept server ip) : IsKept (flushDue call server) ip := by
  unfold IsKept flushDue
  rcases kept with waiting | stored
  · rcases mem_takeDue labelled 10000 call waiting with still | ⟨data, taken, rfl⟩
    · exact Or.inl still
    · exact Or.inr (isStored_flushClients stores taken)
  · exact Or.inr (isStored_flushClients_of_isStored _ _ stored)

theorem isKept_flushAll {call : FlushCall} {server : DataServer} {ip : Text}
    (labelled : Labelled server.clientPendingList)
    (stores : FlushStores call.clientFault
      ((call.order.enumerate server.clientPendingList.entries).map (·.2.2)) server.database)
    (kept : IsKept server ip) : IsKept (flushAll call server) ip := by
  unfold IsKept flushAll
  right
  rcases kept with waiting | stored
  · obtain ⟨entry, found⟩ := Option.isSome_iff_exists.mp (AList.lookup_isSome.mpr waiting)
    have inside : ⟨ip, entry⟩ ∈ call.order.enumerate server.clientPendingList.entries :=
      (call.order.perm _).mem_iff.mpr (AList.mem_lookup_iff.mp found)
    have taken := isStored_flushClients stores (List.mem_map_of_mem inside)
    simp only [labelled ip entry found] at taken
    exact taken
  · exact isStored_flushClients_of_isStored _ _ stored

/-! ### Runs -/

/-- Every client of a handled request is stored or pending. -/
structure DataServerLoop.KnowsClients (state : DataServerLoop) : Prop where
  labelled : Labelled state.server.clientPendingList
  kept : ∀ req ∈ state.handed, req.isHandled = true → IsKept state.server req.remoteAddr

theorem handleBatch_knowsClients {state : DataServerLoop} {call : HandleCall}
    (knows : state.KnowsClients) (stores : BatchStores call state.reqList state.server) :
    (state.handleBatch call).KnowsClients := by
  refine ⟨labelled_takeDue (labelled_foldl_notePending knows.labelled _) 3000 call.toFlushCall,
    fun req listed handled => ?_⟩
  apply isKept_handleDnsRequest knows.labelled stores
  rcases List.mem_append.mp listed with old | new
  · exact Or.inr (knows.kept req old handled)
  · exact Or.inl ⟨req, List.mem_filter.mpr ⟨new, handled⟩, rfl⟩

theorem sendRequest_pending (request : DnsRequest) (closed : Bool) (server : DataServer) :
    (sendRequest request closed server).1.clientPendingList = server.clientPendingList ∧
      (sendRequest request closed server).1.database = server.database := by
  unfold sendRequest
  dsimp only
  split
  · exact ⟨rfl, rfl⟩
  · split
    · exact ⟨rfl, rfl⟩
    · split <;> exact ⟨rfl, rfl⟩

theorem Stepped.knowsClients {state next : DataServerLoop} {event : LoopEvent}
    (stepped : Stepped state event next) (knows : state.KnowsClients)
    (keeps : KeepsClients state event) : next.KnowsClients := by
  cases stepped with
  | sent request =>
      obtain ⟨samePending, sameDatabase⟩ :=
        sendRequest_pending request (decide (state.phase = .returned)) state.server
      refine ⟨?_, fun req listed handled => ?_⟩
      · simp only [samePending]
        exact knows.labelled
      · have kept := knows.kept req listed handled
        unfold IsKept at kept ⊢
        simp only [samePending, sameDatabase]
        exact kept
  | nothing call running => exact knows
  | gathered count call running small => exact ⟨knows.labelled, knows.kept⟩
  | full count call running bounded received large =>
      have received_knows : (state.receive count).KnowsClients := ⟨knows.labelled, knows.kept⟩
      rcases keeps with zero | small | stores
      · exact absurd zero received
      · exact absurd small large
      · exact handleBatch_knowsClients received_knows stores
  | fired call running => exact handleBatch_knowsClients knows keeps
  | flushed call running =>
      exact ⟨labelled_takeDue knows.labelled 10000 call,
        fun req listed handled => isKept_flushDue knows.labelled keeps (knows.kept req listed handled)⟩
  | marked freeDiskSpace fails mark running => exact ⟨knows.labelled, knows.kept⟩
  | checked freeDiskSpace fails running => exact ⟨knows.labelled, knows.kept⟩
  | stopped running => exact ⟨knows.labelled, knows.kept⟩
  | returned call stopping =>
      exact ⟨labelled_empty,
        fun req listed handled => isKept_flushAll knows.labelled keeps (knows.kept req listed handled)⟩

/-- In a run in which no write fails for a client that is taken out of the
pending list, every client of a handled request is stored or pending. -/
theorem isKept_of_throughout {server : DataServer} {events : List LoopEvent}
    {final : DataServerLoop} (runs : run loopStep (loopStart server) events = some final)
    (keeps : Throughout loopStep KeepsClients (loopStart server) events) :
    ∀ req ∈ final.handed, req.isHandled = true → IsKept final.server req.remoteAddr := by
  have start : (loopStart server).KnowsClients := ⟨labelled_empty, nofun⟩
  exact (invariant_of_throughout
    (fun _ _ _ knows keeps stepped => (stepped_of_loopStep stepped).knowsClients knows keeps) start
    keeps runs).kept

theorem isKept_example :
    IsKept (loopEnd [.sendRequest sampleRequest, .recvMany 1 sampleCall,
      .batchTimerFires sampleCall]).server sampleRequest.remoteAddr := by
  refine @isKept_of_throughout {} [.sendRequest sampleRequest, .recvMany 1 sampleCall,
    .batchTimerFires sampleCall] _ rfl ?_ sampleRequest ?_ rfl
  · refine throughout_cons rfl trivial (throughout_cons rfl ?_ (throughout_cons rfl ?_ trivial))
    · exact Or.inr (Or.inl ⟨rfl, by decide⟩)
    · exact Or.inr ⟨rfl, rfl⟩
  · exact List.mem_singleton_self _

/-- A batch whose clients cannot be written. -/
def failingCall : HandleCall where
  toFlushCall := { sampleFlush with clientFault := some 0 }
  offset := utc

/-- The client of a batch whose second write fails is neither stored nor pending. -/
theorem not_isKept :
    ¬ ∀ (server : DataServer) (events : List LoopEvent) (final : DataServerLoop),
      run loopStep (loopStart server) events = some final →
      ∀ req ∈ final.handed, req.isHandled = true → IsKept final.server req.remoteAddr := by
  intro keepsAll
  have kept := keepsAll {} [.sendRequest sampleRequest, .recvMany 1 sampleCall,
    .batchTimerFires failingCall] _ rfl sampleRequest List.mem_cons_self rfl
  rcases kept with waiting | ⟨row, listed, -⟩
  · exact absurd waiting (by decide)
  · cases listed

end SmartDnsPlusUi
