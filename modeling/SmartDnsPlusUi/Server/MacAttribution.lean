import SmartDnsPlusUi.Server.ClientFlush

/-!
# Hardware addresses of clients

A request may come without the hardware address of its client.  The cache has the last one
that a request of the client carried; a client without any waits in the pending list until it
is too old.
-/

namespace SmartDnsPlusUi

open Arithmetic Run

/-! ### The cache -/

/-- The cache has an address that one of these requests carried, for each client of which one
carried any. -/
structure IsCacheOf (requests : List DnsRequest) (macCache : MacCache) : Prop where
  carried : ∀ ip mac, macCache.lookup ip = some mac →
    mac ≠ unknownMac ∧ ∃ req ∈ requests, req.remoteAddr = ip ∧ req.macStr = mac
  complete : ∀ req ∈ requests, req.macStr ≠ unknownMac → (macCache.lookup req.remoteAddr).isSome

theorem isCacheOf_empty : IsCacheOf [] ∅ := by
  refine ⟨fun ip mac found => ?_, nofun⟩
  rw [AList.lookup_empty] at found
  cases found

theorem IsCacheOf.step {requests : List DnsRequest} {macCache : MacCache}
    (cached : IsCacheOf requests macCache) (req : DnsRequest) :
    IsCacheOf (requests ++ [req])
      (if req.macStr = unknownMac then macCache else macCache.insert req.remoteAddr req.macStr) := by
  split_ifs with unknown
  · refine ⟨fun ip mac found => ?_, fun other listed known => ?_⟩
    · obtain ⟨known, other, listed, same⟩ := cached.carried ip mac found
      exact ⟨known, other, List.mem_append_left _ listed, same⟩
    · rcases List.mem_append.mp listed with old | new
      · exact cached.complete other old known
      · rw [List.mem_singleton.mp new] at known
        exact absurd unknown known
  · refine ⟨fun ip mac found => ?_, fun other listed known => ?_⟩
    · by_cases same : ip = req.remoteAddr
      · subst same
        rw [AList.lookup_insert, Option.some.injEq] at found
        subst found
        exact ⟨unknown, req, List.mem_append_right _ (List.mem_singleton_self _), rfl, rfl⟩
      · rw [AList.lookup_insert_ne same] at found
        obtain ⟨known, other, listed, same⟩ := cached.carried ip mac found
        exact ⟨known, other, List.mem_append_left _ listed, same⟩
    · by_cases same : other.remoteAddr = req.remoteAddr
      · rw [same, AList.lookup_insert]
        rfl
      · rw [AList.lookup_insert_ne same]
        rcases List.mem_append.mp listed with old | new
        · exact cached.complete other old known
        · rw [List.mem_singleton.mp new] at same
          exact absurd rfl same

theorem IsCacheOf.foldl {requests : List DnsRequest} {macCache : MacCache}
    (cached : IsCacheOf requests macCache) (reqList : List DnsRequest) :
    IsCacheOf (requests ++ reqList)
      (reqList.foldl (fun cache req =>
        if req.macStr = unknownMac then cache else cache.insert req.remoteAddr req.macStr)
        macCache) := by
  induction reqList generalizing requests macCache with
  | nil => rwa [List.append_nil]
  | cons req reqList inductionHypothesis =>
      rw [List.foldl_cons, List.append_cons]
      exact inductionHypothesis (cached.step req)

/-- The requests since the cache was cleared, after another batch. -/
def sinceCleared (reqList : List DnsRequest) (macCache : MacCache) (requests : List DnsRequest) :
    List DnsRequest :=
  (if 10000 < macCache.entries.length then [] else requests) ++ reqList

theorem IsCacheOf.fillMacCache {requests : List DnsRequest} {macCache : MacCache}
    (cached : IsCacheOf requests macCache) (reqList : List DnsRequest) :
    IsCacheOf (sinceCleared reqList macCache requests) (fillMacCache reqList macCache) := by
  unfold SmartDnsPlusUi.fillMacCache sinceCleared
  split_ifs
  · exact isCacheOf_empty.foldl reqList
  · exact cached.foldl reqList

/-! ### Noting the clients of a batch -/

/-- The address that the second pass finds for a request. -/
def foundMac (macCache : MacCache) (req : DnsRequest) : Text :=
  if req.macStr = unknownMac then (macCache.lookup req.remoteAddr).getD req.macStr
  else req.macStr

theorem IsCacheOf.foundMac_eq {requests : List DnsRequest} {macCache : MacCache}
    (cached : IsCacheOf requests macCache) {req : DnsRequest} (listed : req ∈ requests)
    (known : ∃ other ∈ requests, other.remoteAddr = req.remoteAddr ∧ other.macStr ≠ unknownMac) :
    foundMac macCache req ≠ unknownMac ∧
      ∃ other ∈ requests, other.remoteAddr = req.remoteAddr ∧
        other.macStr = foundMac macCache req := by
  unfold foundMac
  split_ifs with unknown
  · obtain ⟨other, listedOther, same, knownOther⟩ := known
    obtain ⟨mac, found⟩ := Option.isSome_iff_exists.mp
      (cached.complete other listedOther knownOther)
    rw [same] at found
    rw [found, Option.getD_some]
    exact cached.carried req.remoteAddr mac found
  · exact ⟨unknown, req, listed, rfl, rfl⟩

variable {timestampNow : Nat} {macCache : MacCache}

theorem lookup_notePending_ne {pending : ClientPendingList} {req : DnsRequest} {ip : Text}
    (different : ip ≠ req.remoteAddr) :
    (notePending timestampNow macCache pending req).lookup ip = pending.lookup ip := by
  unfold notePending
  cases pending.lookup req.remoteAddr with
  | none => exact AList.lookup_insert_ne different
  | some entry => exact AList.lookup_insert_ne different

/-- The entry of the client has the time at which it was first seen, and the address if one
was found. -/
theorem lookup_notePending_self (pending : ClientPendingList) (req : DnsRequest) :
    ∃ entry, (notePending timestampNow macCache pending req).lookup req.remoteAddr = some entry ∧
      entry.1 = ((pending.lookup req.remoteAddr).map (·.1)).getD timestampNow ∧
      (foundMac macCache req ≠ unknownMac → entry.2.mac = foundMac macCache req) := by
  unfold notePending foundMac
  cases pending.lookup req.remoteAddr with
  | none => exact ⟨_, AList.lookup_insert _, rfl, fun _ => rfl⟩
  | some entry => exact ⟨_, AList.lookup_insert _, rfl, fun known => if_neg known⟩

/-- A good address is found for every request of a client, so the client gets one. -/
theorem mac_foldl_notePending {good : Text → Prop} {ip : Text} {handled : List DnsRequest}
    (goods : ∀ req ∈ handled, req.remoteAddr = ip →
      foundMac macCache req ≠ unknownMac ∧ good (foundMac macCache req))
    {pending : ClientPendingList}
    (start : (∃ req ∈ handled, req.remoteAddr = ip) ∨
      ∀ entry, pending.lookup ip = some entry → good entry.2.mac) :
    ∀ entry, (handled.foldl (notePending timestampNow macCache) pending).lookup ip = some entry →
      good entry.2.mac := by
  induction handled generalizing pending with
  | nil => exact start.resolve_left nofun
  | cons req handled inductionHypothesis =>
      rw [List.forall_mem_cons] at goods
      rw [List.foldl_cons]
      refine inductionHypothesis goods.2 ?_
      by_cases same : req.remoteAddr = ip
      · right
        intro entry found
        obtain ⟨noted, lookup, -, mac⟩ :=
          @lookup_notePending_self timestampNow macCache pending req
        rw [same] at lookup
        rw [lookup, Option.some.injEq] at found
        rw [← found, mac (goods.1 same).1]
        exact (goods.1 same).2
      · rw [lookup_notePending_ne (Ne.symm same)]
        rcases start with ⟨other, listed, sameOther⟩ | kept
        · rcases List.mem_cons.mp listed with rfl | later
          · exact absurd sameOther same
          · exact .inl ⟨other, later, sameOther⟩
        · exact .inr kept

/-- A noted client was first seen now, or when it came into the list. -/
theorem firstSeen_foldl_notePending {handled : List DnsRequest} {pending : ClientPendingList}
    {ip : Text} {entry : Nat × ClientData}
    (found : (handled.foldl (notePending timestampNow macCache) pending).lookup ip = some entry) :
    entry.1 = ((pending.lookup ip).map (·.1)).getD timestampNow := by
  induction handled generalizing pending with
  | nil =>
      rw [List.foldl_nil] at found
      rw [found]
      rfl
  | cons req handled inductionHypothesis =>
      have later := inductionHypothesis found
      by_cases same : ip = req.remoteAddr
      · subst same
        obtain ⟨noted, lookup, first, -⟩ :=
          @lookup_notePending_self timestampNow macCache pending req
        rwa [lookup, Option.map_some, Option.getD_some, first] at later
      · rwa [lookup_notePending_ne same] at later

/-! ### Taking entries out -/

theorem mem_takeDue_fst {pending : ClientPendingList} {age : Nat} {call : FlushCall}
    (labelled : Labelled pending) {data : ClientData}
    (taken : data ∈ (takeDue age call pending).1) :
    ∃ firstSeen, pending.lookup data.clientIp = some (firstSeen, data) ∧
      isDue age call.timestampNow ⟨data.clientIp, firstSeen, data⟩ = true := by
  obtain ⟨⟨ip, firstSeen, _⟩, listed, rfl⟩ := List.mem_map.mp taken
  obtain ⟨enumerated, due⟩ := List.mem_filter.mp listed
  have found := AList.mem_lookup_iff.mpr ((call.order.perm _).mem_iff.mp enumerated)
  have same := labelled ip _ found
  dsimp only at same ⊢
  rw [same]
  exact ⟨firstSeen, found, due⟩

theorem lookup_takeDue_snd {pending : ClientPendingList} {age : Nat} {call : FlushCall} {ip : Text}
    {entry : Nat × ClientData} (found : (takeDue age call pending).2.lookup ip = some entry) :
    pending.lookup ip = some entry ∧ isDue age call.timestampNow ⟨ip, entry⟩ = false := by
  unfold takeDue at found
  simp only [lookup_foldl_erase] at found
  split_ifs at found with removed
  refine ⟨found, Bool.eq_false_iff.mpr fun due => removed ?_⟩
  have inside := AList.mem_lookup_iff.mp found
  exact List.mem_map.mpr ⟨⟨ip, entry⟩,
    List.mem_filter.mpr ⟨(call.order.perm _).mem_iff.mpr inside, due⟩, rfl⟩

/-- Under a clock that does not go back the age is the difference. -/
theorem isDue_iff {age timestampNow : Nat} {entry : PendingEntry} (past : entry.2.1 ≤ timestampNow)
    (small : timestampNow < 2 ^ 64) :
    isDue age timestampNow entry = true ↔
      entry.2.1 + age < timestampNow ∨ entry.2.2.mac ≠ unknownMac := by
  have exact : wrappingSub 64 timestampNow entry.2.1 = timestampNow - entry.2.1 := by
    unfold wrappingSub
    rw [← Nat.cast_sub past]
    exact ofInt_natCast (by omega)
  unfold isDue
  rw [exact, Bool.or_eq_true, decide_eq_true_iff, decide_eq_true_iff]
  refine or_congr ?_ Iff.rfl
  omega

/-! ### Runs -/

/-- The data server with its clock, and the requests since the cache was last cleared. -/
structure ClientRun where
  server : DataServer
  clock : Nat := 0
  requests : List DnsRequest := []
  stopped : Bool := false

inductive ClientEvent where
  | batch (call : HandleCall) (reqList : List DnsRequest)
  | flushTick (call : FlushCall)
  | shutdown (call : FlushCall)

def ClientEvent.time : ClientEvent → Nat
  | batch call _ => call.timestampNow
  | flushTick call => call.timestampNow
  | shutdown call => call.timestampNow

/-- One event; the clock is a 64-bit integer and does not go back. -/
def clientStep (state : ClientRun) (event : ClientEvent) : Option ClientRun :=
  if state.stopped = false ∧ state.clock ≤ event.time ∧ event.time < 2 ^ 64 then
    match event with
    | .batch call reqList =>
        some { state with
          server := handleDnsRequest call reqList state.server
          clock := call.timestampNow
          requests := sinceCleared reqList state.server.macCache state.requests }
    | .flushTick call =>
        some { state with server := flushDue call state.server, clock := call.timestampNow }
    | .shutdown call =>
        some { state with
          server := flushAll call state.server, clock := call.timestampNow, stopped := true }
  else none

/-- The rows that an event hands on to be stored. -/
def emitted (state : ClientRun) : ClientEvent → List ClientData
  | .batch call reqList => dueClients call reqList state.server
  | .flushTick call => (takeDue 10000 call state.server.clientPendingList).1
  | .shutdown call => (call.order.enumerate state.server.clientPendingList.entries).map (·.2.2)

/-- A client of which a request carried an address is not pending, and its row has one. -/
def IsAttributed (state next : ClientRun) (event : ClientEvent) (ip : Text) : Prop :=
  ip ∉ next.server.clientPendingList ∧
    (∃ data ∈ emitted state event, data.clientIp = ip) ∧
    ∀ data ∈ emitted state event, data.clientIp = ip →
      data.mac ≠ unknownMac ∧ ∃ req ∈ next.requests, req.remoteAddr = ip ∧ req.macStr = data.mac

/-- The client has waited for longer than an age in the pending list. -/
def WaitedLonger (state : ClientRun) (age now : Nat) (ip : Text) : Prop :=
  ∃ entry, state.server.clientPendingList.lookup ip = some entry ∧ entry.1 + age < now

/-- What is said of one event. -/
structure Attributes (state : ClientRun) (event : ClientEvent) (next : ClientRun) : Prop where
  attributed : ∀ call reqList, event = .batch call reqList → ∀ req ∈ reqList,
    req.isHandled = true →
    (∃ other ∈ next.requests, other.remoteAddr = req.remoteAddr ∧ other.macStr ≠ unknownMac) →
    IsAttributed state next event req.remoteAddr
  pending : ∀ call reqList, event = .batch call reqList → ∀ ip entry,
    next.server.clientPendingList.lookup ip = some entry →
    entry.2.mac = unknownMac ∧ entry.1 ≤ next.clock ∧ next.clock ≤ entry.1 + 3000
  unknown : ∀ data ∈ emitted state event, data.mac = unknownMac →
    match event with
    | .batch call _ => WaitedLonger state 3000 call.timestampNow data.clientIp
    | .flushTick call => WaitedLonger state 10000 call.timestampNow data.clientIp
    | .shutdown _ => True

/-- What holds in every state of a run. -/
structure ClientRun.Invariant (state : ClientRun) : Prop where
  cached : IsCacheOf state.requests state.server.macCache
  labelled : Labelled state.server.clientPendingList
  waiting : ∀ ip entry, state.server.clientPendingList.lookup ip = some entry →
    entry.2.mac = unknownMac ∧ entry.1 ≤ state.clock

/-! ### One event -/

section Batch

variable {state : ClientRun} {call : HandleCall} {reqList : List DnsRequest}

theorem ClientRun.Invariant.noted_past (invariant : state.Invariant)
    (past : state.clock ≤ call.timestampNow) {ip : Text} {entry : Nat × ClientData}
    (found : (notedClients call reqList state.server).lookup ip = some entry) :
    entry.1 ≤ call.timestampNow := by
  rw [firstSeen_foldl_notePending found]
  cases waits : state.server.clientPendingList.lookup ip with
  | none => exact le_rfl
  | some old => exact (invariant.waiting ip old waits).2.trans past

/-- What is still pending after a batch has no address and is not old. -/
theorem ClientRun.Invariant.pending_batch (invariant : state.Invariant)
    (past : state.clock ≤ call.timestampNow) (small : call.timestampNow < 2 ^ 64) {ip : Text}
    {entry : Nat × ClientData}
    (found : (handleDnsRequest call reqList state.server).clientPendingList.lookup ip =
      some entry) :
    entry.2.mac = unknownMac ∧ entry.1 ≤ call.timestampNow ∧
      call.timestampNow ≤ entry.1 + 3000 := by
  obtain ⟨noted, notDue⟩ := lookup_takeDue_snd found
  have seen := invariant.noted_past past noted
  rw [Bool.eq_false_iff, ne_eq, isDue_iff seen small, not_or, not_lt, not_not] at notDue
  exact ⟨notDue.2, seen, notDue.1⟩

theorem ClientRun.Invariant.attributed_batch (invariant : state.Invariant) {req : DnsRequest}
    (listed : req ∈ reqList) (handled : req.isHandled = true)
    (known : ∃ other ∈ sinceCleared reqList state.server.macCache state.requests,
      other.remoteAddr = req.remoteAddr ∧ other.macStr ≠ unknownMac) :
    req.remoteAddr ∉ (handleDnsRequest call reqList state.server).clientPendingList ∧
      (∃ data ∈ dueClients call reqList state.server, data.clientIp = req.remoteAddr) ∧
      ∀ data ∈ dueClients call reqList state.server, data.clientIp = req.remoteAddr →
        data.mac ≠ unknownMac ∧
          ∃ other ∈ sinceCleared reqList state.server.macCache state.requests,
            other.remoteAddr = req.remoteAddr ∧ other.macStr = data.mac := by
  have cached := invariant.cached.fillMacCache reqList
  have labelled : Labelled (notedClients call reqList state.server) :=
    labelled_foldl_notePending invariant.labelled _
  have reqHandled := List.mem_filter.mpr ⟨listed, handled⟩
  -- every handled request of the client finds an address, so its entry has one
  have good : ∀ entry, (notedClients call reqList state.server).lookup req.remoteAddr =
      some entry → entry.2.mac ≠ unknownMac ∧
        ∃ other ∈ sinceCleared reqList state.server.macCache state.requests,
          other.remoteAddr = req.remoteAddr ∧ other.macStr = entry.2.mac := by
    refine @mac_foldl_notePending _ _ (fun mac => mac ≠ unknownMac ∧
      ∃ other ∈ sinceCleared reqList state.server.macCache state.requests,
        other.remoteAddr = req.remoteAddr ∧ other.macStr = mac) _ _
      (fun other listedOther same => ?_) _ (.inl ⟨req, reqHandled, rfl⟩)
    rw [← same] at known ⊢
    have found := cached.foundMac_eq
      (List.mem_append_right _ (List.mem_of_mem_filter listedOther)) known
    exact ⟨found.1, found⟩
  have gone : req.remoteAddr ∉
      (handleDnsRequest call reqList state.server).clientPendingList := by
    intro waits
    obtain ⟨entry, found⟩ := Option.isSome_iff_exists.mp (AList.lookup_isSome.mpr waits)
    obtain ⟨noted, notDue⟩ := lookup_takeDue_snd found
    have known := (good entry noted).1
    simp [isDue, known] at notDue
  refine ⟨gone, ?_, fun data taken same => ?_⟩
  · have noted : req.remoteAddr ∈ notedClients call reqList state.server :=
      mem_foldl_notePending.mpr (.inl ⟨req, reqHandled, rfl⟩)
    exact (mem_takeDue labelled 3000 call.toFlushCall noted).resolve_left gone
  · obtain ⟨firstSeen, found, -⟩ := mem_takeDue_fst labelled taken
    rw [same] at found
    exact good _ found

theorem ClientRun.Invariant.unknown_batch (invariant : state.Invariant)
    (past : state.clock ≤ call.timestampNow) (small : call.timestampNow < 2 ^ 64)
    {data : ClientData} (taken : data ∈ dueClients call reqList state.server)
    (unknown : data.mac = unknownMac) :
    WaitedLonger state 3000 call.timestampNow data.clientIp := by
  have labelled : Labelled (notedClients call reqList state.server) :=
    labelled_foldl_notePending invariant.labelled _
  obtain ⟨firstSeen, found, due⟩ := mem_takeDue_fst labelled taken
  rw [isDue_iff (invariant.noted_past past found) small,
    or_iff_left (not_not.mpr unknown)] at due
  have first := firstSeen_foldl_notePending found
  cases waits : state.server.clientPendingList.lookup data.clientIp with
  | none =>
      simp only [waits, Option.map_none, Option.getD_none] at first due
      omega
  | some entry =>
      simp only [waits, Option.map_some, Option.getD_some] at first due
      rw [first] at due
      exact ⟨entry, waits, due⟩

end Batch

theorem ClientRun.Invariant.unknown_flush {state : ClientRun} {call : FlushCall}
    (invariant : state.Invariant) (past : state.clock ≤ call.timestampNow)
    (small : call.timestampNow < 2 ^ 64) {data : ClientData}
    (taken : data ∈ (takeDue 10000 call state.server.clientPendingList).1)
    (unknown : data.mac = unknownMac) :
    WaitedLonger state 10000 call.timestampNow data.clientIp := by
  obtain ⟨firstSeen, found, due⟩ := mem_takeDue_fst invariant.labelled taken
  have seen := (invariant.waiting _ _ found).2.trans past
  rw [isDue_iff seen small, or_iff_left (not_not.mpr unknown)] at due
  exact ⟨_, found, due⟩

theorem invariant_step {state next : ClientRun} {event : ClientEvent}
    (invariant : state.Invariant) (stepped : clientStep state event = some next) :
    next.Invariant ∧ Attributes state event next := by
  unfold clientStep at stepped
  split_ifs at stepped with possible
  obtain ⟨-, past, small⟩ := possible
  cases event with
  | batch call reqList =>
      rw [ClientEvent.time] at past small
      cases stepped
      have pending := fun ip entry => @ClientRun.Invariant.pending_batch state call reqList
        invariant past small ip entry
      refine ⟨⟨invariant.cached.fillMacCache reqList,
        labelled_takeDue (labelled_foldl_notePending invariant.labelled _) _ _,
        fun ip entry found => ?_⟩, ?_, ?_, fun data taken unknown => ?_⟩
      · exact ⟨(pending ip entry found).1, (pending ip entry found).2.1⟩
      · rintro _ _ ⟨⟩ req listed handled known
        exact invariant.attributed_batch listed handled known
      · rintro _ _ ⟨⟩ ip entry found
        exact pending ip entry found
      · exact invariant.unknown_batch past small taken unknown
  | flushTick call =>
      rw [ClientEvent.time] at past small
      cases stepped
      refine ⟨⟨invariant.cached, labelled_takeDue invariant.labelled _ _,
        fun ip entry found => ?_⟩, (fun _ _ other => nomatch other), (fun _ _ other => nomatch other),
        fun data taken unknown => ?_⟩
      · have waits := invariant.waiting ip entry (lookup_takeDue_snd found).1
        exact ⟨waits.1, waits.2.trans past⟩
      · exact invariant.unknown_flush past small taken unknown
  | shutdown call =>
      cases stepped
      refine ⟨⟨invariant.cached, labelled_empty, fun ip entry found => ?_⟩,
        (fun _ _ other => nomatch other),
        (fun _ _ other => nomatch other), fun _ _ _ => trivial⟩
      change AList.lookup ip (∅ : ClientPendingList) = some entry at found
      rw [AList.lookup_empty] at found
      cases found

/-- The data server at the start of a run: the cache and the pending list are empty. -/
def clientStart (server : DataServer) : ClientRun where
  server := { server with macCache := ∅, clientPendingList := ∅ }

theorem invariant_clientStart (server : DataServer) : (clientStart server).Invariant := by
  refine ⟨isCacheOf_empty, labelled_empty, fun ip entry found => ?_⟩
  change AList.lookup ip (∅ : ClientPendingList) = some entry at found
  rw [AList.lookup_empty] at found
  cases found

/-- Every event of every run attributes the addresses. -/
theorem attributes_run {server : DataServer} {events : List ClientEvent} {state next : ClientRun}
    {event : ClientEvent} (runs : run clientStep (clientStart server) events = some state)
    (stepped : clientStep state event = some next) : Attributes state event next := by
  have invariant := invariant_of_run
    (fun (before : ClientRun) _ _ (held : before.Invariant) step => (invariant_step held step).1)
    (invariant_clientStart server) runs
  exact (invariant_step invariant stepped).2

/-- A request of the same client that comes without its hardware address. -/
def namelessRequest : DnsRequest := { sampleRequest with remoteMac := #v[0, 0, 0, 0, 0, 0] }

def laterCall : HandleCall where
  toFlushCall := { sampleFlush with timestampNow := sampleFlush.timestampNow + 1000 }
  offset := utc

/-- A client waits without a hardware address.  One of its next two requests carries it, and the
other one finds it in the cache. -/
theorem attributes_run_example : ∃ state next,
    run clientStep (clientStart {}) [.batch sampleCall [namelessRequest]] = some state ∧
      ("10.0.0.2" : Text) ∈ state.server.clientPendingList ∧
      clientStep state (.batch laterCall [sampleRequest, namelessRequest]) = some next ∧
      IsAttributed state next (.batch laterCall [sampleRequest, namelessRequest]) "10.0.0.2" := by
  refine ⟨_, _, rfl, by decide, rfl, ?_⟩
  have attributes := @attributes_run {} [.batch sampleCall [namelessRequest]] _ _
    (.batch laterCall [sampleRequest, namelessRequest]) rfl rfl
  apply attributes.attributed _ _ rfl namelessRequest (List.mem_cons_of_mem _ List.mem_cons_self)
  · rfl
  · refine ⟨sampleRequest, ?_, rfl, by decide⟩
    decide

end SmartDnsPlusUi
