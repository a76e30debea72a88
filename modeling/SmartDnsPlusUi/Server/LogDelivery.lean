import SmartDnsPlusUi.Server.StreamTraffic

/-!
# What a subscriber receives

What a subscriber takes is in the order in which it was sent to the subscriber, each dispatch
sends to it at most once, and nothing is missing where the queue always had room and no removal
was overtaken.
-/

namespace SmartDnsPlusUi

open Run

variable {Message : Type}

/-! ### A stream that keeps up -/

/-- The receiver stays open, and there is room when a message comes. -/
def KeepsUp (id : Nat) (shared : SharedLog Message) : SharedEvent Message → Prop
  | .closeReceiver other => other ≠ id
  | .sendsNext dispatch => ∀ loop stream, shared.reached dispatch = some (loop, stream) →
      stream.id = id → stream.queue.length < streamCapacity
  | _ => True

/-- A removal phase comes while no other dispatch holds an index that is not below all those
removed. -/
def RemovesInOrder (shared : SharedLog Message) : SharedEvent Message → Prop
  | .removalPhase dispatch => DoesNotOvertake shared.log (.removalPhase dispatch)
  | _ => True

/-- Every index noted, also by the dispatches that are sending, stands for a closed stream. -/
structure NotesClosed (shared : SharedLog Message) : Prop where
  consistent : IsConsistent shared.log
  ascending : ∀ loop ∈ shared.sending, loop.removeList.Pairwise (· < ·)
  behind : ∀ loop ∈ shared.sending, ∀ index ∈ loop.removeList, index < loop.next
  closed : ∀ loop ∈ shared.sending, ∀ index ∈ loop.removeList, ClosedAt shared.log.streams index

section

variable {shared next : SharedLog Message} {event : SharedEvent Message}
variable {stream : LogStream Message}

theorem NotesClosed.of_streams (notes : NotesClosed shared) {log : ServerLog Message}
    (consistent : IsConsistent log)
    (keeps : ∀ index, ClosedAt shared.log.streams index → ClosedAt log.streams index) :
    NotesClosed { shared with log } :=
  ⟨consistent, notes.ascending, notes.behind,
    fun loop among index noted => keeps index (notes.closed loop among index noted)⟩

theorem closedAt_set {streams : List (LogStream Message)} {place index : Nat}
    (found : streams[place]? = some stream) {later : LogStream Message}
    (keeps : stream.isOpen = false → later.isOpen = false) (closed : ClosedAt streams index) :
    ClosedAt (streams.set place later) index := by
  obtain ⟨other, there, notOpen⟩ := closed
  by_cases here : place = index
  · subst here
    rw [found] at there
    obtain rfl := Option.some.inj there
    exact ⟨later, List.getElem?_set_self (List.getElem?_eq_some_iff.mp found).1, keeps notOpen⟩
  · exact ⟨other, by rw [List.getElem?_set_ne here, there], notOpen⟩

theorem NotesClosed.sends (notes : NotesClosed shared) {loop : SendLoop Message}
    (among : loop ∈ shared.sending) (found : shared.log.streams[loop.next]? = some stream) :
    NotesClosed (shared.send loop stream) := by
  have keeps : ∀ index, ClosedAt shared.log.streams index →
      ClosedAt (shared.send loop stream).log.streams index := fun index =>
    closedAt_set found fun notOpen => (isOpen_trySend stream loop.msg).trans notOpen
  have noted : ∀ later ∈ (shared.send loop stream).sending, later ∈ shared.sending ∨
      later.removeList = loop.removeList ∧ later.next = loop.next + 1 ∨
      later.removeList = loop.removeList ++ [loop.next] ∧ later.next = loop.next + 1 ∧
        stream.isOpen = false := by
    intro later listed
    obtain ⟨before, stood, rfl⟩ := List.mem_map.mp listed
    by_cases own : before.dispatch = loop.dispatch
    · rw [if_pos own]
      right
      by_cases closed : (trySend stream loop.msg).2 = .closed
      · exact .inr ⟨if_pos closed, rfl, (trySend_closed_iff stream loop.msg).mp closed⟩
      · exact .inl ⟨if_neg closed, rfl⟩
    · rw [if_neg own]
      exact .inl stood
  refine ⟨notes.consistent.update shared.log.nextId keeps, ?_, ?_, ?_⟩
  · intro later listed
    rcases noted later listed with before | ⟨same, -⟩ | ⟨longer, -⟩
    · exact notes.ascending later before
    · exact same ▸ notes.ascending loop among
    · rw [longer, List.pairwise_append]
      refine ⟨notes.ascending loop among, List.pairwise_singleton _ _, ?_⟩
      intro index held other last
      exact List.mem_singleton.mp last ▸ notes.behind loop among index held
  · intro later listed index held
    rcases noted later listed with before | ⟨same, further⟩ | ⟨longer, further, -⟩
    · exact notes.behind later before index held
    · rw [further]
      exact Nat.lt_succ_of_lt (notes.behind loop among index (same ▸ held))
    · rw [further]
      rcases List.mem_append.mp (longer ▸ held) with earlier | last
      · exact Nat.lt_succ_of_lt (notes.behind loop among index earlier)
      · exact List.mem_singleton.mp last ▸ Nat.lt_succ_self _
  · intro later listed index held
    apply keeps
    rcases noted later listed with before | ⟨same, -⟩ | ⟨longer, -, notOpen⟩
    · exact notes.closed later before index held
    · exact notes.closed loop among index (same ▸ held)
    · rcases List.mem_append.mp (longer ▸ held) with earlier | last
      · exact notes.closed loop among index earlier
      · exact List.mem_singleton.mp last ▸ ⟨stream, found, notOpen⟩

theorem NotesClosed.ends (notes : NotesClosed shared) {loop : SendLoop Message}
    (among : loop ∈ shared.sending) : NotesClosed (shared.release loop) := by
  have pending : ∀ dispatch ∈ (shared.release loop).log.pending,
      dispatch ∈ shared.log.pending ∨ dispatch = (loop.dispatch, loop.removeList) := by
    intro dispatch listed
    dsimp only [SharedLog.release] at listed
    split at listed
    · exact .inl listed
    · exact (List.mem_append.mp listed).imp_right List.mem_singleton.mp
  refine ⟨⟨⟨notes.consistent.safe.closed, notes.consistent.safe.in_range⟩, ?_, ?_⟩, ?_, ?_, ?_⟩
  · intro dispatch listed
    rcases pending dispatch listed with before | rfl
    · exact notes.consistent.ascending dispatch before
    · exact notes.ascending loop among
  · intro dispatch listed index held
    rcases pending dispatch listed with before | rfl
    · exact notes.consistent.closed dispatch before index held
    · exact notes.closed loop among index held
  · exact fun other listed => notes.ascending other (List.mem_of_mem_filter listed)
  · exact fun other listed => notes.behind other (List.mem_of_mem_filter listed)
  · exact fun other listed => notes.closed other (List.mem_of_mem_filter listed)

theorem NotesClosed.step (notes : NotesClosed shared) (inOrder : RemovesInOrder shared event)
    (stepped : shared.step event = some next) : NotesClosed next := by
  have consistent := notes.consistent
  cases steps_of_step stepped with
  | subscribes quiet =>
      exact notes.of_streams (consistent.update _ fun index closed => closedAt_append closed _)
        fun index closed => closedAt_append closed _
  | closes id =>
      have keeps : ∀ index, ClosedAt shared.log.streams index →
          ClosedAt (updateStream id LogStream.closed shared.log.streams) index :=
        fun _ => closedAt_updateStream fun _ _ => rfl
      exact notes.of_streams (consistent.update _ keeps) keeps
  | takes id =>
      have keeps : ∀ index, ClosedAt shared.log.streams index →
          ClosedAt (updateStream id LogStream.taken shared.log.streams) index :=
        fun _ => closedAt_updateStream (f := LogStream.taken) fun _ notOpen => notOpen
      refine notes.of_streams ⟨⟨?_, consistent.safe.in_range⟩, consistent.ascending, ?_⟩ keeps
      · intro stream listed
        obtain ⟨before, among, rfl⟩ := List.mem_map.mp listed
        split
        · exact consistent.safe.closed before among
        · exact consistent.safe.closed before among
      · exact fun dispatch among index held => keeps index (consistent.closed dispatch among index held)
  | begins msg =>
      refine ⟨consistent, ?_, ?_, ?_⟩
      · intro loop among
        rcases mem_sending_begin among with before | rfl
        · exact notes.ascending loop before
        · exact List.Pairwise.nil
      · intro loop among index held
        rcases mem_sending_begin among with before | rfl
        · exact notes.behind loop before index held
        · cases held
      · intro loop among index held
        rcases mem_sending_begin among with before | rfl
        · exact notes.closed loop before index held
        · cases held
  | sends loop stream among found _ => exact notes.sends among found
  | ends loop among _ => exact notes.ends among
  | removes dispatch log quiet removed =>
      refine ⟨consistent.removalPhase inOrder removed, ?_, ?_, ?_⟩
      · exact fun loop among => absurd quiet (List.ne_nil_of_mem among)
      · exact fun loop among => absurd quiet (List.ne_nil_of_mem among)
      · exact fun loop among => absurd quiet (List.ne_nil_of_mem among)

/-- A stream that is open stays in the list, and gets the message that is sent to it if it has
room. -/
theorem goesOn_of_keepsUp (own : HasOwnIds shared) (notes : NotesClosed shared)
    (inOrder : RemovesInOrder shared event) (stepped : shared.step event = some next)
    (there : stream ∈ shared.log.streams) (isOpen : stream.isOpen = true)
    (keepsUp : KeepsUp stream.id shared event) :
    ∃ later ∈ next.log.streams, later.isOpen = true ∧
      GoesOn shared event stream later ((sentAt stream.id shared event).map Prod.snd) := by
  have safe := (notes.step inOrder stepped).consistent.safe
  cases steps_of_step stepped with
  | subscribes quiet =>
      exact ⟨stream, List.mem_append_left _ there, isOpen, goesOn_of_queue rfl rfl rfl⟩
  | closes id =>
      refine ⟨_, mem_updateStream id LogStream.closed there, ?_⟩
      rw [if_neg (Ne.symm keepsUp)]
      exact ⟨isOpen, goesOn_of_queue rfl rfl rfl⟩
  | takes id =>
      refine ⟨_, mem_updateStream id LogStream.taken there, ?_⟩
      split
      · rename_i same
        exact ⟨isOpen, same ▸ goesOn_take own (List.mem_append_left _ there)⟩
      · rename_i other
        exact ⟨isOpen, goesOn_of_queue rfl rfl (if_neg fun same => other same.symm)⟩
  | begins msg => exact ⟨stream, there, isOpen, goesOn_of_queue rfl rfl rfl⟩
  | sends loop other _ found reached =>
      obtain ⟨later, among, added, goesOn, same, all⟩ := exists_of_send own there found reached
      have everything := all isOpen fun equal => by
        have room := keepsUp loop other reached equal.symm
        have still := List.mem_append_left shared.log.removed (List.mem_of_getElem? found)
        rwa [own.eq_of_id (List.mem_append_left _ there) still equal.symm] at room
      exact ⟨later, among, same.trans isOpen, everything ▸ goesOn⟩
  | ends loop _ _ => exact ⟨stream, there, isOpen, goesOn_of_queue rfl rfl rfl⟩
  | removes dispatch log _ removed =>
      have known := (removalPhase_perm removed).1.mem_iff.mpr (List.mem_append_left _ there)
      rcases List.mem_append.mp known with kept | gone
      · exact ⟨stream, kept, isOpen, goesOn_of_queue rfl rfl rfl⟩
      · have closed := safe.closed stream gone
        rw [isOpen] at closed
        cases closed

end

/-! ### Runs -/

section

variable {start final : SharedLog Message} {events : List (SharedEvent Message)}
variable {id : Nat} {stream : LogStream Message}

theorem hasOwnIds_of_run (own : HasOwnIds start) (runs : run SharedLog.step start events = some final) :
    HasOwnIds final :=
  invariant_of_run (fun _ _ _ own stepped => own.step stepped) own runs

theorem hasOwnIds_empty : HasOwnIds ({} : SharedLog Message) := ⟨List.nodup_nil, nofun⟩

theorem notesClosed_empty : NotesClosed ({} : SharedLog Message) :=
  ⟨⟨⟨nofun, rfl⟩, nofun, nofun⟩, nofun, nofun, nofun⟩

/-- What was taken and what is left follow the queue of before with some of the messages sent to
the stream, in their order. -/
def KeepsOrder (stream : LogStream Message) (start : SharedLog Message)
    (events : List (SharedEvent Message)) (final : SharedLog Message) : Prop :=
  ∃ last ∈ final.known, last.id = stream.id ∧
    ∃ added, added.Sublist ((sentTo stream.id start events).map Prod.snd) ∧
      stream.queue ++ added = takenBy stream.id start events ++ last.queue

theorem keepsOrder_of_run (own : HasOwnIds start) (there : stream ∈ start.known)
    (runs : run SharedLog.step start events = some final) :
    KeepsOrder stream start events final := by
  refine history_of_run (KeepsOrder stream start) ?_ ?_ runs
  · exact ⟨stream, there, rfl, [], List.nil_sublist _, List.append_nil _⟩
  · intro past event middle next before ⟨last, among, same, added, sent, queue⟩ stepped
    obtain ⟨later, still, more, goesOn⟩ :=
      exists_goesOn (hasOwnIds_of_run own before) stepped among
    refine ⟨later, still, goesOn.id.trans same, added ++ more, ?_, ?_⟩
    · rw [sentTo, observed_concat before, List.map_append]
      exact sent.append (same ▸ goesOn.sent)
    · rw [takenBy, observed_concat before, List.append_assoc, ← same, ← goesOn.queue,
        ← List.append_assoc, queue, same, List.append_assoc]
      rfl

theorem tracks_of_run (own : HasOwnIds start) (quiet : start.sending = [])
    (runs : run SharedLog.step start events = some final) :
    TracksSends id (sentTo id start events) (begunIn start events) final := by
  refine history_of_run
    (fun past middle => TracksSends id (sentTo id start past) (begunIn start past) middle) ?_ ?_ runs
  · refine ⟨nofun, List.nodup_nil, List.nodup_nil, nofun, ?_, ?_⟩
    · exact fun loop among => absurd quiet (List.ne_nil_of_mem among)
    · exact fun loop among => absurd quiet (List.ne_nil_of_mem among)
  · intro past event middle next before tracks stepped
    rw [sentTo, begunIn, observed_concat before, observed_concat before]
    exact tracks.step (hasOwnIds_of_run own before) stepped

/-- The dispatches that were sending, and those that begin later. -/
def IsUnderWay (middle : SharedLog Message) (dispatch : Nat) : Prop :=
  (∃ loop ∈ middle.sending, loop.dispatch = dispatch) ∨ middle.nextDispatch ≤ dispatch

/-- A dispatch that has ended sends nothing more. -/
structure SendsUnderWay (id : Nat) (start : SharedLog Message)
    (events : List (SharedEvent Message)) (final : SharedLog Message) : Prop where
  numbers : start.nextDispatch ≤ final.nextDispatch
  loops : ∀ loop ∈ final.sending, IsUnderWay start loop.dispatch
  sent : ∀ entry ∈ sentTo id start events, IsUnderWay start entry.1

theorem sendsUnderWay_of_run (runs : run SharedLog.step start events = some final) :
    SendsUnderWay id start events final := by
  refine history_of_run (SendsUnderWay id start) ?_ ?_ runs
  · exact ⟨Nat.le_refl _, fun loop among => .inl ⟨loop, among, rfl⟩, nofun⟩
  · intro past event middle next before ⟨numbers, loops, sent⟩ stepped
    have kept : sentAt id middle event = [] →
        ∀ entry ∈ sentTo id start (past ++ [event]), IsUnderWay start entry.1 := by
      intro nothing
      rw [sentTo, observed_concat before, nothing, List.append_nil]
      exact sent
    cases steps_of_step stepped with
    | subscribes _ | closes _ | takes _ | removes _ _ _ _ => exact ⟨numbers, loops, kept rfl⟩
    | begins msg =>
        refine ⟨Nat.le_succ_of_le numbers, ?_, kept rfl⟩
        intro loop among
        rcases mem_sending_begin among with earlier | rfl
        · exact loops loop earlier
        · exact .inr numbers
    | sends loop stream among _ reached =>
        refine ⟨numbers, ?_, ?_⟩
        · intro later listed
          rcases mem_sending_send listed with ⟨earlier, -⟩ | ⟨number, -, -⟩
          · exact loops later earlier
          · exact number ▸ loops loop among
        · intro entry listed
          rw [sentTo, observed_concat before, List.mem_append] at listed
          rcases listed with earlier | now
          · exact sent entry earlier
          · simp only [sentAt, reached] at now
            split at now
            · rw [List.mem_singleton.mp now]
              exact loops loop among
            · cases now
    | ends loop _ _ =>
        exact ⟨numbers, fun other among => loops other (List.mem_of_mem_filter among), kept rfl⟩

/-- Dispatches that do not overlap send in their order. -/
theorem pairwise_sentTo (own : HasOwnIds start) (quiet : start.sending = [])
    (runs : run SharedLog.step start events = some final) :
    (sentTo id start events).Pairwise fun earlier later =>
      ¬ EndsBefore start events later.1 earlier.1 := by
  rw [List.pairwise_iff_forall_sublist]
  rintro earlier later sublist ⟨past, future, middle, rfl, before, given, ended, begun⟩
  rw [run_append, before, Option.bind_some] at runs
  rw [sentTo, observed_append before] at sublist
  obtain ⟨front, back, joined, inPast, inFuture⟩ := List.sublist_append_iff.mp sublist
  have tracks : TracksSends id (sentTo id start past) (begunIn start past) middle :=
    tracks_of_run own quiet before
  cases front with
  | nil =>
      rw [List.nil_append] at joined
      have among : later ∈ sentTo id middle future :=
        inFuture.subset (joined ▸ List.mem_cons_of_mem _ List.mem_cons_self)
      rcases (sendsUnderWay_of_run runs).sent later among with ⟨loop, sending, same⟩ | after
      · exact ended loop sending same
      · omega
  | cons first front =>
      obtain rfl := List.head_eq_of_cons_eq joined
      have among := tracks.sent_begun earlier (inPast.subset List.mem_cons_self)
      have low := tracks.numbered earlier among
      omega

/-- The stream is open, and everything sent to it is taken or left for it. -/
def IsUpToDate (stream : LogStream Message) (start : SharedLog Message)
    (events : List (SharedEvent Message)) (final : SharedLog Message) : Prop :=
  ∃ last ∈ final.log.streams, last.id = stream.id ∧ last.isOpen = true ∧
    stream.queue ++ (sentTo stream.id start events).map Prod.snd =
      takenBy stream.id start events ++ last.queue ∧
    HasReached (sentTo stream.id start events) (begunIn start events) final

theorem isUpToDate_of_keepsUp (own : HasOwnIds start) (notes : NotesClosed start)
    (quiet : start.sending = []) (there : stream ∈ start.log.streams) (isOpen : stream.isOpen = true)
    (inOrder : Throughout SharedLog.step RemovesInOrder start events)
    (keepsUp : Throughout SharedLog.step (KeepsUp stream.id) start events)
    (runs : run SharedLog.step start events = some final) :
    IsUpToDate stream start events final := by
  refine (history_of_throughout (fun past middle =>
    NotesClosed middle ∧ IsUpToDate stream start past middle) ?_ ?_ (inOrder.and keepsUp) runs).2
  · exact ⟨notes, stream, there, rfl, isOpen, List.append_nil _, nofun⟩
  · intro past event middle next before ⟨notes, last, among, same, stillOpen, queue, reaches⟩
      meets stepped
    obtain ⟨later, still, open', goesOn⟩ := goesOn_of_keepsUp (hasOwnIds_of_run own before) notes
      meets.1 stepped among stillOpen (same ▸ meets.2)
    refine ⟨notes.step meets.1 stepped, later, still, goesOn.id.trans same, open', ?_, ?_⟩
    · rw [sentTo, takenBy, observed_concat before, observed_concat before, List.map_append,
        List.append_assoc, ← same, ← goesOn.queue, ← List.append_assoc, ← List.append_assoc, same]
      exact congrArg (· ++ _) queue
    · rw [sentTo, begunIn, observed_concat before, observed_concat before]
      exact reaches.step (tracks_of_run own quiet before) among same stepped

/-- What a subscriber receives is a part of what is sent to it, in this order.  Every dispatch
since it subscribed sends to it at most once, and a dispatch that ended before another one began
comes before it. -/
structure IsDelivery (id : Nat) (start : SharedLog Message) (events : List (SharedEvent Message))
    (final : SharedLog Message) : Prop where
  received : ∃ last ∈ final.known, last.id = id ∧
    (takenBy id start events ++ last.queue).Sublist ((sentTo id start events).map Prod.snd)
  once : (sentTo id start events).Subperm (begunIn start events)
  ordered : (sentTo id start events).Pairwise fun earlier later =>
    ¬ EndsBefore start events later.1 earlier.1

/-- The subscriber receives all that is sent to it, which is everything that was dispatched once
no dispatch is sending. -/
structure IsComplete (id : Nat) (start : SharedLog Message) (events : List (SharedEvent Message))
    (final : SharedLog Message) : Prop where
  received : ∃ last ∈ final.log.streams, last.id = id ∧ last.isOpen = true ∧
    takenBy id start events ++ last.queue = (sentTo id start events).map Prod.snd
  all : final.sending = [] → (sentTo id start events).Perm (begunIn start events)

/-- For every interleaving of subscriptions, dispatches that send to one stream after another,
removals, receivers that read and receivers that close: what a subscriber takes, and what it
still can take, are messages dispatched since it subscribed, in the order in which they were sent
to it, none of them twice and the dispatches that do not overlap in their order.  They are all of
these messages, and the subscriber is not removed, if it stays open and its queue has room when a
message comes, and no removal overtakes another dispatch. -/
theorem delivers_of_run {before after : List (SharedEvent Message)}
    {shared subscribed final : SharedLog Message}
    (starts : run SharedLog.step {} before = some shared)
    (subscribes : shared.step .getLogStream = some subscribed)
    (runs : run SharedLog.step subscribed after = some final) :
    IsDelivery shared.log.nextId subscribed after final ∧
      (Throughout SharedLog.step RemovesInOrder {} (before ++ .getLogStream :: after) →
        Throughout SharedLog.step (KeepsUp shared.log.nextId) subscribed after →
        IsComplete shared.log.nextId subscribed after final) := by
  have reaches : run SharedLog.step {} (before ++ [.getLogStream]) = some subscribed := by
    rw [run_append, starts, Option.bind_some, run_cons, subscribes]
    rfl
  have own := hasOwnIds_of_run hasOwnIds_empty reaches
  obtain ⟨quiet, there⟩ : subscribed.sending = [] ∧
      (⟨shared.log.nextId, true, []⟩ : LogStream Message) ∈ subscribed.log.streams := by
    cases steps_of_step subscribes with
    | subscribes quiet => exact ⟨quiet, List.mem_append_right _ List.mem_cons_self⟩
  have tracks : TracksSends shared.log.nextId (sentTo shared.log.nextId subscribed after)
      (begunIn subscribed after) final := tracks_of_run own quiet runs
  constructor
  · obtain ⟨last, among, same, added, sent, queue⟩ :=
      keepsOrder_of_run own (List.mem_append_left _ there) runs
    constructor
    · refine ⟨last, among, same, ?_⟩
      rw [← queue]
      exact sent
    · exact tracks.once.subperm tracks.sent_begun
    · exact pairwise_sentTo own quiet runs
  · intro inOrder keepsUp
    rw [← List.singleton_append, ← List.append_assoc] at inOrder
    obtain ⟨first, later⟩ := inOrder.split reaches
    have notes : NotesClosed subscribed := invariant_of_throughout
      (fun _ _ _ notes inOrder stepped => notes.step inOrder stepped) notesClosed_empty first reaches
    obtain ⟨last, among, same, isOpen, queue, reached⟩ :=
      isUpToDate_of_keepsUp own notes quiet there rfl later keepsUp runs
    refine ⟨⟨last, among, same, isOpen, queue.symm⟩, fun ended => ?_⟩
    apply (tracks.once.subperm tracks.sent_begun).antisymm
    apply List.Nodup.subperm (List.Nodup.of_map _ tracks.distinct)
    intro entry begun
    rcases reached entry begun with sent | ⟨loop, sending, -⟩
    · exact sent
    · exact absurd ended (List.ne_nil_of_mem sending)

end

theorem removesInOrder_of_single {shared : SharedLog Message} {dispatch : Nat}
    {removeList : List Nat} (single : shared.log.pending = [(dispatch, removeList)]) :
    RemovesInOrder shared (.removalPhase dispatch) := by
  intro own _ _ other held different
  rw [single, List.mem_singleton] at held
  exact absurd (congrArg Prod.fst held) different

theorem keepsUp_of_reached {id dispatch : Nat} {shared : SharedLog Message}
    {loop : SendLoop Message} {stream : LogStream Message}
    (reached : shared.reached dispatch = some (loop, stream))
    (room : stream.queue.length < streamCapacity) : KeepsUp id shared (.sendsNext dispatch) := by
  intro other found again _
  rw [reached] at again
  cases again
  exact room

/-- Two dispatches overlap, and the one that comes second to the first stream comes first to the
second stream.  A third one finds the first stream closed and removes it. -/
def overlappingDispatches : List (SharedEvent Nat) :=
  [.begins 7, .begins 8, .sendsNext 0, .sendsNext 1, .sendsNext 1, .sendsNext 0, .ends 0, .ends 1,
    .receive 1, .closeReceiver 0, .begins 9, .sendsNext 2, .sendsNext 2, .ends 2, .removalPhase 2]

def twoStreams : SharedLog Nat :=
  { log := { streams := [⟨0, true, []⟩, ⟨1, true, []⟩], nextId := 2 } }

theorem delivers_of_run_example : ∃ final,
    run SharedLog.step twoStreams overlappingDispatches = some final ∧
      takenBy 1 twoStreams overlappingDispatches = [8] ∧
      (sentTo 1 twoStreams overlappingDispatches).map Prod.fst = [1, 0, 2] ∧
      IsDelivery 1 twoStreams overlappingDispatches final ∧
      IsComplete 1 twoStreams overlappingDispatches final := by
  have starts : run SharedLog.step ({} : SharedLog Nat) [.getLogStream] =
      some { log := { streams := [⟨0, true, []⟩], nextId := 1 } } := by rfl
  obtain ⟨final, runs⟩ : ∃ final,
      run SharedLog.step twoStreams overlappingDispatches = some final := ⟨_, rfl⟩
  have delivers := @delivers_of_run _ _ _ _ twoStreams _ starts rfl runs
  refine ⟨final, runs, rfl, rfl, delivers.1, delivers.2 ?_ ?_⟩
  · repeat' apply throughout_cons rfl
    all_goals first | trivial | exact removesInOrder_of_single rfl
  · repeat' apply throughout_cons rfl
    all_goals first | trivial | exact keepsUp_of_reached rfl (by decide) | exact Nat.zero_ne_one

end SmartDnsPlusUi
