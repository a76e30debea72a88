import SmartDnsPlusUi.Server.DataServer

/-!
# Accepted requests

Every accepted request is in one of three places, in this order: handed on,
gathered, or in the channel.  The loop leaves what is gathered and what is in the
channel behind when it stops.
-/

namespace SmartDnsPlusUi

open Run

/-- No accepted request is anywhere else, and they are in order. -/
def DataServerLoop.Conserved (state : DataServerLoop) : Prop :=
  state.accepted = state.handed ++ (state.reqList ++ state.server.dataQueue)

/-- Nothing is gathered and nothing is in the channel. -/
def DataServerLoop.Idle (state : DataServerLoop) : Prop :=
  state.reqList ++ state.server.dataQueue = []

/-- When the loop is told to stop it is idle, and from then on no request gets
into the channel: it is a prefetch request, or handling is disabled. -/
def LosesNothing (state : DataServerLoop) : LoopEvent → Prop
  | .sendRequest request => state.phase = .stopping →
      request.isPrefetchRequest = true ∨ state.server.disableHandleRequest = true
  | .stop => state.Idle
  | _ => True

/-! ### One step -/

/-- What `send_request` does to the channel. -/
theorem sendRequest_cases (request : DnsRequest) (closed : Bool) (server : DataServer) :
    ((sendRequest request closed server).1.dataQueue = server.dataQueue ∧
        (sendRequest request closed server).2 ≠ .accepted) ∨
      (request.isPrefetchRequest = false ∧ server.disableHandleRequest = false ∧
        closed = false ∧
        (sendRequest request closed server).1.dataQueue = server.dataQueue ++ [request] ∧
        (sendRequest request closed server).2 = .accepted) := by
  unfold sendRequest
  by_cases prefetch : request.isPrefetchRequest = true
  · rw [if_pos prefetch]
    exact Or.inl ⟨rfl, nofun⟩
  · rw [if_neg prefetch]
    by_cases disabled : server.disableHandleRequest = true
    · simp only [disabled, if_true]
      exact Or.inl ⟨trivial, nofun⟩
    · by_cases room : closed = false ∧ server.dataQueue.length < dataCapacity
      · simp only [disabled, room, if_false, and_self, if_true, Bool.false_eq_true]
        exact Or.inr (by simpa using prefetch)
      · simp only [disabled, if_false, if_neg room, Bool.false_eq_true]
        exact Or.inl ⟨trivial, nofun⟩

/-- A request that reaches an open channel with room is accepted. -/
theorem sendRequest_accepted {request : DnsRequest} {server : DataServer}
    (sent : request.isPrefetchRequest = false) (enabled : server.disableHandleRequest = false)
    (room : server.dataQueue.length < dataCapacity) :
    (sendRequest request false server).2 = .accepted ∧
      (sendRequest request false server).1.dataQueue = server.dataQueue ++ [request] := by
  simp [sendRequest, sent, enabled, room]

theorem handleBatch_conserved {state : DataServerLoop} (call : HandleCall)
    (conserved : state.Conserved) : (state.handleBatch call).Conserved := by
  unfold DataServerLoop.Conserved at conserved ⊢
  simp only [DataServerLoop.handleBatch, handleDnsRequest, List.nil_append, List.append_assoc]
  exact conserved

theorem receive_conserved {state : DataServerLoop} (count : Nat) (conserved : state.Conserved) :
    (state.receive count).Conserved := by
  unfold DataServerLoop.Conserved at conserved ⊢
  simp only [DataServerLoop.receive, List.append_assoc, List.take_append_drop]
  exact conserved

theorem Stepped.conserved {state next : DataServerLoop} {event : LoopEvent}
    (stepped : Stepped state event next) (conserved : state.Conserved) : next.Conserved := by
  cases stepped with
  | sent request =>
      unfold DataServerLoop.Conserved at conserved ⊢
      rcases sendRequest_cases request (decide (state.phase = .returned)) state.server with
        ⟨sameQueue, refused⟩ | ⟨-, -, -, grown, accepted⟩
      · simp only [sameQueue, if_neg refused]
        exact conserved
      · simp only [grown, if_pos accepted, conserved, List.append_assoc]
  | nothing call running => exact conserved
  | gathered count call running small => exact receive_conserved count conserved
  | full count call running bounded received large =>
      exact handleBatch_conserved call (receive_conserved count conserved)
  | fired call running => exact handleBatch_conserved call conserved
  | flushed call running => exact conserved
  | marked freeDiskSpace fails mark running => exact conserved
  | checked freeDiskSpace fails running => exact conserved
  | stopped running => exact conserved
  | returned call stopping => exact conserved

/-- The state of a run that has lost nothing so far. -/
structure DataServerLoop.Clean (state : DataServerLoop) : Prop where
  conserved : state.Conserved
  idle : state.phase ≠ .running → state.Idle

/-- The state of a run in which a request will not be handed on any more. -/
structure DataServerLoop.Stuck (state : DataServerLoop) : Prop where
  conserved : state.Conserved
  stopped : state.phase ≠ .running
  left : ¬ state.Idle

theorem Stepped.clean {state next : DataServerLoop} {event : LoopEvent}
    (stepped : Stepped state event next) (clean : state.Clean) (meets : LosesNothing state event) :
    next.Clean := by
  refine ⟨stepped.conserved clean.conserved, fun notRunning => ?_⟩
  cases stepped with
  | sent request =>
      have idle := clean.idle notRunning
      rcases sendRequest_cases request (decide (state.phase = .returned)) state.server with
        ⟨sameQueue, refused⟩ | ⟨sent, enabled, openChannel, -, -⟩
      · unfold DataServerLoop.Idle at idle ⊢
        simp only [sameQueue]
        exact idle
      · have notReturned := of_decide_eq_false openChannel
        have stopping : state.phase = .stopping := by
          cases phase : state.phase with
          | running => exact absurd phase notRunning
          | stopping => rfl
          | returned => exact absurd phase notReturned
        rcases meets stopping with prefetch | disabled
        · rw [sent] at prefetch
          cases prefetch
        · rw [enabled] at disabled
          cases disabled
  | nothing call running => exact absurd running notRunning
  | gathered count call running small => exact absurd running notRunning
  | full count call running bounded received large => exact absurd running notRunning
  | fired call running => exact absurd running notRunning
  | flushed call running => exact absurd running notRunning
  | marked freeDiskSpace fails mark running => exact absurd running notRunning
  | checked freeDiskSpace fails running => exact absurd running notRunning
  | stopped running => exact meets
  | returned call stopping => exact clean.idle (by rw [stopping]; nofun)

theorem Stepped.stuck {state next : DataServerLoop} {event : LoopEvent}
    (stepped : Stepped state event next) (stuck : state.Stuck) : next.Stuck := by
  have conserved := stepped.conserved stuck.conserved
  have stopped := stuck.stopped
  cases stepped with
  | sent request =>
      refine ⟨conserved, stopped, ?_⟩
      have left := stuck.left
      unfold DataServerLoop.Idle at left ⊢
      rcases sendRequest_cases request (decide (state.phase = .returned)) state.server with
        ⟨sameQueue, -⟩ | ⟨-, -, -, grown, -⟩
      · simp only [sameQueue]
        exact left
      · simp only [grown]
        simp
  | nothing call running => exact absurd running stopped
  | gathered count call running small => exact absurd running stopped
  | full count call running bounded received large => exact absurd running stopped
  | fired call running => exact absurd running stopped
  | flushed call running => exact absurd running stopped
  | marked freeDiskSpace fails mark running => exact absurd running stopped
  | checked freeDiskSpace fails running => exact absurd running stopped
  | stopped running => exact absurd running stopped
  | returned call stopping => exact ⟨conserved, nofun, stuck.left⟩

/-- A step that does not meet the condition leaves a request behind. -/
theorem Stepped.stuck_of_not {state next : DataServerLoop} {event : LoopEvent}
    (stepped : Stepped state event next) (clean : state.Clean)
    (fails : ¬ LosesNothing state event) : next.Stuck := by
  have conserved := stepped.conserved clean.conserved
  cases stepped with
  | sent request =>
      simp only [LosesNothing, Classical.not_imp, not_or] at fails
      obtain ⟨stopping, sent, enabled⟩ := fails
      have idle : state.Idle := clean.idle (by rw [stopping]; nofun)
      have room : state.server.dataQueue.length < dataCapacity := by
        rw [(List.append_eq_nil_iff.mp idle).2]
        decide
      have openChannel : decide (state.phase = .returned) = false := by
        rw [stopping]
        rfl
      have grown := (sendRequest_accepted (Bool.eq_false_iff.mpr sent)
        (Bool.eq_false_iff.mpr enabled) room).2
      refine ⟨conserved, by rw [stopping]; nofun, ?_⟩
      unfold DataServerLoop.Idle
      simp only [openChannel, grown]
      simp
  | stopped running => exact ⟨conserved, nofun, fails⟩
  | nothing call running => exact absurd trivial fails
  | gathered count call running small => exact absurd trivial fails
  | full count call running bounded received large => exact absurd trivial fails
  | fired call running => exact absurd trivial fails
  | flushed call running => exact absurd trivial fails
  | marked freeDiskSpace fails mark running => exact absurd trivial fails
  | checked freeDiskSpace fails running => exact absurd trivial fails
  | returned call stopping => exact absurd trivial fails

/-! ### Runs -/

/-- The loop at the start of a run: the channel and the pending list are empty. -/
def loopStart (server : DataServer) : DataServerLoop where
  server := { server with dataQueue := [], clientPendingList := ∅ }

theorem loopStart_clean (server : DataServer) : (loopStart server).Clean :=
  ⟨rfl, fun notRunning => absurd rfl notRunning⟩

theorem stuck_of_run {state final : DataServerLoop} {events : List LoopEvent}
    (stuck : state.Stuck) (runs : run loopStep state events = some final) : final.Stuck :=
  invariant_of_run (fun (before : DataServerLoop) _ _ (held : before.Stuck) stepped =>
    (stepped_of_loopStep stepped).stuck held) stuck runs

theorem clean_or_stuck_of_run {state final : DataServerLoop} {events : List LoopEvent}
    (clean : state.Clean) (runs : run loopStep state events = some final) :
    (Throughout loopStep LosesNothing state events ∧ final.Clean) ∨
      (¬ Throughout loopStep LosesNothing state events ∧ final.Stuck) := by
  induction events generalizing state with
  | nil =>
      cases runs
      exact Or.inl ⟨trivial, clean⟩
  | cons event events inductionHypothesis =>
      obtain ⟨next, stepped, later⟩ := run_cons_eq_some runs
      have inverted := stepped_of_loopStep stepped
      by_cases meets : LosesNothing state event
      · rcases inductionHypothesis (inverted.clean clean meets) later with
          ⟨throughout, final_clean⟩ | ⟨fails, stuck⟩
        · exact Or.inl ⟨throughout_cons stepped meets throughout, final_clean⟩
        · exact Or.inr ⟨fun throughout => fails (throughout.2 next stepped), stuck⟩
      · exact Or.inr ⟨fun throughout => meets throughout.1,
          stuck_of_run (inverted.stuck_of_not clean meets) later⟩

/-- When the loop has returned, the accepted requests have been handed on once
each and in order exactly if none came between the last batch and the return. -/
theorem handed_eq_accepted_iff {server : DataServer} {events : List LoopEvent}
    {final : DataServerLoop} (runs : run loopStep (loopStart server) events = some final)
    (returned : final.phase = .returned) :
    final.handed = final.accepted ↔ Throughout loopStep LosesNothing (loopStart server) events := by
  rcases clean_or_stuck_of_run (loopStart_clean server) runs with
    ⟨throughout, clean⟩ | ⟨fails, stuck⟩
  · have conserved := clean.conserved
    have idle := clean.idle (by rw [returned]; nofun)
    unfold DataServerLoop.Idle at idle
    rw [DataServerLoop.Conserved, idle, List.append_nil] at conserved
    exact ⟨fun _ => throughout, fun _ => conserved.symm⟩
  · have conserved := stuck.conserved
    unfold DataServerLoop.Conserved at conserved
    refine ⟨fun same => ?_, fun throughout => absurd throughout fails⟩
    rw [same] at conserved
    exact absurd (List.self_eq_append_right.mp conserved) stuck.left

/-- A query of a client with a known address. -/
def sampleRequest : DnsRequest where
  groupName := "default"
  domain := "a.com"
  qtype := 1
  rcode := 0
  queryTime := 5
  queryTimestamp := 172860000
  pingTime := 0
  isBlocked := false
  isCached := false
  remoteMac := #v[0, 0, 0, 0, 0, 1]
  remoteAddr := "10.0.0.2"
  isPrefetchRequest := false
  isDualstackRequest := false

def sampleFlush : FlushCall where
  timestampNow := 172861000

def sampleCall : HandleCall where
  toFlushCall := sampleFlush
  offset := utc

/-- The state in which a run that is possible ends. -/
def loopEnd (events : List LoopEvent) : DataServerLoop :=
  (run loopStep (loopStart {}) events).getD {}

theorem handed_eq_accepted_example :
    (loopEnd [.sendRequest sampleRequest, .recvMany 1 sampleCall, .batchTimerFires sampleCall, .stop,
        .shutdownFlush sampleFlush]).handed =
      (loopEnd [.sendRequest sampleRequest, .recvMany 1 sampleCall, .batchTimerFires sampleCall,
        .stop, .shutdownFlush sampleFlush]).accepted ↔
      Throughout loopStep LosesNothing (loopStart {})
        [.sendRequest sampleRequest, .recvMany 1 sampleCall, .batchTimerFires sampleCall, .stop,
          .shutdownFlush sampleFlush] :=
  @handed_eq_accepted_iff _ [.sendRequest sampleRequest, .recvMany 1 sampleCall,
    .batchTimerFires sampleCall, .stop, .shutdownFlush sampleFlush] _ rfl rfl

/-- A request that is still in the channel when the loop is told to stop. -/
theorem not_handed_eq_accepted :
    ¬ ∀ (server : DataServer) (events : List LoopEvent) (final : DataServerLoop),
      run loopStep (loopStart server) events = some final → final.phase = .returned →
      final.handed = final.accepted := by
  intro handsAll
  have same := handsAll {}
    [.sendRequest sampleRequest, .stop, .shutdownFlush sampleFlush] _ rfl rfl
  have lost : [sampleRequest] = [] := same.symm
  cases lost

end SmartDnsPlusUi
