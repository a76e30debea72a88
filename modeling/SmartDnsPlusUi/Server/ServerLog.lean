import Mathlib.Data.List.Basic
import SmartDnsPlusUi.Run.Basic

/-!
# Log streams

Subscribers hold the receiving ends of the streams in a list.  A dispatch sends
to all of them under the read lock, noting the indices of the closed ones, and
removes those indices under the write lock.  Between the two phases another
dispatch may remove streams and shift the indices.
-/

namespace SmartDnsPlusUi

inductive LogLevel where
  | debug
  | info
  | notice
  | warn
  | error
  | fatal
  | off
  deriving DecidableEq

structure ServerLogMsg where
  level : LogLevel
  msg : List Char
  len : Int
  deriving DecidableEq

structure ServerAuditLogMsg where
  msg : List Char
  len : Int
  deriving DecidableEq

/-- A sender together with what its receiver has not read. -/
structure LogStream (Message : Type) where
  id : Nat
  isOpen : Bool
  queue : List Message
  deriving DecidableEq

def streamCapacity : Nat := 4096

inductive TrySendResult where
  | sent
  | full
  | closed
  deriving DecidableEq

/-- The streams, the dispatches between their two phases with the indices they
noted, the streams removed so far as they were then, and whether an index was
out of range. -/
structure ServerLog (Message : Type) where
  streams : List (LogStream Message) := []
  nextId : Nat := 0
  pending : List (Nat × List Nat) := []
  removed : List (LogStream Message) := []
  panicked : Bool := false
  deriving DecidableEq

inductive LogEvent (Message : Type) where
  | getLogStream
  | closeReceiver (id : Nat)
  | receive (id : Nat)
  | sendPhase (dispatch : Nat) (msg : Message)
  | removalPhase (dispatch : Nat)
  deriving DecidableEq

/-- The send phase of `dispatch_log`. -/
def dispatchLog (dispatch : Nat) (level : LogLevel) (msg : List Char) (len : Int) :
    LogEvent ServerLogMsg :=
  .sendPhase dispatch { level, msg, len }

/-- The send phase of `dispatch_audit_log`. -/
def dispatchAuditLog (dispatch : Nat) (msg : List Char) (len : Int) : LogEvent ServerAuditLogMsg :=
  .sendPhase dispatch { msg, len }

variable {Message : Type}

def trySend (stream : LogStream Message) (msg : Message) : LogStream Message × TrySendResult :=
  if stream.isOpen = false then (stream, .closed)
  else if stream.queue.length < streamCapacity then
    ({ stream with queue := stream.queue ++ [msg] }, .sent)
  else (stream, .full)

/-- The loop of the send phase: the streams afterwards and the indices, from
`index` on, of those that are closed. -/
def sendToAll (msg : Message) (index : Nat) :
    List (LogStream Message) → List (LogStream Message) × List Nat
  | [] => ([], [])
  | stream :: rest =>
      let later := sendToAll msg (index + 1) rest
      match trySend stream msg with
      | (stream, .closed) => (stream :: later.1, index :: later.2)
      | (stream, _) => (stream :: later.1, later.2)

/-- The loop of the removal phase over the indices in the order of removal: the
streams left, those removed, and whether `Vec::remove` was out of range. -/
def removeAll (streams : List (LogStream Message)) :
    List Nat → List (LogStream Message) × List (LogStream Message) × Bool
  | [] => (streams, [], false)
  | index :: rest =>
      match streams[index]? with
      | none => (streams, [], true)
      | some stream =>
          let later := removeAll (streams.eraseIdx index) rest
          (later.1, stream :: later.2.1, later.2.2)

def updateStream (id : Nat) (f : LogStream Message → LogStream Message)
    (streams : List (LogStream Message)) : List (LogStream Message) :=
  streams.map fun stream => if stream.id = id then f stream else stream

def logStep (log : ServerLog Message) : LogEvent Message → Option (ServerLog Message)
  | .getLogStream =>
      some { log with
        streams := log.streams ++ [{ id := log.nextId, isOpen := true, queue := [] }]
        nextId := log.nextId + 1 }
  | .closeReceiver id =>
      some { log with streams := updateStream id ({ · with isOpen := false }) log.streams }
  | .receive id =>
      some { log with
        streams := updateStream id (fun stream => { stream with queue := stream.queue.tail })
          log.streams }
  | .sendPhase dispatch msg =>
      if log.pending.any (·.1 = dispatch) then none
      else
        let sent := sendToAll msg 0 log.streams
        some { log with
          streams := sent.1
          pending := if sent.2 = [] then log.pending else log.pending ++ [(dispatch, sent.2)] }
  | .removalPhase dispatch =>
      match log.pending.find? (·.1 = dispatch) with
      | none => none
      | some (_, removeList) =>
          let left := removeAll log.streams removeList.reverse
          some { log with
            streams := left.1
            pending := log.pending.filter (·.1 ≠ dispatch)
            removed := log.removed ++ left.2.1
            panicked := log.panicked || left.2.2 }

/-- No stream was removed while its receiver was open, and no index was out of
range. -/
structure IsSafe (log : ServerLog Message) : Prop where
  closed : ∀ stream ∈ log.removed, stream.isOpen = false
  in_range : log.panicked = false

/-- A removal phase comes while no other dispatch holds an index that is not
below all those removed. -/
def DoesNotOvertake (log : ServerLog Message) : LogEvent Message → Prop
  | .removalPhase dispatch =>
      ∀ own ∈ log.pending, own.1 = dispatch → ∀ other ∈ log.pending, other.1 ≠ dispatch →
        ∀ index ∈ own.2, ∀ held ∈ other.2, held < index
  | _ => True

/-! ### The two phases -/

/-- The stream at an index exists and is closed. -/
def ClosedAt (streams : List (LogStream Message)) (index : Nat) : Prop :=
  ∃ stream, streams[index]? = some stream ∧ stream.isOpen = false

theorem closedAt_map {f : LogStream Message → LogStream Message}
    (keeps : ∀ stream, stream.isOpen = false → (f stream).isOpen = false)
    {streams : List (LogStream Message)} {index : Nat} (closed : ClosedAt streams index) :
    ClosedAt (streams.map f) index := by
  obtain ⟨stream, found, notOpen⟩ := closed
  exact ⟨f stream, by simp [found], keeps stream notOpen⟩

theorem closedAt_append {streams : List (LogStream Message)} {index : Nat}
    (closed : ClosedAt streams index) (later : List (LogStream Message)) :
    ClosedAt (streams ++ later) index := by
  obtain ⟨stream, found, notOpen⟩ := closed
  obtain ⟨inRange, -⟩ := List.getElem?_eq_some_iff.mp found
  exact ⟨stream, by rw [List.getElem?_append_left inRange, found], notOpen⟩

theorem trySend_closed_iff (stream : LogStream Message) (msg : Message) :
    (trySend stream msg).2 = .closed ↔ stream.isOpen = false := by
  unfold trySend
  by_cases closed : stream.isOpen = false
  · simp [closed]
  · rw [if_neg closed]
    split <;> simp [closed]

theorem isOpen_trySend (stream : LogStream Message) (msg : Message) :
    (trySend stream msg).1.isOpen = stream.isOpen := by
  unfold trySend
  split
  · rfl
  · split <;> rfl

theorem sendToAll_fst (msg : Message) (index : Nat) (streams : List (LogStream Message)) :
    (sendToAll msg index streams).1 = streams.map fun stream => (trySend stream msg).1 := by
  induction streams generalizing index with
  | nil => rfl
  | cons stream rest inductionHypothesis =>
      rw [sendToAll]
      split <;> simp_all

/-- The indices noted ascend, and the streams there are closed. -/
theorem sendToAll_snd (msg : Message) (start : Nat) (streams : List (LogStream Message)) :
    (sendToAll msg start streams).2.Pairwise (· < ·) ∧
      ∀ index ∈ (sendToAll msg start streams).2,
        start ≤ index ∧ ClosedAt streams (index - start) := by
  induction streams generalizing start with
  | nil => simp [sendToAll]
  | cons stream rest inductionHypothesis =>
      obtain ⟨ascending, closed⟩ := inductionHypothesis (start + 1)
      have later : ∀ index ∈ (sendToAll msg (start + 1) rest).2,
          start ≤ index ∧ ClosedAt (stream :: rest) (index - start) := by
        intro index membership
        obtain ⟨above, other, found, notOpen⟩ := closed index membership
        refine ⟨by omega, other, ?_, notOpen⟩
        rw [show index - start = index - (start + 1) + 1 by omega, List.getElem?_cons_succ]
        exact found
      rw [sendToAll]
      split
      · rename_i sent closedNow
        have notOpen : stream.isOpen = false :=
          (trySend_closed_iff stream msg).mp (by rw [closedNow])
        refine ⟨List.pairwise_cons.mpr ⟨?_, ascending⟩, ?_⟩
        · intro index membership
          have above := (closed index membership).1
          omega
        · rw [List.forall_mem_cons]
          exact ⟨⟨Nat.le_refl _, stream, by simp, notOpen⟩, later⟩
      · exact ⟨ascending, later⟩

/-- Removing from the largest index on removes what stood at the indices, and
leaves what stands before them. -/
theorem removeAll_of_closedAt {streams : List (LogStream Message)} {indices : List Nat}
    (descending : indices.Pairwise (· > ·)) (closed : ∀ index ∈ indices, ClosedAt streams index) :
    (removeAll streams indices).2.2 = false ∧
      (∀ stream ∈ (removeAll streams indices).2.1, stream.isOpen = false) ∧
      ∀ index, (∀ other ∈ indices, index < other) →
        (removeAll streams indices).1[index]? = streams[index]? := by
  induction indices generalizing streams with
  | nil => simp [removeAll]
  | cons index indices inductionHypothesis =>
      obtain ⟨below, descending⟩ := List.pairwise_cons.mp descending
      obtain ⟨⟨stream, found, notOpen⟩, closedLater⟩ := List.forall_mem_cons.mp closed
      have kept : ∀ other ∈ indices, ClosedAt (streams.eraseIdx index) other := by
        intro other membership
        obtain ⟨stream', found', notOpen'⟩ := closedLater other membership
        exact ⟨stream', by rw [List.getElem?_eraseIdx_of_lt (below other membership), found'],
          notOpen'⟩
      obtain ⟨inRange, removed, before⟩ := inductionHypothesis descending kept
      simp only [removeAll, found]
      refine ⟨inRange, ?_, ?_⟩
      · rw [List.forall_mem_cons]
        exact ⟨notOpen, removed⟩
      · intro earlier smaller
        rw [List.forall_mem_cons] at smaller
        rw [before earlier smaller.2, List.getElem?_eraseIdx_of_lt smaller.1]

/-! ### The invariant -/

/-- Every index held between the two phases still stands for a closed stream. -/
structure IsConsistent (log : ServerLog Message) : Prop where
  safe : IsSafe log
  ascending : ∀ dispatch ∈ log.pending, dispatch.2.Pairwise (· < ·)
  closed : ∀ dispatch ∈ log.pending, ∀ index ∈ dispatch.2, ClosedAt log.streams index

/-- Steps that leave the closed streams in their places. -/
theorem IsConsistent.update {log : ServerLog Message} (consistent : IsConsistent log)
    {streams : List (LogStream Message)} (nextId : Nat)
    (keeps : ∀ index, ClosedAt log.streams index → ClosedAt streams index) :
    IsConsistent { log with streams, nextId } :=
  ⟨⟨consistent.safe.closed, consistent.safe.in_range⟩, consistent.ascending,
    fun dispatch membership index held =>
      keeps index (consistent.closed dispatch membership index held)⟩

theorem closedAt_updateStream {id : Nat} {f : LogStream Message → LogStream Message}
    (keeps : ∀ stream, stream.isOpen = false → (f stream).isOpen = false)
    {streams : List (LogStream Message)} {index : Nat} (closed : ClosedAt streams index) :
    ClosedAt (updateStream id f streams) index := by
  apply closedAt_map _ closed
  intro stream notOpen
  split
  · exact keeps stream notOpen
  · exact notOpen

theorem IsConsistent.sendPhase {log next : ServerLog Message} (consistent : IsConsistent log)
    {dispatch : Nat} {msg : Message}
    (stepped : logStep log (.sendPhase dispatch msg) = some next) : IsConsistent next := by
  simp only [logStep] at stepped
  split at stepped
  · simp at stepped
  · obtain rfl := Option.some.inj stepped
    obtain ⟨ascending, noted⟩ := sendToAll_snd msg 0 log.streams
    have keeps : ∀ index, ClosedAt log.streams index →
        ClosedAt (sendToAll msg 0 log.streams).1 index := by
      intro index closed
      rw [sendToAll_fst]
      exact closedAt_map (fun stream notOpen => by rw [isOpen_trySend, notOpen]) closed
    have sent := consistent.update log.nextId keeps
    refine ⟨⟨sent.safe.closed, sent.safe.in_range⟩, ?_, ?_⟩
    · intro entry membership
      simp only [] at membership
      split at membership
      · exact sent.ascending entry membership
      · rcases List.mem_append.mp membership with old | new
        · exact sent.ascending entry old
        · exact List.mem_singleton.mp new ▸ ascending
    · intro entry membership index held
      simp only [] at membership
      split at membership
      · exact sent.closed entry membership index held
      · rcases List.mem_append.mp membership with old | new
        · exact sent.closed entry old index held
        · rw [List.mem_singleton.mp new] at held
          exact keeps index (noted index held).2

theorem IsConsistent.removalPhase {log next : ServerLog Message} (consistent : IsConsistent log)
    {dispatch : Nat} (alone : DoesNotOvertake log (.removalPhase dispatch))
    (stepped : logStep log (.removalPhase dispatch) = some next) : IsConsistent next := by
  simp only [logStep] at stepped
  split at stepped
  · simp at stepped
  · rename_i own removeList found
    obtain rfl := Option.some.inj stepped
    have membership := List.mem_of_find?_eq_some found
    have named : own = dispatch := by simpa using List.find?_some found
    have descending : removeList.reverse.Pairwise (· > ·) :=
      List.pairwise_reverse.mpr (consistent.ascending _ membership)
    obtain ⟨inRange, removed, before⟩ := removeAll_of_closedAt descending
      fun index held => consistent.closed _ membership index (List.mem_reverse.mp held)
    refine ⟨⟨?_, ?_⟩, ?_, ?_⟩
    · intro stream listed
      rcases List.mem_append.mp listed with old | new
      · exact consistent.safe.closed stream old
      · exact removed stream new
    · simp [consistent.safe.in_range, inRange]
    · intro other otherMem
      exact consistent.ascending other (List.mem_filter.mp otherMem).1
    · intro other otherMem index held
      obtain ⟨listed, different⟩ := List.mem_filter.mp otherMem
      obtain ⟨stream, found', notOpen⟩ := consistent.closed other listed index held
      refine ⟨stream, ?_, notOpen⟩
      rw [before, found']
      intro larger largerMem
      exact alone _ membership named other listed (by simpa using different) larger
        (List.mem_reverse.mp largerMem) index held

theorem IsConsistent.step {log next : ServerLog Message} {event : LogEvent Message}
    (consistent : IsConsistent log) (alone : DoesNotOvertake log event)
    (stepped : logStep log event = some next) : IsConsistent next := by
  cases event with
  | getLogStream =>
      obtain rfl := Option.some.inj stepped
      exact consistent.update _ fun index closed => closedAt_append closed _
  | closeReceiver id =>
      obtain rfl := Option.some.inj stepped
      exact consistent.update _ fun _ closed => closedAt_updateStream (fun _ _ => rfl) closed
  | receive id =>
      obtain rfl := Option.some.inj stepped
      exact consistent.update _ fun _ closed =>
        closedAt_updateStream (f := fun stream => { stream with queue := stream.queue.tail })
          (fun _ notOpen => notOpen) closed
  | sendPhase dispatch msg => exact consistent.sendPhase stepped
  | removalPhase dispatch => exact consistent.removalPhase alone stepped

/-- In every run in which no removal overtakes a dispatch that holds an index
not below those removed, no open stream is removed and no index is out of range. -/
theorem isSafe_of_throughout {events : List (LogEvent Message)} {log : ServerLog Message}
    (meets : Run.Throughout logStep DoesNotOvertake {} events)
    (runs : Run.run logStep {} events = some log) : IsSafe log := by
  have start : IsConsistent ({} : ServerLog Message) :=
    ⟨⟨by simp, rfl⟩, by simp, by simp⟩
  exact (Run.invariant_of_throughout (fun _ _ _ consistent alone stepped =>
    consistent.step alone stepped) start meets runs).safe

/-- One dispatch after the other: the closed stream goes, the open one stays. -/
theorem isSafe_example :
    IsSafe ({ streams := [⟨1, true, [()]⟩], nextId := 2, removed := [⟨0, false, []⟩] } :
      ServerLog Unit) := by
  have runs : Run.run logStep {} [.getLogStream, .getLogStream, .closeReceiver 0,
      .sendPhase 0 (), .removalPhase 0] =
        some { streams := [⟨1, true, [()]⟩], nextId := 2, removed := [⟨0, false, []⟩] } := by
    decide
  refine isSafe_of_throughout ?_ runs
  simp [Run.Throughout, DoesNotOvertake, logStep, sendToAll, trySend, updateStream,
    streamCapacity]

/-- Two dispatches note the closed stream at index 0; after the first removal the
open one stands there, and the second removes it. -/
theorem not_isSafe :
    ¬ ∀ (events : List (LogEvent Unit)) (log : ServerLog Unit),
      Run.run logStep {} events = some log → IsSafe log := by
  intro all
  let events : List (LogEvent Unit) :=
    [.getLogStream, .getLogStream, .closeReceiver 0, .sendPhase 0 (), .sendPhase 1 (),
      .removalPhase 0, .removalPhase 1]
  have safe := all events _ (Option.some_get (by decide : (Run.run logStep {} events).isSome)).symm
  have closed := safe.closed
  revert closed
  decide

end SmartDnsPlusUi
