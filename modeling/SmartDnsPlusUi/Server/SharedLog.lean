import Mathlib.Data.List.Nodup
import Mathlib.Data.List.Perm.Basic
import SmartDnsPlusUi.Server.ServerLog

/-!
# Dispatches that share the lock

A dispatch holds the lock for reading while it sends to one stream after another, so dispatches
can overlap and reach the streams in different orders.  Streams are added and removed when no
dispatch is sending.  A dispatch that no other event interrupts is the send phase of the log that
is taken as a whole.
-/

namespace SmartDnsPlusUi

open Run

variable {Message : Type}

/-- A dispatch in its loop over the streams, with the indices it has noted. -/
structure SendLoop (Message : Type) where
  dispatch : Nat
  msg : Message
  next : Nat := 0
  removeList : List Nat := []

/-- The streams, and the dispatches that hold the lock for reading.  The dispatches have
numbers in the order in which they begin. -/
structure SharedLog (Message : Type) where
  log : ServerLog Message := {}
  nextDispatch : Nat := 0
  sending : List (SendLoop Message) := []

inductive SharedEvent (Message : Type) where
  | getLogStream
  | closeReceiver (id : Nat)
  | receive (id : Nat)
  | begins (msg : Message)
  | sendsNext (dispatch : Nat)
  | ends (dispatch : Nat)
  | removalPhase (dispatch : Nat)

def LogStream.taken (stream : LogStream Message) : LogStream Message :=
  { stream with queue := stream.queue.tail }

def LogStream.closed (stream : LogStream Message) : LogStream Message :=
  { stream with isOpen := false }

namespace SharedLog

variable (shared : SharedLog Message)

/-- All streams.  What is left in the queue of a stream that has been removed can still be
taken. -/
def known : List (LogStream Message) := shared.log.streams ++ shared.log.removed

/-- The loop of a dispatch and the stream that it comes to. -/
def reached (dispatch : Nat) : Option (SendLoop Message × LogStream Message) :=
  (shared.sending.find? (·.dispatch = dispatch)).bind fun loop =>
    shared.log.streams[loop.next]?.map fun stream => (loop, stream)

def take (id : Nat) : SharedLog Message :=
  { shared with
    log := { shared.log with
      streams := updateStream id LogStream.taken shared.log.streams
      removed := updateStream id LogStream.taken shared.log.removed } }

/-- Without streams a dispatch returns at once. -/
def begin (msg : Message) : SharedLog Message :=
  { shared with
    nextDispatch := shared.nextDispatch + 1
    sending :=
      if shared.log.streams.isEmpty then shared.sending
      else shared.sending ++ [{ dispatch := shared.nextDispatch, msg }] }

def send (loop : SendLoop Message) (stream : LogStream Message) : SharedLog Message :=
  { shared with
    log := { shared.log with
      streams := shared.log.streams.set loop.next (trySend stream loop.msg).1 }
    sending := shared.sending.map fun other =>
      if other.dispatch = loop.dispatch then
        { loop with
          next := loop.next + 1
          removeList :=
            if (trySend stream loop.msg).2 = .closed then loop.removeList ++ [loop.next]
            else loop.removeList }
      else other }

def release (loop : SendLoop Message) : SharedLog Message :=
  { shared with
    log := { shared.log with
      pending :=
        if loop.removeList.isEmpty then shared.log.pending
        else shared.log.pending ++ [(loop.dispatch, loop.removeList)] }
    sending := shared.sending.filter (·.dispatch ≠ loop.dispatch) }

/-- The steps that need the lock for writing wait for the dispatches that are sending. -/
def step : SharedEvent Message → Option (SharedLog Message)
  | .getLogStream =>
      if shared.sending.isEmpty then
        (logStep shared.log .getLogStream).map fun log => { shared with log }
      else none
  | .closeReceiver id =>
      (logStep shared.log (.closeReceiver id)).map fun log => { shared with log }
  | .receive id => some (shared.take id)
  | .begins msg => some (shared.begin msg)
  | .sendsNext dispatch => (shared.reached dispatch).map fun (loop, stream) => shared.send loop stream
  | .ends dispatch =>
      match shared.sending.find? (·.dispatch = dispatch) with
      | none => none
      | some loop =>
          if loop.next < shared.log.streams.length then none else some (shared.release loop)
  | .removalPhase dispatch =>
      if shared.sending.isEmpty then
        (logStep shared.log (.removalPhase dispatch)).map fun log => { shared with log }
      else none

end SharedLog

/-! ### A dispatch by itself -/

section

variable {shared : SharedLog Message} {dispatch : Nat} {msg : Message}

/-- The shared log while one dispatch is in its loop. -/
def SharedLog.alone (shared : SharedLog Message) (streams : List (LogStream Message))
    (loop : SendLoop Message) : SharedLog Message :=
  { shared with log := { shared.log with streams }, sending := [loop] }

theorem run_sendsNext (rest done : List (LogStream Message)) (noted : List Nat) :
    run SharedLog.step (shared.alone (done ++ rest) ⟨dispatch, msg, done.length, noted⟩)
        (List.replicate rest.length (.sendsNext dispatch)) =
      some (shared.alone (done ++ (sendToAll msg done.length rest).1)
        ⟨dispatch, msg, done.length + rest.length,
          noted ++ (sendToAll msg done.length rest).2⟩) := by
  induction rest generalizing done noted with
  | nil => simp [sendToAll]
  | cons stream rest inductionHypothesis =>
      let later := (trySend stream msg).1
      let noted' := if (trySend stream msg).2 = .closed then noted ++ [done.length] else noted
      have sends : (shared.alone (done ++ stream :: rest) ⟨dispatch, msg, done.length, noted⟩).step
          (.sendsNext dispatch) =
          some (shared.alone ((done ++ [later]) ++ rest)
            ⟨dispatch, msg, (done ++ [later]).length, noted'⟩) := by
        simp [SharedLog.step, SharedLog.reached, SharedLog.alone, SharedLog.send, later, noted']
      rw [List.length_cons, List.replicate_succ, run_cons, sends, Option.bind_some,
        inductionHypothesis, List.length_append, List.length_singleton]
      have all : sendToAll msg done.length (stream :: rest) =
          (later :: (sendToAll msg (done.length + 1) rest).1,
            if (trySend stream msg).2 = .closed then
              done.length :: (sendToAll msg (done.length + 1) rest).2
            else (sendToAll msg (done.length + 1) rest).2) := by
        rw [sendToAll]
        dsimp only [later]
        split <;> simp_all
      rw [all]
      dsimp only [noted']
      rw [Nat.add_right_comm, Nat.add_assoc done.length, List.append_assoc, List.singleton_append]
      split_ifs
      · rw [List.append_assoc, List.singleton_append]
      · rfl

/-- A dispatch that nothing else disturbs is a send phase at once. -/
theorem run_dispatch (quiet : shared.sending = []) (streams : shared.log.streams ≠ [])
    (fresh : ∀ own ∈ shared.log.pending, own.1 ≠ shared.nextDispatch) :
    run SharedLog.step shared (.begins msg ::
        (List.replicate shared.log.streams.length (.sendsNext shared.nextDispatch) ++
          [.ends shared.nextDispatch])) =
      (logStep shared.log (.sendPhase shared.nextDispatch msg)).map fun log =>
        { shared with log, nextDispatch := shared.nextDispatch + 1 } := by
  have begins : shared.step (.begins msg) =
      some (({ shared with nextDispatch := shared.nextDispatch + 1 } : SharedLog Message).alone
        ([] ++ shared.log.streams)
        ⟨shared.nextDispatch, msg, ([] : List (LogStream Message)).length, []⟩) := by
    simp [SharedLog.step, SharedLog.begin, SharedLog.alone, quiet, streams]
  have none : shared.log.pending.any (·.1 = shared.nextDispatch) = false := by
    simpa using fresh
  rw [run_cons, begins, Option.bind_some, run_append, run_sendsNext, Option.bind_some, run_cons]
  simp [SharedLog.step, SharedLog.alone, SharedLog.release, logStep, none, run, quiet, sendToAll_fst]

end

/-! ### One step -/

section

variable {shared next : SharedLog Message} {event : SharedEvent Message}
variable {stream : LogStream Message}

/-- What a step can do. -/
inductive Steps (shared : SharedLog Message) : SharedEvent Message → SharedLog Message → Prop
  | subscribes : shared.sending = [] → Steps shared .getLogStream
      { shared with
        log := { shared.log with
          streams := shared.log.streams ++ [⟨shared.log.nextId, true, []⟩]
          nextId := shared.log.nextId + 1 } }
  | closes (id : Nat) : Steps shared (.closeReceiver id)
      { shared with
        log := { shared.log with
          streams := updateStream id LogStream.closed shared.log.streams } }
  | takes (id : Nat) : Steps shared (.receive id) (shared.take id)
  | begins (msg : Message) : Steps shared (.begins msg) (shared.begin msg)
  | sends (loop : SendLoop Message) (stream : LogStream Message) :
      loop ∈ shared.sending → shared.log.streams[loop.next]? = some stream →
      shared.reached loop.dispatch = some (loop, stream) →
      Steps shared (.sendsNext loop.dispatch) (shared.send loop stream)
  | ends (loop : SendLoop Message) :
      loop ∈ shared.sending → shared.log.streams.length ≤ loop.next →
      Steps shared (.ends loop.dispatch) (shared.release loop)
  | removes (dispatch : Nat) (log : ServerLog Message) :
      shared.sending = [] → logStep shared.log (.removalPhase dispatch) = some log →
      Steps shared (.removalPhase dispatch) { shared with log }

theorem steps_of_step (stepped : shared.step event = some next) : Steps shared event next := by
  cases event with
  | getLogStream =>
      dsimp only [SharedLog.step] at stepped
      split at stepped
      · rename_i quiet
        obtain rfl := Option.some.inj stepped
        exact .subscribes (List.isEmpty_iff.mp quiet)
      · cases stepped
  | closeReceiver id =>
      obtain rfl := Option.some.inj stepped
      exact .closes id
  | receive id =>
      obtain rfl := Option.some.inj stepped
      exact .takes id
  | begins msg =>
      obtain rfl := Option.some.inj stepped
      exact .begins msg
  | sendsNext dispatch =>
      obtain ⟨⟨loop, stream⟩, reached, rfl⟩ := Option.map_eq_some_iff.mp stepped
      obtain ⟨own, found, there⟩ := Option.bind_eq_some_iff.mp reached
      obtain ⟨_, inPlace, same⟩ := Option.map_eq_some_iff.mp there
      cases same
      obtain rfl : loop.dispatch = dispatch := by simpa using List.find?_some found
      exact .sends loop stream (List.mem_of_find?_eq_some found) inPlace reached
  | ends dispatch =>
      dsimp only [SharedLog.step] at stepped
      split at stepped
      · cases stepped
      · rename_i loop found
        obtain rfl : loop.dispatch = dispatch := by simpa using List.find?_some found
        split at stepped
        · cases stepped
        · rename_i through
          obtain rfl := Option.some.inj stepped
          exact .ends loop (List.mem_of_find?_eq_some found) (Nat.not_lt.mp through)
  | removalPhase dispatch =>
      dsimp only [SharedLog.step] at stepped
      split at stepped
      · rename_i quiet
        obtain ⟨log, removed, rfl⟩ := Option.map_eq_some_iff.mp stepped
        exact .removes dispatch log (List.isEmpty_iff.mp quiet) removed
      · cases stepped

/-- The loops after a dispatch has begun. -/
theorem mem_sending_begin {msg : Message} {loop : SendLoop Message}
    (among : loop ∈ (shared.begin msg).sending) :
    loop ∈ shared.sending ∨ loop = { dispatch := shared.nextDispatch, msg } := by
  dsimp only [SharedLog.begin] at among
  split at among
  · exact .inl among
  · exact (List.mem_append.mp among).imp_right List.mem_singleton.mp

/-- The loops after a send. -/
theorem mem_sending_send {loop later : SendLoop Message} {stream : LogStream Message}
    (among : later ∈ (shared.send loop stream).sending) :
    (later ∈ shared.sending ∧ later.dispatch ≠ loop.dispatch) ∨
      later.dispatch = loop.dispatch ∧ later.msg = loop.msg ∧ later.next = loop.next + 1 := by
  obtain ⟨before, listed, rfl⟩ := List.mem_map.mp among
  split
  · exact .inr ⟨rfl, rfl, rfl⟩
  · rename_i other
    exact .inl ⟨listed, other⟩

theorem removeAll_perm (streams : List (LogStream Message)) (indices : List Nat) :
    ((removeAll streams indices).1 ++ (removeAll streams indices).2.1).Perm streams := by
  induction indices generalizing streams with
  | nil => simp [removeAll]
  | cons index indices inductionHypothesis =>
      unfold removeAll
      cases found : streams[index]? with
      | none => simp
      | some stream =>
          obtain ⟨inside, rfl⟩ := List.getElem?_eq_some_iff.mp found
          refine List.perm_middle.trans ?_
          refine ((inductionHypothesis (streams.eraseIdx index)).cons _).trans ?_
          exact List.getElem_cons_eraseIdx_perm inside

/-- A removal moves streams to those removed. -/
theorem removalPhase_perm {log later : ServerLog Message} {dispatch : Nat}
    (stepped : logStep log (.removalPhase dispatch) = some later) :
    (later.streams ++ later.removed).Perm (log.streams ++ log.removed) ∧
      later.nextId = log.nextId := by
  simp only [logStep] at stepped
  split at stepped
  · cases stepped
  · rename_i own removeList found
    obtain rfl := Option.some.inj stepped
    refine ⟨?_, rfl⟩
    have perm := (removeAll_perm log.streams removeList.reverse).append_right log.removed
    refine List.Perm.trans ?_ perm
    rw [List.append_assoc]
    exact List.perm_append_comm.append_left _

theorem id_trySend (stream : LogStream Message) (msg : Message) :
    (trySend stream msg).1.id = stream.id := by
  unfold trySend
  split_ifs <;> rfl

theorem map_id_updateStream (id : Nat) {f : LogStream Message → LogStream Message}
    (keeps : ∀ stream, (f stream).id = stream.id) (streams : List (LogStream Message)) :
    (updateStream id f streams).map (·.id) = streams.map (·.id) := by
  rw [updateStream, List.map_map]
  refine List.map_congr_left fun stream _ => ?_
  dsimp only [Function.comp]
  split
  · exact keeps stream
  · rfl

theorem map_id_set {streams : List (LogStream Message)} {index : Nat}
    (found : streams[index]? = some stream) {later : LogStream Message}
    (same : later.id = stream.id) :
    (streams.set index later).map (·.id) = streams.map (·.id) := by
  rw [List.map_set, same]
  apply List.ext_getElem?
  intro other
  rw [List.getElem?_set]
  split_ifs with here inside
  · subst here
    rw [List.getElem?_map, found, Option.map_some]
  · subst here
    rw [List.getElem?_eq_none (Nat.not_lt.mp inside)]
  · rfl

/-- In every place there is a stream with the id that was there before. -/
theorem exists_of_map_id {streams later : List (LogStream Message)}
    (places : later.map (·.id) = streams.map (·.id)) {index : Nat}
    (found : later[index]? = some stream) :
    ∃ before, streams[index]? = some before ∧ before.id = stream.id := by
  have place := congrArg (·[index]?) places
  simp only [List.getElem?_map, found, Option.map_some] at place
  exact Option.map_eq_some_iff.mp place.symm

/-- The streams have different ids, none of which is given out later. -/
structure HasOwnIds (shared : SharedLog Message) : Prop where
  distinct : (shared.known.map (·.id)).Nodup
  given : ∀ stream ∈ shared.known, stream.id < shared.log.nextId

theorem HasOwnIds.of_perm (own : HasOwnIds shared)
    (perm : (next.known.map (·.id)).Perm (shared.known.map (·.id)))
    (same : next.log.nextId = shared.log.nextId) : HasOwnIds next := by
  refine ⟨perm.nodup_iff.mpr own.distinct, ?_⟩
  intro stream there
  obtain ⟨before, among, id⟩ := List.mem_map.mp (perm.mem_iff.mp (List.mem_map_of_mem there))
  rw [← id, same]
  exact own.given before among

theorem HasOwnIds.step (own : HasOwnIds shared) (stepped : shared.step event = some next) :
    HasOwnIds next := by
  cases steps_of_step stepped with
  | subscribes quiet =>
      let added : LogStream Message := ⟨shared.log.nextId, true, []⟩
      have perm : (shared.log.streams ++ [added] ++ shared.log.removed).Perm
          (added :: shared.known) := by
        rw [List.append_assoc]
        exact List.perm_middle
      constructor
      · apply (perm.map (·.id)).nodup_iff.mpr
        rw [List.map_cons, List.nodup_cons]
        refine ⟨fun listed => ?_, own.distinct⟩
        obtain ⟨stream, among, same⟩ := List.mem_map.mp listed
        have below := own.given stream among
        rw [same] at below
        exact absurd below (Nat.lt_irrefl _)
      · intro stream there
        rcases List.mem_cons.mp (perm.mem_iff.mp there) with rfl | among
        · exact Nat.lt_succ_self _
        · exact Nat.lt_succ_of_lt (own.given stream among)
  | closes id =>
      refine own.of_perm (List.Perm.of_eq ?_) rfl
      simp only [SharedLog.known, List.map_append]
      rw [map_id_updateStream id (f := LogStream.closed) fun _ => rfl]
  | takes id =>
      refine own.of_perm (List.Perm.of_eq ?_) rfl
      simp only [SharedLog.known, SharedLog.take, List.map_append]
      rw [map_id_updateStream id (f := LogStream.taken) fun _ => rfl,
        map_id_updateStream id (f := LogStream.taken) fun _ => rfl]
  | begins msg => exact ⟨own.distinct, own.given⟩
  | sends loop stream _ found _ =>
      refine own.of_perm (List.Perm.of_eq ?_) rfl
      simp only [SharedLog.known, SharedLog.send, List.map_append]
      rw [map_id_set found (id_trySend stream loop.msg)]
  | ends loop _ _ => exact ⟨own.distinct, own.given⟩
  | removes dispatch log _ removed =>
      obtain ⟨perm, same⟩ := removalPhase_perm removed
      exact own.of_perm (perm.map _) same

theorem HasOwnIds.eq_of_id (own : HasOwnIds shared) {other : LogStream Message}
    (there : stream ∈ shared.known) (also : other ∈ shared.known) (same : other.id = stream.id) :
    other = stream :=
  List.inj_on_of_nodup_map own.distinct also there same

theorem HasOwnIds.find?_eq (own : HasOwnIds shared) (there : stream ∈ shared.known) :
    shared.known.find? (·.id = stream.id) = some stream := by
  cases found : shared.known.find? (·.id = stream.id) with
  | none =>
      have missing := List.find?_eq_none.mp found stream there
      exact absurd (decide_eq_true rfl) missing
  | some other =>
      have same : other.id = stream.id := by simpa using List.find?_some found
      rw [own.eq_of_id there (List.mem_of_find?_eq_some found) same]

end

end SmartDnsPlusUi
