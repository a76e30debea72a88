import Mathlib.Data.List.Perm.Subperm
import SmartDnsPlusUi.Run.Observed
import SmartDnsPlusUi.Server.SharedLog

/-!
# The messages of a stream

A message that does not fit in the queue of a stream is dropped, and what the receiver takes
leaves the queue at its front.  Every dispatch comes to a stream at most once.
-/

namespace SmartDnsPlusUi

open Run

variable {Message : Type}

/-! ### What a run shows -/

/-- What the receiver of the stream takes from its queue. -/
def takenAt (id : Nat) (shared : SharedLog Message) : SharedEvent Message → List Message
  | .receive other =>
      if other = id then
        match shared.known.find? (·.id = id) with
        | some stream => stream.queue.take 1
        | none => []
      else []
  | _ => []

/-- What is sent to the stream, with the number of the dispatch, whether there is room or not. -/
def sentAt (id : Nat) (shared : SharedLog Message) : SharedEvent Message → List (Nat × Message)
  | .sendsNext dispatch =>
      match shared.reached dispatch with
      | some (loop, stream) => if stream.id = id then [(dispatch, loop.msg)] else []
      | none => []
  | _ => []

def begunAt (shared : SharedLog Message) : SharedEvent Message → List (Nat × Message)
  | .begins msg => [(shared.nextDispatch, msg)]
  | _ => []

/-- The messages that the receiver of the stream takes during the run. -/
def takenBy (id : Nat) (start : SharedLog Message) (events : List (SharedEvent Message)) :
    List Message :=
  observed SharedLog.step (takenAt id) start events

/-- What is sent to the stream during the run, in this order. -/
def sentTo (id : Nat) (start : SharedLog Message) (events : List (SharedEvent Message)) :
    List (Nat × Message) :=
  observed SharedLog.step (sentAt id) start events

/-- The dispatches that begin during the run. -/
def begunIn (start : SharedLog Message) (events : List (SharedEvent Message)) :
    List (Nat × Message) :=
  observed SharedLog.step begunAt start events

/-- The one dispatch has ended at some point of the run, and the other one begins later. -/
def EndsBefore (start : SharedLog Message) (events : List (SharedEvent Message))
    (one other : Nat) : Prop :=
  ∃ past future middle, events = past ++ future ∧ run SharedLog.step start past = some middle ∧
    one < middle.nextDispatch ∧ (∀ loop ∈ middle.sending, loop.dispatch ≠ one) ∧
      middle.nextDispatch ≤ other

/-! ### What is taken from a stream -/

section

variable {shared next : SharedLog Message} {event : SharedEvent Message}
variable {stream : LogStream Message}

/-- The stream goes from the first state to the second, where its queue loses what was taken at
its front and gets some of the messages sent at its end. -/
structure GoesOn (shared : SharedLog Message) (event : SharedEvent Message)
    (stream later : LogStream Message) (added : List Message) : Prop where
  id : later.id = stream.id
  sent : added.Sublist ((sentAt stream.id shared event).map Prod.snd)
  queue : stream.queue ++ added = takenAt stream.id shared event ++ later.queue

theorem goesOn_of_queue {later : LogStream Message} (id : later.id = stream.id)
    (queue : later.queue = stream.queue) (nothing : takenAt stream.id shared event = []) :
    GoesOn shared event stream later [] :=
  ⟨id, List.nil_sublist _, by rw [List.append_nil, nothing, queue, List.nil_append]⟩

theorem goesOn_take (own : HasOwnIds shared) (there : stream ∈ shared.known) :
    GoesOn shared (.receive stream.id) stream stream.taken [] := by
  refine ⟨rfl, List.nil_sublist _, ?_⟩
  rw [List.append_nil, takenAt, if_pos rfl, own.find?_eq there, LogStream.taken, ← List.drop_one]
  exact (List.take_append_drop 1 stream.queue).symm

/-- The stream that the loop comes to gets the message, if it is open and has room. -/
theorem goesOn_send {loop : SendLoop Message}
    (reached : shared.reached loop.dispatch = some (loop, stream)) :
    ∃ added, GoesOn shared (.sendsNext loop.dispatch) stream (trySend stream loop.msg).1 added ∧
      (stream.isOpen = true → stream.queue.length < streamCapacity → added = [loop.msg]) := by
  by_cases room : stream.isOpen = true ∧ stream.queue.length < streamCapacity
  · refine ⟨[loop.msg], ⟨id_trySend stream loop.msg, ?_, ?_⟩, fun _ _ => rfl⟩
    · simp [sentAt, reached]
    · rw [trySend, if_neg (by rw [room.1]; exact Bool.noConfusion), if_pos room.2]
      rfl
  · refine ⟨[], goesOn_of_queue (id_trySend stream loop.msg) ?_ rfl, fun isOpen short => ?_⟩
    · unfold trySend
      split_ifs with closed short
      · rfl
      · exact absurd ⟨Bool.not_eq_false _ ▸ closed, short⟩ room
      · rfl
    · exact absurd ⟨isOpen, short⟩ room

/-- What a change of the stream with the id does to the others. -/
theorem mem_updateStream {streams : List (LogStream Message)} (id : Nat)
    (f : LogStream Message → LogStream Message) (there : stream ∈ streams) :
    (if stream.id = id then f stream else stream) ∈ updateStream id f streams :=
  List.mem_map_of_mem there

/-- A stream in the list is still there after a send, and gets the message if it is the one
that the loop comes to. -/
theorem exists_of_send (own : HasOwnIds shared) (there : stream ∈ shared.log.streams)
    {loop : SendLoop Message} {other : LogStream Message}
    (found : shared.log.streams[loop.next]? = some other)
    (reached : shared.reached loop.dispatch = some (loop, other)) :
    ∃ later ∈ (shared.send loop other).log.streams, ∃ added,
      GoesOn shared (.sendsNext loop.dispatch) stream later added ∧
        later.isOpen = stream.isOpen ∧
        (stream.isOpen = true → (stream.id = other.id → stream.queue.length < streamCapacity) →
          added = (sentAt stream.id shared (.sendsNext loop.dispatch)).map Prod.snd) := by
  have among := List.mem_append_left shared.log.removed there
  by_cases same : stream.id = other.id
  · obtain rfl := own.eq_of_id (List.mem_append_left _ (List.mem_of_getElem? found)) among same
    obtain ⟨added, goesOn, all⟩ := goesOn_send reached
    refine ⟨_, ?_, added, goesOn, isOpen_trySend stream loop.msg, ?_⟩
    · exact List.mem_set (List.getElem?_eq_some_iff.mp found).1 _
    · intro isOpen short
      rw [all isOpen (short rfl), sentAt, reached]
      simp
  · refine ⟨stream, ?_, [], goesOn_of_queue rfl rfl rfl, rfl, ?_⟩
    · obtain ⟨index, inPlace⟩ := List.mem_iff_getElem?.mp there
      have elsewhere : loop.next ≠ index := by
        rintro rfl
        rw [inPlace] at found
        exact same (congrArg _ (Option.some.inj found))
      rw [← List.getElem?_set_ne elsewhere] at inPlace
      exact List.mem_of_getElem? inPlace
    · intro _ _
      rw [sentAt, reached]
      simp [Ne.symm same]

/-- Every stream goes on. -/
theorem exists_goesOn (own : HasOwnIds shared) (stepped : shared.step event = some next)
    (there : stream ∈ shared.known) :
    ∃ later ∈ next.known, ∃ added, GoesOn shared event stream later added := by
  cases steps_of_step stepped with
  | subscribes quiet =>
      refine ⟨stream, ?_, [], goesOn_of_queue rfl rfl rfl⟩
      rcases List.mem_append.mp there with kept | removed
      · exact List.mem_append_left _ (List.mem_append_left _ kept)
      · exact List.mem_append_right _ removed
  | closes id =>
      rcases List.mem_append.mp there with kept | removed
      · refine ⟨_, List.mem_append_left _ (mem_updateStream id LogStream.closed kept), [], ?_⟩
        split
        · exact goesOn_of_queue rfl rfl rfl
        · exact goesOn_of_queue rfl rfl rfl
      · exact ⟨stream, List.mem_append_right _ removed, [], goesOn_of_queue rfl rfl rfl⟩
  | takes id =>
      refine ⟨if stream.id = id then stream.taken else stream, ?_, [], ?_⟩
      · rcases List.mem_append.mp there with kept | removed
        · exact List.mem_append_left _ (mem_updateStream id LogStream.taken kept)
        · exact List.mem_append_right _ (mem_updateStream id LogStream.taken removed)
      · split
        · rename_i same
          exact same ▸ goesOn_take own there
        · rename_i other
          exact goesOn_of_queue rfl rfl (if_neg fun same => other same.symm)
  | begins msg => exact ⟨stream, there, [], goesOn_of_queue rfl rfl rfl⟩
  | sends loop other _ found reached =>
      rcases List.mem_append.mp there with kept | removed
      · obtain ⟨later, among, added, goesOn, -⟩ := exists_of_send own kept found reached
        exact ⟨later, List.mem_append_left _ among, added, goesOn⟩
      · exact ⟨stream, List.mem_append_right _ removed, [], goesOn_of_queue rfl rfl rfl⟩
  | ends loop _ _ => exact ⟨stream, there, [], goesOn_of_queue rfl rfl rfl⟩
  | removes dispatch log _ removed =>
      have still := (removalPhase_perm removed).1.mem_iff.mpr there
      exact ⟨stream, still, [], goesOn_of_queue rfl rfl rfl⟩

end

/-! ### What is sent to a stream -/

/-- What has been sent to a stream since it was there, against the dispatches begun since then
and the loops of those that are sending. -/
structure TracksSends (id : Nat) (sent begun : List (Nat × Message)) (shared : SharedLog Message) :
    Prop where
  numbered : ∀ entry ∈ begun, entry.1 < shared.nextDispatch
  distinct : (begun.map Prod.fst).Nodup
  once : sent.Nodup
  sent_begun : ∀ entry ∈ sent, entry ∈ begun
  loops : ∀ loop ∈ shared.sending, (loop.dispatch, loop.msg) ∈ begun
  sent_iff : ∀ loop ∈ shared.sending, ∀ index stream, shared.log.streams[index]? = some stream →
    stream.id = id → ((loop.dispatch, loop.msg) ∈ sent ↔ index < loop.next)

section

variable {shared next : SharedLog Message} {event : SharedEvent Message}
variable {id : Nat} {sent begun : List (Nat × Message)}

theorem TracksSends.eq_of_fst (tracks : TracksSends id sent begun shared) {entry other : Nat × Message}
    (among : entry ∈ begun) (also : other ∈ begun) (same : entry.1 = other.1) : entry = other :=
  List.inj_on_of_nodup_map tracks.distinct among also same

/-- Steps of the receivers, and those that have waited for the dispatches. -/
theorem TracksSends.of_streams (tracks : TracksSends id sent begun shared)
    (numbers : next.nextDispatch = shared.nextDispatch) (loops : next.sending = shared.sending)
    (places : shared.sending ≠ [] →
      next.log.streams.map (·.id) = shared.log.streams.map (·.id)) :
    TracksSends id sent begun next := by
  refine ⟨numbers ▸ tracks.numbered, tracks.distinct, tracks.once, tracks.sent_begun,
    loops ▸ tracks.loops, ?_⟩
  rw [loops]
  intro loop among index stream found same
  obtain ⟨before, there, id⟩ := exists_of_map_id (places (List.ne_nil_of_mem among)) found
  exact tracks.sent_iff loop among index before there (id.trans same)

theorem TracksSends.begins (tracks : TracksSends id sent begun shared) (msg : Message) :
    TracksSends id sent (begun ++ [(shared.nextDispatch, msg)]) (shared.begin msg) := by
  have fresh : ∀ entry ∈ begun, entry.1 ≠ shared.nextDispatch :=
    fun entry among => Nat.ne_of_lt (tracks.numbered entry among)
  constructor
  · intro entry among
    rcases List.mem_append.mp among with before | added
    · exact Nat.lt_succ_of_lt (tracks.numbered entry before)
    · rw [List.mem_singleton.mp added]
      exact Nat.lt_succ_self _
  · rw [List.map_append, List.map_singleton, List.nodup_append]
    refine ⟨tracks.distinct, List.nodup_singleton _, ?_⟩
    intro number listed other added same
    obtain ⟨entry, among, rfl⟩ := List.mem_map.mp listed
    exact fresh entry among (same.trans (List.mem_singleton.mp added))
  · exact tracks.once
  · exact fun entry among => List.mem_append_left _ (tracks.sent_begun entry among)
  · intro loop among
    rcases mem_sending_begin among with before | rfl
    · exact List.mem_append_left _ (tracks.loops loop before)
    · exact List.mem_append_right _ List.mem_cons_self
  · intro loop among index stream found same
    rcases mem_sending_begin among with before | rfl
    · exact tracks.sent_iff loop before index stream found same
    · refine iff_of_false (fun listed => ?_) (Nat.not_lt_zero _)
      exact fresh _ (tracks.sent_begun _ listed) rfl

theorem TracksSends.sends (own : HasOwnIds shared) (tracks : TracksSends id sent begun shared)
    {loop : SendLoop Message} {stream : LogStream Message} (among : loop ∈ shared.sending)
    (found : shared.log.streams[loop.next]? = some stream) :
    TracksSends id (sent ++ if stream.id = id then [(loop.dispatch, loop.msg)] else []) begun
      (shared.send loop stream) := by
  have places : (shared.send loop stream).log.streams.map (·.id) =
      shared.log.streams.map (·.id) := map_id_set found (id_trySend stream loop.msg)
  have distinct : (shared.log.streams.map (·.id)).Nodup := by
    have all := own.distinct
    rw [SharedLog.known, List.map_append] at all
    exact all.of_append_left
  have fresh : stream.id = id → (loop.dispatch, loop.msg) ∉ sent := fun same listed =>
    Nat.lt_irrefl _ ((tracks.sent_iff loop among _ stream found same).mp listed)
  refine ⟨tracks.numbered, tracks.distinct, ?_, ?_, ?_, ?_⟩
  · split
    · rename_i same
      rw [List.nodup_append]
      refine ⟨tracks.once, List.nodup_singleton _, ?_⟩
      intro entry listed other added equal
      exact fresh same (List.mem_singleton.mp added ▸ equal ▸ listed)
    · rw [List.append_nil]
      exact tracks.once
  · intro entry listed
    rcases List.mem_append.mp listed with before | added
    · exact tracks.sent_begun entry before
    · split at added
      · rw [List.mem_singleton.mp added]
        exact tracks.loops loop among
      · cases added
  · intro later listed
    rcases mem_sending_send listed with ⟨before, -⟩ | ⟨number, msg, -⟩
    · exact tracks.loops later before
    · rw [number, msg]
      exact tracks.loops loop among
  · intro later listed index other there same
    obtain ⟨before, stood, idBefore⟩ := exists_of_map_id places there
    have sameBefore := idBefore.trans same
    rcases mem_sending_send listed with ⟨earlier, different⟩ | ⟨number, msg, further⟩
    · rw [← tracks.sent_iff later earlier index before stood sameBefore, List.mem_append,
        or_iff_left]
      intro added
      split at added
      · exact different (congrArg Prod.fst (List.mem_singleton.mp added))
      · cases added
    · rw [number, msg, further, List.mem_append,
        tracks.sent_iff loop among index before stood sameBefore]
      by_cases here : index = loop.next
      · subst here
        rw [found] at stood
        obtain rfl := Option.some.inj stood
        rw [if_pos sameBefore]
        simp
      · have elsewhere : stream.id ≠ id := by
          intro again
          have equal : index = loop.next := by
            apply (List.getElem?_inj _ distinct).mp
            · rw [List.getElem?_map, List.getElem?_map, stood, found, Option.map_some,
                Option.map_some, sameBefore, again]
            · rw [List.length_map]
              exact (List.getElem?_eq_some_iff.mp stood).1
          exact here equal
        rw [if_neg elsewhere, or_iff_left List.not_mem_nil]
        omega

theorem TracksSends.step (own : HasOwnIds shared) (tracks : TracksSends id sent begun shared)
    (stepped : shared.step event = some next) :
    TracksSends id (sent ++ sentAt id shared event) (begun ++ begunAt shared event) next := by
  cases steps_of_step stepped with
  | subscribes quiet =>
      simp only [sentAt, begunAt, List.append_nil]
      exact tracks.of_streams rfl rfl fun sending => absurd quiet sending
  | closes other =>
      simp only [sentAt, begunAt, List.append_nil]
      exact tracks.of_streams rfl rfl fun _ =>
        map_id_updateStream other (f := LogStream.closed) (fun _ => rfl) _
  | takes other =>
      simp only [sentAt, begunAt, List.append_nil]
      exact tracks.of_streams rfl rfl fun _ =>
        map_id_updateStream other (f := LogStream.taken) (fun _ => rfl) _
  | begins msg =>
      simp only [sentAt, List.append_nil]
      exact tracks.begins msg
  | sends loop stream among found reached =>
      simp only [sentAt, begunAt, reached, List.append_nil]
      exact tracks.sends own among found
  | ends loop _ _ =>
      simp only [sentAt, begunAt, List.append_nil]
      refine ⟨tracks.numbered, tracks.distinct, tracks.once, tracks.sent_begun, ?_, ?_⟩
      · exact fun other among => tracks.loops other (List.mem_of_mem_filter among)
      · exact fun other among => tracks.sent_iff other (List.mem_of_mem_filter among)
  | removes dispatch log quiet _ =>
      simp only [sentAt, begunAt, List.append_nil]
      exact tracks.of_streams rfl rfl fun sending => absurd quiet sending

/-- While the stream is in the list, the dispatches that have ended have sent to it. -/
def HasReached (sent begun : List (Nat × Message)) (shared : SharedLog Message) : Prop :=
  ∀ entry ∈ begun, entry ∈ sent ∨ ∃ loop ∈ shared.sending, loop.dispatch = entry.1

theorem HasReached.step {stream : LogStream Message} (reaches : HasReached sent begun shared)
    (tracks : TracksSends id sent begun shared) (there : stream ∈ shared.log.streams)
    (same : stream.id = id) (stepped : shared.step event = some next) :
    HasReached (sent ++ sentAt id shared event) (begun ++ begunAt shared event) next := by
  have kept : (∀ loop ∈ shared.sending, ∃ later ∈ next.sending, later.dispatch = loop.dispatch) →
      HasReached (sent ++ sentAt id shared event) begun next := by
    intro loops entry among
    rcases reaches entry among with reached | ⟨loop, listed, number⟩
    · exact .inl (List.mem_append_left _ reached)
    · obtain ⟨later, still, equal⟩ := loops loop listed
      exact .inr ⟨later, still, equal.trans number⟩
  cases steps_of_step stepped with
  | subscribes _ | closes _ | takes _ | removes _ _ _ _ =>
      simp only [begunAt, List.append_nil]
      exact kept fun loop among => ⟨loop, among, rfl⟩
  | begins msg =>
      have nonempty : shared.log.streams.isEmpty = false :=
        List.isEmpty_eq_false_iff.mpr (List.ne_nil_of_mem there)
      have loops : (shared.begin msg).sending =
          shared.sending ++ [{ dispatch := shared.nextDispatch, msg }] := by
        simp [SharedLog.begin, nonempty]
      intro entry among
      rcases List.mem_append.mp among with before | added
      · refine kept (fun loop listed => ⟨loop, ?_, rfl⟩) entry before
        rw [loops]
        exact List.mem_append_left _ listed
      · rw [List.mem_singleton.mp added, loops]
        exact .inr ⟨_, List.mem_append_right _ List.mem_cons_self, rfl⟩
  | sends loop other _ _ _ =>
      simp only [begunAt, List.append_nil]
      refine kept fun before among => ⟨_, List.mem_map_of_mem among, ?_⟩
      split
      · rename_i equal
        exact equal.symm
      · rfl
  | ends loop among through =>
      simp only [sentAt, begunAt, List.append_nil]
      intro entry listed
      rcases reaches entry listed with reached | ⟨other, otherAmong, number⟩
      · exact .inl reached
      · by_cases own : other.dispatch = loop.dispatch
        · -- the loop is through, so it has come to the stream
          obtain ⟨index, found⟩ := List.mem_iff_getElem?.mp there
          obtain ⟨inside, -⟩ := List.getElem?_eq_some_iff.mp found
          have passed := (tracks.sent_iff loop among index stream found same).mpr (by omega)
          have equal := tracks.eq_of_fst (tracks.loops loop among) listed (own.symm.trans number)
          exact .inl (equal ▸ passed)
        · refine .inr ⟨other, List.mem_filter.mpr ⟨otherAmong, ?_⟩, number⟩
          exact decide_eq_true own

end

end SmartDnsPlusUi
