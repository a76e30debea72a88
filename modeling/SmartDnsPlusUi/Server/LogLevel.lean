import SmartDnsPlusUi.Run.Basic
import SmartDnsPlusUi.Server.ServerLog

/-!
# The log level of log stream sessions

A session of the log stream notes the global log level when it starts, may set
it while it runs, and sets it back to the noted level when it ends.  Sessions
share the level, so one that starts while another has changed the level notes
the changed one.
-/

namespace SmartDnsPlusUi

def LogLevel.tryFrom (value : List Char) : Option LogLevel :=
  let lowercase := value.map Char.toLower
  if lowercase = "debug".toList then some .debug
  else if lowercase = "info".toList then some .info
  else if lowercase = "notice".toList then some .notice
  else if lowercase = "warn".toList then some .warn
  else if lowercase = "error".toList then some .error
  else if lowercase = "fatal".toList then some .fatal
  else if lowercase = "off".toList then some .off
  else none

/-- The bytes as characters, if they are all ASCII.  The names of the levels are
ASCII, and no other character becomes a letter of theirs in lower case. -/
def asciiText (bytes : List UInt8) : Option (List Char) :=
  if bytes.all (· < 128) then some (bytes.map fun byte => Char.ofNat byte.toNat) else none

def logControlMessageType : UInt8 := 1
def logControlPause : UInt8 := 1
def logControlResume : UInt8 := 2
def logControlLogLevel : UInt8 := 3

structure LogLevelGuard where
  oldLogLevel : LogLevel
  deriving DecidableEq

/-- A running `serve_log_stream`. -/
structure LogSession where
  id : Nat
  isPause : Bool := false
  guard : LogLevelGuard
  deriving DecidableEq

/-- What the websocket of a session yields while the session goes on. -/
inductive StreamMessage where
  | text
  | binary (msg : List UInt8)
  | ping
  | pong
  deriving DecidableEq

inductive LevelEvent where
  | openSession
  | message (id : Nat) (message : StreamMessage)
  | closeSession (id : Nat)
  deriving DecidableEq

/-- The global level, the sessions that are open, and, as a record of the run, the
level in force when each session was opened, in the order of their numbers. -/
structure LevelState where
  level : LogLevel
  sessions : List LogSession := []
  openings : List LogLevel := []
  deriving DecidableEq

def LogLevelGuard.new (level : LogLevel) : LogLevelGuard := { oldLogLevel := level }

def setPause (id : Nat) (isPause : Bool) (sessions : List LogSession) : List LogSession :=
  sessions.map fun session => if session.id = id then { session with isPause } else session

/-- What a session does with a message. -/
def handleMessage (id : Nat) (state : LevelState) : StreamMessage → LevelState
  | .binary (messageType :: controlType :: levelMsg) =>
      if messageType = logControlMessageType then
        if controlType = logControlPause then
          { state with sessions := setPause id true state.sessions }
        else if controlType = logControlResume then
          { state with sessions := setPause id false state.sessions }
        else if controlType = logControlLogLevel then
          -- the whole message has at least six bytes
          if levelMsg.length + 2 < 6 then state
          else
            match (asciiText levelMsg).bind LogLevel.tryFrom with
            | some level => { state with level }
            | none => state
        else state
      else state
  | _ => state

/-- A session ends with a close message, an error of the websocket or the end of
the log; its guard is dropped in every case. -/
def levelStep (state : LevelState) : LevelEvent → Option LevelState
  | .openSession =>
      let id := state.openings.length
      some { state with
        sessions := state.sessions ++ [{ id, guard := .new state.level }]
        openings := state.openings ++ [state.level] }
  | .message id message =>
      if state.sessions.any (·.id = id) then some (handleMessage id state message) else none
  | .closeSession id =>
      match state.sessions.find? (·.id = id) with
      | none => none
      | some session =>
          some { state with
            level := session.guard.oldLogLevel
            sessions := state.sessions.filter (·.id ≠ id) }

/-- When no session is open, the level is the initial one. -/
def IsRestored (initial : LogLevel) (state : LevelState) : Prop :=
  state.sessions = [] → state.level = initial

/-- A session that closes while no other is open was opened at the initial level. -/
def ClosesFromInitial (initial : LogLevel) (state : LevelState) : LevelEvent → Prop
  | .closeSession id =>
      (∀ session ∈ state.sessions, session.id = id) → state.openings[id]? = some initial
  | _ => True

/-- Every open session has noted the level in force when it was opened. -/
def HasNoted (state : LevelState) : Prop :=
  ∀ session ∈ state.sessions, state.openings[session.id]? = some session.guard.oldLogLevel

theorem mem_setPause {id : Nat} {isPause : Bool} {sessions : List LogSession}
    {session : LogSession} (mem : session ∈ setPause id isPause sessions) :
    ∃ before ∈ sessions, session.id = before.id ∧ session.guard = before.guard := by
  obtain ⟨before, mem_before, rfl⟩ := List.mem_map.mp mem
  refine ⟨before, mem_before, ?_⟩
  split <;> exact ⟨rfl, rfl⟩

/-- A message changes no session but for its pausing. -/
theorem mem_sessions_handleMessage {id : Nat} {state : LevelState} {message : StreamMessage}
    {session : LogSession} (mem : session ∈ (handleMessage id state message).sessions) :
    ∃ before ∈ state.sessions, session.id = before.id ∧ session.guard = before.guard := by
  unfold handleMessage at mem
  repeat' split at mem
  all_goals first
    | exact mem_setPause mem
    | exact ⟨session, mem, rfl, rfl⟩

@[simp] theorem handleMessage_openings (id : Nat) (state : LevelState) (message : StreamMessage) :
    (handleMessage id state message).openings = state.openings := by
  unfold handleMessage
  repeat' split
  all_goals rfl

theorem setPause_ids (id : Nat) (isPause : Bool) (sessions : List LogSession) :
    (setPause id isPause sessions).map LogSession.id = sessions.map LogSession.id := by
  rw [setPause, List.map_map]
  refine List.map_congr_left fun session _ => ?_
  rw [Function.comp_apply]
  split <;> rfl

@[simp] theorem handleMessage_ids (id : Nat) (state : LevelState) (message : StreamMessage) :
    (handleMessage id state message).sessions.map LogSession.id =
      state.sessions.map LogSession.id := by
  unfold handleMessage
  repeat' split
  all_goals first
    | exact setPause_ids _ _ _
    | rfl

theorem sessions_handleMessage_ne_nil {id : Nat} {state : LevelState} (message : StreamMessage)
    {session : LogSession} (isOpen : session ∈ state.sessions) :
    (handleMessage id state message).sessions ≠ [] := by
  intro none_open
  have ids := handleMessage_ids id state message
  rw [none_open, List.map_nil] at ids
  rw [List.map_eq_nil_iff.mp ids.symm] at isOpen
  cases isOpen

/-- What an event does to the state it meets. -/
theorem levelStep_eq_some {state next : LevelState} {event : LevelEvent}
    (stepped : levelStep state event = some next) :
    (event = .openSession ∧
      next = { state with
        sessions := state.sessions ++
          [{ id := state.openings.length, guard := .new state.level }]
        openings := state.openings ++ [state.level] }) ∨
    (∃ id message, event = .message id message ∧ (∃ session ∈ state.sessions, session.id = id) ∧
      next = handleMessage id state message) ∨
    (∃ session ∈ state.sessions, event = .closeSession session.id ∧
      next = { state with
        level := session.guard.oldLogLevel
        sessions := state.sessions.filter (·.id ≠ session.id) }) := by
  cases event with
  | openSession => exact .inl ⟨rfl, (Option.some.inj stepped).symm⟩
  | message id message =>
      rw [levelStep] at stepped
      split at stepped
      · next isOpen =>
          refine .inr (.inl ⟨id, message, rfl, ?_, (Option.some.inj stepped).symm⟩)
          simpa using isOpen
      · cases stepped
  | closeSession id =>
      rw [levelStep] at stepped
      split at stepped
      · cases stepped
      · next session found =>
          have same : session.id = id := by simpa using List.find?_some found
          subst same
          exact .inr (.inr ⟨session, List.mem_of_find?_eq_some found, rfl,
            (Option.some.inj stepped).symm⟩)

theorem HasNoted.step {state next : LevelState} {event : LevelEvent} (noted : HasNoted state)
    (stepped : levelStep state event = some next) : HasNoted next := by
  intro session mem
  rcases levelStep_eq_some stepped with
    ⟨-, rfl⟩ | ⟨id, message, -, -, rfl⟩ | ⟨closed, -, -, rfl⟩
  · rcases List.mem_append.mp mem with old | new
    · have found := noted session old
      rw [List.getElem?_append_left (List.getElem?_eq_some_iff.mp found).1]
      exact found
    · rw [List.mem_singleton] at new
      subst new
      exact List.getElem?_concat_length
  · obtain ⟨before, mem_before, same_id, same_guard⟩ := mem_sessions_handleMessage mem
    rw [handleMessage_openings, same_id, same_guard]
    exact noted before mem_before
  · exact noted session (List.mem_filter.mp mem).1

/-- Only the closing of the last open session leads to a state without sessions,
and it sets the level to what the session noted. -/
theorem isRestored_step_iff {initial : LogLevel} {state next : LevelState} {event : LevelEvent}
    (noted : HasNoted state) (stepped : levelStep state event = some next) :
    IsRestored initial next ↔ ClosesFromInitial initial state event := by
  rcases levelStep_eq_some stepped with
    ⟨rfl, rfl⟩ | ⟨id, message, rfl, ⟨session, isOpen, -⟩, rfl⟩ | ⟨session, isOpen, rfl, rfl⟩
  · exact iff_of_true (fun none_open => (List.append_ne_nil_of_right_ne_nil _
      (List.cons_ne_nil _ _) none_open).elim) trivial
  · exact iff_of_true (fun none_open =>
      (sessions_handleMessage_ne_nil message isOpen none_open).elim) trivial
  · have found := noted session isOpen
    simp only [IsRestored, ClosesFromInitial, found, Option.some.injEq, List.filter_eq_nil_iff,
      decide_eq_true_eq, not_not, ne_eq]

/-- Whenever no session is open, the level is what it was at first, if and only if
every session closed while no other was open had been opened at that level. -/
theorem logLevel_restored_iff (initial : LogLevel) (events : List LevelEvent)
    {final : LevelState} (runs : Run.run levelStep { level := initial } events = some final) :
    Run.Always levelStep (IsRestored initial) { level := initial } events ↔
      Run.Throughout levelStep (ClosesFromInitial initial) { level := initial } events := by
  refine @Run.always_iff_throughout _ _ _ _
    (fun state => HasNoted state ∧ IsRestored initial state) _ (fun _ good => good.2)
    ?_ ?_ _ _ _ ⟨nofun, fun _ => rfl⟩ runs
  · intro state event next good meets stepped
    exact ⟨good.1.step stepped, (isRestored_step_iff good.1 stepped).mpr meets⟩
  · intro state event next good violates stepped restored
    exact violates ((isRestored_step_iff good.1 stepped).mp restored)

/-- A session closes only while none opened after it is open. -/
def ClosesNewest (state : LevelState) : LevelEvent → Prop
  | .closeSession id => ∀ session ∈ state.sessions, session.id ≤ id
  | _ => True

/-- The sessions stand in the order of their opening, and the first was opened at
the initial level, which still holds when none is open. -/
structure IsNested (initial : LogLevel) (state : LevelState) : Prop where
  noted : HasNoted state
  ordered : (state.sessions.map LogSession.id).Pairwise (· < ·)
  restored : IsRestored initial state
  first : ∀ id ∈ (state.sessions.map LogSession.id).head?, state.openings[id]? = some initial

theorem HasNoted.lt {state : LevelState} (noted : HasNoted state) {id : Nat}
    (mem : id ∈ state.sessions.map LogSession.id) : id < state.openings.length := by
  obtain ⟨session, isOpen, rfl⟩ := List.mem_map.mp mem
  exact (List.getElem?_eq_some_iff.mp (noted session isOpen)).1

theorem IsNested.openSession {initial : LogLevel} {state : LevelState}
    (nested : IsNested initial state) (noted : HasNoted { state with
      sessions := state.sessions ++ [{ id := state.openings.length, guard := .new state.level }]
      openings := state.openings ++ [state.level] }) :
    IsNested initial { state with
      sessions := state.sessions ++ [{ id := state.openings.length, guard := .new state.level }]
      openings := state.openings ++ [state.level] } where
  noted := noted
  ordered := by
    rw [List.map_append, List.pairwise_append]
    refine ⟨nested.ordered, List.pairwise_singleton _ _, fun id old new isNew => ?_⟩
    rw [List.map_singleton, List.mem_singleton] at isNew
    exact isNew ▸ nested.noted.lt old
  restored := fun none_open => by simp at none_open
  first := by
    intro id isFirst
    cases sessions : state.sessions with
    | nil =>
        have same : state.openings.length = id := by simpa [sessions] using isFirst
        rw [← same, List.getElem?_concat_length, nested.restored sessions]
    | cons session rest =>
        have same : session.id = id := by simpa [sessions] using isFirst
        have mem : session.id ∈ state.sessions.map LogSession.id := by simp [sessions]
        rw [← same, List.getElem?_append_left (nested.noted.lt mem)]
        exact nested.first session.id (by simp [sessions])

/-- Where the newest session closes, the oldest one stays or is the only one. -/
theorem IsNested.closesFromInitial {initial : LogLevel} {state next : LevelState}
    {event : LevelEvent} (nested : IsNested initial state)
    (stepped : levelStep state event = some next) : ClosesFromInitial initial state event := by
  rcases levelStep_eq_some stepped with
    ⟨rfl, -⟩ | ⟨id, message, rfl, -, -⟩ | ⟨session, isOpen, rfl, -⟩
  · trivial
  · trivial
  · intro alone
    refine nested.first session.id ?_
    cases sessions : state.sessions with
    | nil => simp [sessions] at isOpen
    | cons oldest rest => simp [alone oldest (by simp [sessions])]

theorem IsNested.step {initial : LogLevel} {state next : LevelState} {event : LevelEvent}
    (nested : IsNested initial state) (newest : ClosesNewest state event)
    (stepped : levelStep state event = some next) : IsNested initial next := by
  have noted := nested.noted.step stepped
  have restored :=
    (isRestored_step_iff nested.noted stepped).mpr (nested.closesFromInitial stepped)
  rcases levelStep_eq_some stepped with
    ⟨-, rfl⟩ | ⟨id, message, -, -, rfl⟩ | ⟨session, isOpen, rfl, rfl⟩
  · exact nested.openSession noted
  · refine ⟨noted, ?_, restored, ?_⟩
    · rw [handleMessage_ids]
      exact nested.ordered
    · rw [handleMessage_ids, handleMessage_openings]
      exact nested.first
  · refine ⟨noted, ?_, restored, ?_⟩
    · exact nested.ordered.sublist (List.filter_sublist.map _)
    · intro id isFirst
      refine nested.first id ?_
      have ordered := nested.ordered
      cases sessions : state.sessions with
      | nil => simp [sessions] at isOpen
      | cons oldest rest =>
          rw [sessions, List.map_cons, List.pairwise_cons] at ordered
          by_cases isOldest : oldest.id = session.id
          · -- no session is newer than the one that closes, so the oldest is the only one
            cases rest with
            | nil => simp [sessions, isOldest] at isFirst
            | cons second _ =>
                have older : oldest.id < second.id := ordered.1 second.id (by simp)
                have newer : second.id ≤ session.id := newest second (by simp [sessions])
                exact absurd (isOldest ▸ older) (Nat.not_lt.mpr newer)
          · simpa [sessions, isOldest] using isFirst

/-- Sessions that close in the reverse order of their opening restore the level. -/
theorem logLevel_restored_of_nested (initial : LogLevel) (events : List LevelEvent)
    (nested : Run.Throughout levelStep ClosesNewest { level := initial } events) :
    Run.Always levelStep (IsRestored initial) { level := initial } events := by
  have start : IsNested initial { level := initial } := ⟨nofun, .nil, fun _ => rfl, nofun⟩
  refine Run.always_of_throughout (fun _ => IsNested.restored) ?_ start nested
  intro state event next good newest stepped
  exact good.step newest stepped

/-- The session opened second closes first. -/
theorem logLevel_restored_example :
    Run.Always levelStep (IsRestored .warn) { level := .warn }
      [.openSession, .message 0 (.binary [1, 3, 68, 101, 98, 117, 103]), .openSession,
        .closeSession 1, .closeSession 0] := by
  have runs : Run.run levelStep { level := .warn }
      [.openSession, .message 0 (.binary [1, 3, 68, 101, 98, 117, 103]), .openSession,
        .closeSession 1, .closeSession 0] =
        some { level := .warn, openings := [.warn, .debug] } := by decide
  refine (logLevel_restored_iff .warn _ runs).mpr ?_
  refine ⟨trivial, fun _ opened => ?_⟩
  cases opened
  refine ⟨trivial, fun _ changed => ?_⟩
  cases changed
  refine ⟨trivial, fun _ opened => ?_⟩
  cases opened
  refine ⟨fun alone => ?_, fun _ closed => ?_⟩
  · exact absurd (alone { id := 0, guard := ⟨.warn⟩ } (by decide)) (by decide)
  · cases closed
    exact ⟨fun _ => rfl, fun _ _ => trivial⟩

/-- The session opened first sets the level and closes first; the other one notes
the level it set, and leaves it behind. -/
theorem not_logLevel_restored :
    ¬ ∀ (initial : LogLevel) (events : List LevelEvent) (final : LevelState),
      Run.run levelStep { level := initial } events = some final → final.sessions = [] →
        final.level = initial := by
  intro all
  have restored := all .warn
    [.openSession, .message 0 (.binary [1, 3, 100, 101, 98, 117, 103]), .openSession,
      .closeSession 0, .closeSession 1]
    { level := .debug, openings := [.warn, .debug] } (by decide) rfl
  cases restored

end SmartDnsPlusUi
