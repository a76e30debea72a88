import SmartDnsPlusUi.Run.Checked
import SmartDnsPlusUi.Server.LogLevel
import SmartDnsPlusUi.Text.Basic

/-!
# Messages to the stream handlers

The loops of the log stream, of the audit log stream and of the terminal read the messages of
a client byte by byte.  The two log streams check every length before they read.  The
terminal does not check the length of a resize message, nor that of an error text.
-/

namespace SmartDnsPlusUi

open Run Text

/-- What the websocket of a client yields: a message, or nothing more.  A raw frame is never
yielded by a websocket that is read. -/
inductive ClientMessage where
  | text (msg : List UInt8)
  | binary (msg : List UInt8)
  | ping
  | pong
  | close
  | gone
  deriving DecidableEq

inductive StreamEffect where
  | sendBinary (msg : List UInt8)
  | sendClose
  | setLevel (level : LogLevel)
  | writeTerm (bytes : List UInt8)
  | resize (wsCol wsRow : Nat)
  deriving DecidableEq

/-- What a pass of a loop does, and the state it goes on with, if it does. -/
structure Pass (State : Type) where
  effects : List StreamEffect := []
  next : Option State

/-- `continue`. -/
def Pass.goOn {State : Type} (state : State) : Pass State where
  next := some state

/-- After a call that is awaited with `?`. -/
def Pass.awaited {State : Type} (succeeds : Bool) (effect : StreamEffect) (state : State) :
    Pass State where
  effects := [effect]
  next := if succeeds then some state else none

/-! ### The log streams -/

structure StreamState where
  isPause : Bool := false
  deriving DecidableEq

/-- A pass of a log stream: the next message of the log with whether it can be sent, or a
message of the client. -/
inductive StreamEvent where
  | log (msg : Option (LogLevel × List UInt8)) (sent : Bool)
  | client (message : ClientMessage)
  deriving DecidableEq

def LogLevel.toByte : LogLevel → UInt8
  | .debug => 0
  | .info => 1
  | .notice => 2
  | .warn => 3
  | .error => 4
  | .fatal => 5
  | .off => 6

/-- What is sent for a message of the log. -/
def forwardLog (state : StreamState) (binary : LogLevel × List UInt8 → List UInt8)
    (msg : Option (LogLevel × List UInt8)) (sent : Bool) : Pass StreamState :=
  if state.isPause then .goOn state
  else
    match msg with
    | some msg => .awaited sent (.sendBinary (binary msg)) state
    | none => { effects := [.sendClose], next := none }

/-- A message of the client to a log stream, but for the binary ones. -/
def streamMessage (state : StreamState) (binary : List UInt8 → Checked (Pass StreamState)) :
    ClientMessage → Checked (Pass StreamState)
  | .binary msg => binary msg
  | .close => .ok { effects := [.sendClose], next := none }
  | .gone => .ok { next := none }
  | .text _ | .ping | .pong => .ok (.goOn state)

/-- `std::str::from_utf8`, for any way to decode bytes. -/
abbrev Decoder := List UInt8 → Option Text

/-- The bytes after the control type that name a level. -/
def setLogLevel (decode : Decoder) (state : StreamState) (msg : List UInt8) :
    Checked (Pass StreamState) :=
  if msg.length < 6 then .ok (.goOn state)
  else do
    let levelMsg ← slice msg 2 (2 + msg.length - 2)
    if (decode levelMsg).isNone then .ok (.goOn state)
    else do
      let strLogLevel ← unwrap (decode levelMsg)
      if strLogLevel = [] then .ok (.goOn state)
      else if (LogLevel.tryFrom strLogLevel).isNone then .ok (.goOn state)
      else do
        let logLevel ← unwrap (LogLevel.tryFrom strLogLevel)
        .ok { effects := [.setLevel logLevel], next := some state }

/-- A control message: the pause, and what else the stream knows. -/
def streamControl (state : StreamState) (msg : List UInt8)
    (other : UInt8 → Checked (Pass StreamState)) : Checked (Pass StreamState) :=
  if msg.length = 0 then .ok (.goOn state)
  else do
    let msgType ← index msg 0
    if msgType = logControlMessageType then
      if msg.length < 2 then .ok (.goOn state)
      else do
        let controlType ← index msg 1
        if controlType = logControlPause then .ok (.goOn { state with isPause := true })
        else if controlType = logControlResume then
          .ok (.goOn { state with isPause := false })
        else other controlType
    else .ok (.goOn state)

/-- A pass of the loop of `serve_log_stream`. -/
def serveLogStream (decode : Decoder) (state : StreamState) :
    StreamEvent → Checked (Pass StreamState)
  | .log msg sent => .ok (forwardLog state (fun msg => 0 :: msg.1.toByte :: msg.2) msg sent)
  | .client message =>
      streamMessage state
        (fun msg => streamControl state msg fun controlType =>
          if controlType = logControlLogLevel then setLogLevel decode state msg
          else .ok (.goOn state))
        message

/-- A pass of the loop of `serve_audit_log_stream`. -/
def serveAuditLogStream (state : StreamState) : StreamEvent → Checked (Pass StreamState)
  | .log msg sent => .ok (forwardLog state (fun msg => 0 :: msg.2) msg sent)
  | .client message =>
      streamMessage state
        (fun msg => streamControl state msg fun _ => .ok (.goOn state))
        message

/-! ### The terminal -/

inductive TermMessageType where
  | data
  | err
  | resize
  | pause
  | resume
  deriving DecidableEq

def TermMessageType.tryFrom (value : UInt8) : Option TermMessageType :=
  match value with
  | 0 => some .data
  | 1 => some .err
  | 2 => some .resize
  | 3 => some .pause
  | 4 => some .resume
  | _ => none

/-- The size of the buffers. -/
def termBufferSize : Nat := 4096

/-- What the terminal gives is read behind the first byte of the buffer. -/
structure TermRead where
  bytes : List UInt8
  fits : bytes.length + 1 ≤ termBufferSize
  deriving DecidableEq

/-- A pass of the loop: a reading of the terminal with whether it can be sent, a failed one
with its error text, or a message of the client with whether the terminal takes it. -/
inductive TermEvent where
  | read (data : TermRead) (sent : Bool)
  | readError (text : List UInt8)
  | client (message : ClientMessage) (written : Bool)
  deriving DecidableEq

/-- A buffer of zeros with its first byte set. -/
def termBuffer (first : UInt8) : List UInt8 := first :: List.replicate (termBufferSize - 1) 0

/-- The binary message that `send_error_msg` makes of a text.  It is given to the websocket,
and so is a close message, but neither of the two calls is awaited. -/
def sendErrorMsg (text : List UInt8) : Checked (List UInt8) := do
  let buf := termBuffer 1
  let target ← slice buf 1 (text.length + 1)
  let copied ← copyFromSlice target text
  slice (buf.take 1 ++ copied ++ buf.drop (1 + copied.length)) 0 (text.length + 1)

def asciiBytes (t : Text) : List UInt8 := t.map fun c => UInt8.ofNat c.toNat

def invalidMessageType : List UInt8 := asciiBytes "invalid message type"

/-- `u16::from_be_bytes` of two bytes that are made an array. -/
def fromBeBytes : List UInt8 → Checked Nat
  | [high, low] => .ok (256 * high.toNat + low.toNat)
  | _ => .error .unwrapped

def resizeTerm (state : StreamState) (msg : List UInt8) : Checked (Pass StreamState) := do
  let wsCol ← slice msg 0 2 >>= fromBeBytes
  let wsRow ← slice msg 2 4 >>= fromBeBytes
  .ok { effects := [.resize wsCol wsRow], next := some state }

def termMessage (state : StreamState) (written : Bool) (msg : List UInt8) :
    Checked (Pass StreamState) :=
  if msg.length = 0 then .ok (.goOn state)
  else do
    let first ← index msg 0
    if (TermMessageType.tryFrom first).isNone then do
      let _ ← sendErrorMsg invalidMessageType
      .ok { next := none }
    else do
      let msgType ← unwrap (TermMessageType.tryFrom first)
      let rest ← sliceFrom msg 1
      match msgType with
      | .resize => resizeTerm state rest
      | .pause => .ok (.goOn { state with isPause := true })
      | .resume => .ok (.goOn { state with isPause := false })
      | .data => .ok (.awaited written (.writeTerm rest) state)
      | .err => .ok (.goOn state)

/-- A pass of the loop of `serve_term`. -/
def serveTerm (state : StreamState) : TermEvent → Checked (Pass StreamState)
  | .read data sent =>
      if data.bytes.length = 0 then .ok { effects := [.sendClose], next := none }
      else if state.isPause then .ok (.goOn state)
      else do
        let buf := 0 :: data.bytes ++ List.replicate (termBufferSize - 1 - data.bytes.length) 0
        let msg ← slice buf 0 (data.bytes.length + 1)
        .ok (.awaited sent (.sendBinary msg) state)
  | .readError text => do
      let _ ← sendErrorMsg text
      .ok { next := none }
  | .client message written =>
      match message with
      | .text msg => .ok (.awaited written (.writeTerm msg) state)
      | .binary msg => termMessage state written msg
      | .ping | .pong => .ok (.goOn state)
      | .close | .gone => .ok { next := none }

/-! ### Which messages make a loop panic -/

/-- A resize message without the four bytes of the new size. -/
def IsShortResize (msg : List UInt8) : Prop := msg.head? = some 2 ∧ msg.length < 5

/-- What the loop of the terminal has no check for: a short resize message, and an error text
that does not fit into the buffer behind its first byte. -/
def BreaksTerm : TermEvent → Prop
  | .client (.binary msg) _ => IsShortResize msg
  | .readError text => termBufferSize ≤ text.length
  | _ => False

instance (msg : List UInt8) : Decidable (IsShortResize msg) :=
  inferInstanceAs (Decidable (_ ∧ _))

/-- A pass, of which only what the loop goes on with is kept. -/
def passes {Event : Type} (serve : StreamState → Event → Checked (Pass StreamState))
    (state : StreamState) (event : Event) : Checked (Option StreamState) :=
  serve state event >>= fun pass => .ok pass.next

theorem safe_passes_iff {Event : Type}
    (serve : StreamState → Event → Checked (Pass StreamState)) (state : StreamState)
    (event : Event) : Safe (passes serve state event) ↔ Safe (serve state event) := by
  rw [passes, safe_bind_iff]
  constructor
  · rintro ⟨pass, served, -⟩
    exact ⟨pass, served⟩
  · rintro ⟨pass, served⟩
    exact ⟨pass, served, safe_ok _⟩

theorem safe_setLogLevel (decode : Decoder) (state : StreamState) (msg : List UInt8) :
    Safe (setLogLevel decode state msg) := by
  unfold setLogLevel
  apply safe_ite
  · exact fun _ => safe_ok _
  intro long
  apply safe_bind (slice_of_le (by omega) (by omega))
  apply safe_ite
  · exact fun _ => safe_ok _
  intro decoded
  apply safe_unwrap decoded
  intro strLogLevel _
  apply safe_ite
  · exact fun _ => safe_ok _
  intro _
  apply safe_ite
  · exact fun _ => safe_ok _
  intro named
  apply safe_unwrap named
  exact fun logLevel _ => safe_ok _

theorem safe_streamControl {state : StreamState} {other : UInt8 → Checked (Pass StreamState)}
    (others : ∀ controlType, Safe (other controlType)) (msg : List UInt8) :
    Safe (streamControl state msg other) := by
  unfold streamControl
  apply safe_ite
  · exact fun _ => safe_ok _
  intro nonempty
  apply safe_bind (index_of_lt (Nat.pos_of_ne_zero nonempty))
  apply safe_ite
  · intro _
    apply safe_ite
    · exact fun _ => safe_ok _
    intro long
    apply safe_bind (index_of_lt (Nat.lt_of_not_le fun short => long (Nat.lt_succ_of_le short)))
    apply safe_ite
    · exact fun _ => safe_ok _
    intro _
    apply safe_ite
    · exact fun _ => safe_ok _
    · exact fun _ => others _
  · exact fun _ => safe_ok _

theorem safe_streamMessage {state : StreamState}
    {binary : List UInt8 → Checked (Pass StreamState)} (safe : ∀ msg, Safe (binary msg))
    (message : ClientMessage) : Safe (streamMessage state binary message) := by
  cases message with
  | binary msg => exact safe msg
  | text | ping | pong | close | gone => exact safe_ok _

/-- No message makes a log stream panic. -/
theorem safe_serveLogStream (decode : Decoder) (state : StreamState) (event : StreamEvent) :
    Safe (serveLogStream decode state event) := by
  cases event with
  | log msg sent => exact safe_ok _
  | client message =>
      apply safe_streamMessage
      intro msg
      apply safe_streamControl
      intro controlType
      apply safe_ite
      · exact fun _ => safe_setLogLevel decode state msg
      · exact fun _ => safe_ok _

theorem safe_serveAuditLogStream (state : StreamState) (event : StreamEvent) :
    Safe (serveAuditLogStream state event) := by
  cases event with
  | log msg sent => exact safe_ok _
  | client message =>
      apply safe_streamMessage
      intro msg
      apply safe_streamControl
      exact fun _ => safe_ok _

/-! ### The terminal -/

theorem length_termBuffer (first : UInt8) : (termBuffer first).length = termBufferSize := by
  rw [termBuffer, List.length_cons, List.length_replicate]
  rfl

theorem safe_sendErrorMsg_iff (text : List UInt8) :
    Safe (sendErrorMsg text) ↔ text.length < termBufferSize := by
  have length := length_termBuffer 1
  unfold sendErrorMsg
  dsimp only
  generalize termBuffer 1 = buf at length
  constructor
  · intro safe
    obtain ⟨target, sliced, -⟩ := (safe_bind_iff _ _).mp safe
    by_contra long
    rw [slice_of_lt (by omega)] at sliced
    cases sliced
  · intro fits
    have room : ((buf.take (text.length + 1)).drop 1).length = text.length := by
      rw [List.length_drop, List.length_take]
      omega
    apply safe_bind (slice_of_le (by omega) (by omega))
    apply safe_bind (if_pos room)
    refine ⟨_, slice_of_le (Nat.zero_le _) ?_⟩
    rw [List.length_append, List.length_append, List.length_take, List.length_drop]
    omega

theorem safe_invalidMessageType : Safe (sendErrorMsg invalidMessageType) :=
  (safe_sendErrorMsg_iff invalidMessageType).mpr (by decide)

theorem safe_resizeTerm_iff (state : StreamState) (rest : List UInt8) :
    Safe (resizeTerm state rest) ↔ 4 ≤ rest.length := by
  unfold resizeTerm
  constructor
  · intro safe
    obtain ⟨wsCol, -, later⟩ := (safe_bind_iff _ _).mp safe
    obtain ⟨wsRow, second, -⟩ := (safe_bind_iff _ _).mp later
    by_contra short
    rw [slice_of_lt (by omega)] at second
    cases second
  · intro enough
    match rest, enough with
    | a :: b :: c :: d :: tail, _ =>
        have col : slice (a :: b :: c :: d :: tail) 0 2 = .ok [a, b] :=
          slice_of_le (by omega) (by simp)
        have row : slice (a :: b :: c :: d :: tail) 2 4 = .ok [c, d] :=
          slice_of_le (by omega) (by simp)
        rw [col, row]
        exact safe_ok _

theorem tryFrom_eq_resize_iff (value : UInt8) :
    TermMessageType.tryFrom value = some .resize ↔ value = 2 := by
  constructor
  · intro found
    unfold TermMessageType.tryFrom at found
    split at found
    case h_3 => rfl
    all_goals cases found
  · rintro rfl
    rfl

/-- Only a short resize message makes the terminal panic. -/
theorem safe_termMessage_iff (state : StreamState) (written : Bool) (msg : List UInt8) :
    Safe (termMessage state written msg) ↔ ¬ IsShortResize msg := by
  unfold termMessage
  match msg with
  | [] => exact iff_of_true (safe_ok _) (fun short => by cases short.1)
  | first :: rest =>
      have index_eq : index (first :: rest) 0 = .ok first := rfl
      have rest_eq : sliceFrom (first :: rest) 1 = .ok rest := sliceFrom_of_le (by simp)
      have short_iff : IsShortResize (first :: rest) ↔
          TermMessageType.tryFrom first = some .resize ∧ rest.length < 4 := by
        rw [tryFrom_eq_resize_iff, IsShortResize, List.head?_cons, List.length_cons,
          Option.some_inj]
        exact and_congr_right fun _ => Nat.add_lt_add_iff_right
      rw [if_neg (by simp), index_eq, rest_eq, short_iff]
      change Safe (if _ then _ else _) ↔ _
      cases TermMessageType.tryFrom first with
      | none =>
          refine iff_of_true ?_ nofun
          obtain ⟨sent, made⟩ := safe_invalidMessageType
          exact safe_bind made (safe_ok _)
      | some msgType =>
          cases msgType with
          | resize =>
              refine (safe_resizeTerm_iff state rest).trans ?_
              simp
          | data | err | pause | resume => exact iff_of_true (safe_ok _) nofun

/-- A pass of the terminal panics on a short resize message and on a long error text only. -/
theorem safe_serveTerm_iff (state : StreamState) (event : TermEvent) :
    Safe (serveTerm state event) ↔ ¬ BreaksTerm event := by
  cases event with
  | read data sent =>
      refine iff_of_true ?_ id
      apply safe_ite
      · exact fun _ => safe_ok _
      intro _
      apply safe_ite
      · exact fun _ => safe_ok _
      intro _
      have fits := data.fits
      refine safe_bind (slice_of_le (Nat.zero_le _) ?_) (safe_ok _)
      rw [List.length_append, List.length_cons]
      omega
  | readError text =>
      have fits : ¬ BreaksTerm (.readError text) ↔ Safe (sendErrorMsg text) :=
        not_le.trans (safe_sendErrorMsg_iff text).symm
      rw [fits]
      refine (safe_bind_iff _ _).trans ?_
      constructor
      · exact fun ⟨sent, made, _⟩ => ⟨sent, made⟩
      · exact fun ⟨sent, made⟩ => ⟨sent, made, safe_ok _⟩
  | client message written =>
      cases message with
      | binary msg => exact safe_termMessage_iff state written msg
      | text | ping | pong | close | gone => exact iff_of_true (safe_ok _) id

/-- The log streams never panic.  The terminal panics, in whatever state, exactly when it
reaches a resize message without a size or an error text that does not fit into its buffer,
which is what `send_error_msg` panics on. -/
theorem serve_safe_iff (decode : Decoder) :
    (∀ state events, Safe (loop (passes (serveLogStream decode)) state events)) ∧
    (∀ state events, Safe (loop (passes serveAuditLogStream) state events)) ∧
    (∀ state events, Safe (loop (passes serveTerm) state events) ↔
      Throughout (goesOn (passes serveTerm)) (fun _ event => ¬ BreaksTerm event) state events) ∧
    (∀ state written msg, Safe (serveTerm state (.client (.binary msg) written)) ↔
      ¬ IsShortResize msg) ∧
    ∀ text, Safe (sendErrorMsg text) ↔ text.length < termBufferSize := by
  refine ⟨?_, ?_, ?_, safe_termMessage_iff, safe_sendErrorMsg_iff⟩
  · apply safe_loop
    intro state event
    exact (safe_passes_iff _ state event).mpr (safe_serveLogStream decode state event)
  · apply safe_loop
    intro state event
    exact (safe_passes_iff _ state event).mpr (safe_serveAuditLogStream state event)
  · intro state events
    have pass : ∀ state event, Safe (passes serveTerm state event) ↔ ¬ BreaksTerm event :=
      fun state event => (safe_passes_iff _ state event).trans (safe_serveTerm_iff state event)
    rw [safe_loop_iff]
    constructor
    · exact fun all => all.mono fun state event => (pass state event).mp
    · exact fun all => all.mono fun state event => (pass state event).mpr

/-- A single byte, the type of a resize message, makes the terminal panic. -/
theorem not_serve_safe :
    ¬ ∀ (state : StreamState) (written : Bool) (msg : List UInt8),
      Safe (serveTerm state (.client (.binary msg) written)) := by
  intro all
  obtain ⟨pass, served⟩ := all {} true [2]
  have panics : serveTerm {} (.client (.binary [2]) true) = .error .outOfBounds := rfl
  rw [panics] at served
  cases served

end SmartDnsPlusUi
