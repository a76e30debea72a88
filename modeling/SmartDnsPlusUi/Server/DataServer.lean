import Mathlib.Data.List.AList
import SmartDnsPlusUi.Server.DataStats
import SmartDnsPlusUi.Server.QueryCount
import SmartDnsPlusUi.Server.Request

/-!
# The data server

Requests come in through a channel, are gathered in a list and handled in
batches: the queries are stored and counted, and the clients wait in a pending
list until they are stored too.  `data_server_loop` selects among the stop
notification, three timers and the channel.
-/

namespace SmartDnsPlusUi

open Arithmetic Run Text

abbrev MacCache := AList fun _ : Text => Text

/-- A client that is not stored yet, with the time at which it was first seen. -/
abbrev PendingEntry := Sigma fun _ : Text => Nat × ClientData

abbrev ClientPendingList := AList fun _ : Text => Nat × ClientData

structure DataServer where
  dataQueue : List DnsRequest := []
  recvInBatch : Bool := true
  disableHandleRequest : Bool := false
  stat : DataStatsItem := {}
  macCache : MacCache := ∅
  clientPendingList : ClientPendingList := ∅
  database : Database := {}

/-! ### Accepting requests -/

def dataCapacity : Nat := 1024 * 256

inductive SendResult where
  | ignored
  | accepted
  | dropped
  deriving DecidableEq

/-- `send_request`; the channel is closed once the loop has returned. -/
def sendRequest (request : DnsRequest) (closed : Bool) (server : DataServer) :
    DataServer × SendResult :=
  if request.isPrefetchRequest then (server, .ignored)
  else
    let server := { server with stat := server.stat.addQpsCount 1 }
    if server.disableHandleRequest then (server, .ignored)
    else if closed = false ∧ server.dataQueue.length < dataCapacity then
      ({ server with dataQueue := server.dataQueue ++ [request] }, .accepted)
    else ({ server with stat := server.stat.addRequestDrop 1 }, .dropped)

/-! ### Handling a batch -/

/-- What a flush of the pending list meets: the time, the order in which the hash
map is enumerated, and the statement at which the write fails, if it does. -/
structure FlushCall where
  timestampNow : Nat
  order : IterationOrder PendingEntry := .inserted
  clientFault : Option Nat := none

/-- What the handling of a batch meets. -/
structure HandleCall extends FlushCall where
  offset : UtcOffset
  domainFault : Option Nat := none
  hourlyOrder : IterationOrder (Nat × Nat) := .inserted
  dailyOrder : IterationOrder (Nat × Nat) := .inserted

def HandleCall.insertCall (call : HandleCall) (domainDataList : List DomainData) : InsertCall where
  data := domainDataList
  fault := call.domainFault
  hourlyOrder := call.hourlyOrder
  dailyOrder := call.dailyOrder

/-- The first pass over a batch. -/
def fillMacCache (reqList : List DnsRequest) (macCache : MacCache) : MacCache :=
  reqList.foldl
    (fun cache req =>
      if req.macStr = unknownMac then cache else cache.insert req.remoteAddr req.macStr)
    (if 10000 < macCache.entries.length then ∅ else macCache)

/-- Note the client of a request in the pending list. -/
def notePending (timestampNow : Nat) (macCache : MacCache) (pending : ClientPendingList)
    (req : DnsRequest) : ClientPendingList :=
  let macStr :=
    if req.macStr = unknownMac then (macCache.lookup req.remoteAddr).getD req.macStr
    else req.macStr
  match pending.lookup req.remoteAddr with
  | some (firstSeen, existing) =>
      pending.insert req.remoteAddr (firstSeen,
        { existing with
          mac := if macStr = unknownMac then existing.mac else macStr
          lastQueryTimestamp := timestampNow })
  | none =>
      pending.insert req.remoteAddr (timestampNow,
        { clientIp := req.remoteAddr
          hostname := []
          mac := macStr
          lastQueryTimestamp := timestampNow })

/-- Entries that have waited longer than `age`, and those with a known address. -/
def isDue (age timestampNow : Nat) (entry : PendingEntry) : Bool :=
  decide (age < wrappingSub 64 timestampNow entry.2.1) || decide (entry.2.2.mac ≠ unknownMac)

/-- Take the due entries out of the pending list. -/
def takeDue (age : Nat) (call : FlushCall) (pending : ClientPendingList) :
    List ClientData × ClientPendingList :=
  let toRemove := (call.order.enumerate pending.entries).filter (isDue age call.timestampNow)
  (toRemove.map (·.2.2), toRemove.foldl (fun pending entry => pending.erase entry.1) pending)

def countRequests (reqList : List DnsRequest) (stat : DataStatsItem) : DataStatsItem :=
  stat.addTotalRequest reqList.length
    |>.addTotalBlockedRequest (reqList.countP (·.isBlocked))
    |>.addTotalFailedRequest (reqList.countP (·.rcode ≠ 0))

/-- Store the queries of a batch, and then the clients if that succeeded. -/
def storeBatch (call : HandleCall) (domainDataList : List DomainData)
    (clientDataList : List ClientData) (database : Database) : Database :=
  match insertDomain call.offset (call.insertCall domainDataList) database with
  | (database, true) => (insertClient call.clientFault clientDataList database).1
  | (database, false) => database

/-- The pending list with the clients of a batch. -/
def notedClients (call : HandleCall) (reqList : List DnsRequest) (server : DataServer) :
    ClientPendingList :=
  (reqList.filter (·.isHandled)).foldl
    (notePending call.timestampNow (fillMacCache reqList server.macCache)) server.clientPendingList

/-- `data_server_handle_dns_request`. -/
def handleDnsRequest (call : HandleCall) (reqList : List DnsRequest) (server : DataServer) :
    DataServer :=
  let handled := reqList.filter (·.isHandled)
  let taken := takeDue 3000 call.toFlushCall (notedClients call reqList server)
  { server with
    macCache := fillMacCache reqList server.macCache
    clientPendingList := taken.2
    stat := countRequests handled server.stat
    database := storeBatch call (handled.map (·.domainData)) taken.1 server.database }

/-! ### The loop -/

/-- Before the stop notification, between it and the return, and after. -/
inductive LoopPhase where
  | running
  | stopping
  | returned
  deriving DecidableEq

/-- The loop with its variables, and what has been accepted and handed on so far. -/
structure DataServerLoop where
  server : DataServer := {}
  reqList : List DnsRequest := []
  batchTimer : Bool := false
  isCheckTimerRunning : Bool := false
  phase : LoopPhase := .running
  accepted : List DnsRequest := []
  handed : List DnsRequest := []

inductive LoopEvent where
  | sendRequest (request : DnsRequest)
  | recvMany (count : Nat) (call : HandleCall)
  | batchTimerFires (call : HandleCall)
  | clientFlushTick (call : FlushCall)
  | checkTimerTick (freeDiskSpace : Nat) (fails : Bool)
  | stop
  | shutdownFlush (call : FlushCall)

def batchSize (batchMode : Bool) : Nat := if batchMode then 1024 * 8 else 1

def minFreeDiskSpace : Nat := 1024 * 1024 * 8

/-- Move requests from the channel to the list of gathered ones. -/
def DataServerLoop.receive (count : Nat) (state : DataServerLoop) : DataServerLoop :=
  { state with
    server := { state.server with dataQueue := state.server.dataQueue.drop count }
    reqList := state.reqList ++ state.server.dataQueue.take count }

/-- Hand the gathered requests to `data_server_handle_dns_request`. -/
def DataServerLoop.handleBatch (call : HandleCall) (state : DataServerLoop) : DataServerLoop :=
  { state with
    server := handleDnsRequest call state.reqList state.server
    handed := state.handed ++ state.reqList
    reqList := []
    batchTimer := false }

/-- Store the given clients, if there are any, and ignore a failure. -/
def flushClients (fault : Option Nat) (flushList : List ClientData) (database : Database) :
    Database :=
  if flushList = [] then database else (insertClient fault flushList database).1

/-- The branch `client_flush_timer.tick()`. -/
def flushDue (call : FlushCall) (server : DataServer) : DataServer :=
  let taken := takeDue 10000 call server.clientPendingList
  { server with
    clientPendingList := taken.2
    database := flushClients call.clientFault taken.1 server.database }

/-- The flush after the loop: all entries. -/
def flushAll (call : FlushCall) (server : DataServer) : DataServer :=
  { server with
    clientPendingList := ∅
    database := flushClients call.clientFault
      ((call.order.enumerate server.clientPendingList.entries).map (·.2.2)) server.database }

def serverCheck (freeDiskSpace : Nat) (server : DataServer) : DataServer :=
  { server with disableHandleRequest := decide (freeDiskSpace < minFreeDiskSpace) }

def loopStep (state : DataServerLoop) : LoopEvent → Option DataServerLoop
  | .sendRequest request =>
      let sent := sendRequest request (decide (state.phase = .returned)) state.server
      some { state with
        server := sent.1
        accepted := if sent.2 = .accepted then state.accepted ++ [request] else state.accepted }
  | .recvMany count call =>
      if state.phase = .running ∧ count ≤ batchSize state.server.recvInBatch ∧
          count ≤ state.server.dataQueue.length then
        if count = 0 then some state
        else if state.server.recvInBatch = true ∧
            (state.receive count).reqList.length < batchSize true then
          some { state.receive count with batchTimer := true }
        else some ((state.receive count).handleBatch call)
      else none
  | .batchTimerFires call =>
      if state.phase = .running ∧ state.batchTimer = true then some (state.handleBatch call)
      else none
  | .clientFlushTick call =>
      if state.phase = .running then some { state with server := flushDue call state.server }
      else none
  | .checkTimerTick freeDiskSpace fails =>
      if state.phase = .running then
        if state.isCheckTimerRunning then some { state with isCheckTimerRunning := false }
        else if fails then some { state with isCheckTimerRunning := true }
        else some { state with server := serverCheck freeDiskSpace state.server }
      else none
  | .stop => if state.phase = .running then some { state with phase := .stopping } else none
  | .shutdownFlush call =>
      if state.phase = .stopping then
        some { state with server := flushAll call state.server, phase := .returned }
      else none

/-- What a step can do. -/
inductive Stepped (state : DataServerLoop) : LoopEvent → DataServerLoop → Prop where
  | sent (request : DnsRequest) :
      Stepped state (.sendRequest request) { state with
        server := (sendRequest request (decide (state.phase = .returned)) state.server).1
        accepted :=
          if (sendRequest request (decide (state.phase = .returned)) state.server).2 = .accepted
          then state.accepted ++ [request] else state.accepted }
  | nothing (call : HandleCall) (running : state.phase = .running) :
      Stepped state (.recvMany 0 call) state
  | gathered (count : Nat) (call : HandleCall) (running : state.phase = .running)
      (small : (state.receive count).reqList.length < batchSize true) :
      Stepped state (.recvMany count call) { state.receive count with batchTimer := true }
  | full (count : Nat) (call : HandleCall) (running : state.phase = .running)
      (bounded : count ≤ batchSize state.server.recvInBatch) (received : count ≠ 0)
      (large : ¬ (state.server.recvInBatch = true ∧
        (state.receive count).reqList.length < batchSize true)) :
      Stepped state (.recvMany count call) ((state.receive count).handleBatch call)
  | fired (call : HandleCall) (running : state.phase = .running) :
      Stepped state (.batchTimerFires call) (state.handleBatch call)
  | flushed (call : FlushCall) (running : state.phase = .running) :
      Stepped state (.clientFlushTick call) { state with server := flushDue call state.server }
  | marked (freeDiskSpace : Nat) (fails mark : Bool) (running : state.phase = .running) :
      Stepped state (.checkTimerTick freeDiskSpace fails) { state with isCheckTimerRunning := mark }
  | checked (freeDiskSpace : Nat) (fails : Bool) (running : state.phase = .running) :
      Stepped state (.checkTimerTick freeDiskSpace fails)
        { state with server := serverCheck freeDiskSpace state.server }
  | stopped (running : state.phase = .running) :
      Stepped state .stop { state with phase := .stopping }
  | returned (call : FlushCall) (stopping : state.phase = .stopping) :
      Stepped state (.shutdownFlush call)
        { state with server := flushAll call state.server, phase := .returned }

theorem stepped_of_loopStep {state next : DataServerLoop} {event : LoopEvent}
    (stepped : loopStep state event = some next) : Stepped state event next := by
  cases event with
  | sendRequest request =>
      cases stepped
      exact .sent request
  | recvMany count call =>
      simp only [loopStep] at stepped
      split at stepped
      · rename_i possible
        split at stepped
        · rename_i zero
          cases stepped
          subst zero
          exact .nothing call possible.1
        · rename_i received
          split at stepped
          · rename_i small
            cases stepped
            exact .gathered count call possible.1 small.2
          · rename_i large
            cases stepped
            exact .full count call possible.1 possible.2.1 received large
      · cases stepped
  | batchTimerFires call =>
      simp only [loopStep] at stepped
      split at stepped
      · rename_i possible
        cases stepped
        exact .fired call possible.1
      · cases stepped
  | clientFlushTick call =>
      simp only [loopStep] at stepped
      split at stepped
      · rename_i running
        cases stepped
        exact .flushed call running
      · cases stepped
  | checkTimerTick freeDiskSpace fails =>
      simp only [loopStep] at stepped
      split at stepped
      · rename_i running
        split at stepped
        · cases stepped
          exact .marked freeDiskSpace fails false running
        · split at stepped
          · cases stepped
            exact .marked freeDiskSpace fails true running
          · cases stepped
            exact .checked freeDiskSpace fails running
      · cases stepped
  | stop =>
      simp only [loopStep] at stepped
      split at stepped
      · rename_i running
        cases stepped
        exact .stopped running
      · cases stepped
  | shutdownFlush call =>
      simp only [loopStep] at stepped
      split at stepped
      · rename_i stopping
        cases stepped
        exact .returned call stopping
      · cases stepped

end SmartDnsPlusUi
