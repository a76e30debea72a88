import SmartDnsPlusUi.Server.DomainList
import SmartDnsPlusUi.Text.Number

/-!
# Statistics

The counters of the service on a target with 64-bit atomics, how they are saved
as texts in the table `status_data`, and how they are loaded again.
-/

namespace SmartDnsPlusUi

open Arithmetic Table Text

structure DataStatsItem where
  totalRequest : Nat := 0
  totalBlockedRequest : Nat := 0
  totalFailedRequest : Nat := 0
  qps : Nat := 0
  qpsCount : Nat := 0
  requestDropped : Nat := 0
  deriving DecidableEq

namespace DataStatsItem

def addQpsCount (count : Nat) (data : DataStatsItem) : DataStatsItem :=
  { data with qpsCount := wrappingAdd 32 data.qpsCount count }

/-- `fetch_and`, not `fetch_add`. -/
def addRequestDrop (count : Nat) (data : DataStatsItem) : DataStatsItem :=
  { data with requestDropped := data.requestDropped &&& count }

def addTotalRequest (total : Nat) (data : DataStatsItem) : DataStatsItem :=
  { data with totalRequest := wrappingAdd 64 data.totalRequest total }

def addTotalBlockedRequest (total : Nat) (data : DataStatsItem) : DataStatsItem :=
  { data with totalBlockedRequest := wrappingAdd 64 data.totalBlockedRequest total }

def addTotalFailedRequest (total : Nat) (data : DataStatsItem) : DataStatsItem :=
  { data with totalFailedRequest := wrappingAdd 64 data.totalFailedRequest total }

end DataStatsItem

/-- `INSERT OR REPLACE INTO status_data`. -/
def setStatusData (key value : Text) (database : Database) : Database :=
  { database with
    statusData := fun other => if other = key then some value else database.statusData other }

/-- The saved value of a counter; a text that is no number counts as zero. -/
def loadCount (statusData : Rows Text Text) (key : Text) : Nat :=
  match statusData key with
  | none => 0
  | some text => (parseU64 text).getD 0

def loadStatusData (database : Database) (data : DataStatsItem) : DataStatsItem :=
  let statusData := database.statusData
  let savedTotal := loadCount statusData "total_request"
  let totalCount :=
    if savedTotal = 0 then getDomainListCount database none else savedTotal
  let savedBlocked := loadCount statusData "total_blocked_request"
  let totalBlockedCount :=
    if savedBlocked = 0 then getDomainListCount database (some { isBlocked := some true })
    else savedBlocked
  let requestDrop := loadCount statusData "request_drop"
  let totalFailedCount := loadCount statusData "total_failed_request"
  data.addTotalRequest totalCount |>.addTotalBlockedRequest totalBlockedCount
    |>.addRequestDrop requestDrop |>.addTotalFailedRequest totalFailedCount

def saveStatusData (data : DataStatsItem) (database : Database) : Database :=
  setStatusData "request_drop" (showNat data.requestDropped) <|
    setStatusData "total_failed_request" (showNat data.totalFailedRequest) <|
    setStatusData "total_blocked_request" (showNat data.totalBlockedRequest) <|
    setStatusData "total_request" (showNat data.totalRequest) database

end SmartDnsPlusUi
