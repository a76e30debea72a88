import SmartDnsPlusUi.Server.Database
import SmartDnsPlusUi.Text.Lines

/-!
# Requests

What the plugin learns about a query, and the rows that are made of it.
-/

namespace SmartDnsPlusUi

open Text

structure DnsRequest where
  groupName : Text
  domain : Text
  qtype : Nat
  rcode : Nat
  queryTime : Int
  queryTimestamp : Nat
  pingTime : UInt64
  isBlocked : Bool
  isCached : Bool
  remoteMac : Vector UInt8 6
  remoteAddr : Text
  isPrefetchRequest : Bool
  isDualstackRequest : Bool
  deriving DecidableEq

/-- A byte as two hexadecimal digits. -/
def hexByte (byte : UInt8) : Text := [Nat.digitChar (byte.toNat / 16), Nat.digitChar (byte.toNat % 16)]

def DnsRequest.macStr (req : DnsRequest) : Text := join [':'] (req.remoteMac.toList.map hexByte)

/-- The address of a client that is not known. -/
def unknownMac : Text := "00:00:00:00:00:00"

/-- Requests that `data_server_handle_dns_request` does not skip. -/
def DnsRequest.isHandled (req : DnsRequest) : Bool :=
  !req.isPrefetchRequest && !req.isDualstackRequest

def DnsRequest.domainData (req : DnsRequest) : DomainData where
  id := 0
  domain := req.domain
  domainType := req.qtype
  client := req.remoteAddr
  domainGroup := req.groupName
  replyCode := req.rcode
  timestamp := req.queryTimestamp
  queryTime := req.queryTime
  pingTime := req.pingTime
  isBlocked := req.isBlocked
  isCached := req.isCached

end SmartDnsPlusUi
