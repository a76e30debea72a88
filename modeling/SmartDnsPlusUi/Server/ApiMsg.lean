import SmartDnsPlusUi.Json.Value
import SmartDnsPlusUi.Server.ClientList
import SmartDnsPlusUi.Server.DomainList

/-!
# The messages of the API

Every message is a JSON text, written by one function and read by another.  A
reader takes the fields one after the other and fails at the first that is
missing; integers are narrowed to the type of their field.
-/

namespace SmartDnsPlusUi.ApiMsg

open Text Json

/-! ### The data -/

inductive DnsServerType where
  | serverUdp
  | serverTcp
  | serverTls
  | serverHttps
  | serverQuic
  | serverHttp3
  | serverMdns
  | serverUnknown
  deriving DecidableEq

def DnsServerType.toString : DnsServerType → Text
  | .serverUdp => "udp"
  | .serverTcp => "tcp"
  | .serverTls => "tls"
  | .serverHttps => "https"
  | .serverQuic => "quic"
  | .serverHttp3 => "http3"
  | .serverMdns => "mdns"
  | .serverUnknown => "unknown"

def DnsServerType.fromStr (t : Text) : Except Text DnsServerType :=
  match String.ofList t with
  | "udp" => .ok .serverUdp
  | "tcp" => .ok .serverTcp
  | "tls" => .ok .serverTls
  | "https" => .ok .serverHttps
  | "quic" => .ok .serverQuic
  | "http3" => .ok .serverHttp3
  | "mdns" => .ok .serverMdns
  | _ => .error "unknown"

/-- A row of the statistics of the upstream servers; floats are kept as their bits. -/
structure UpstreamServerInfo where
  host : Text
  ip : Text
  port : UInt16
  serverType : DnsServerType
  totalQueryCount : UInt64
  totalQuerySuccess : UInt64
  totalQueryRecvCount : UInt64
  querySuccessRate : UInt64
  avgTime : UInt64
  status : Text
  security : Text
  deriving DecidableEq

structure ClientQueryCount where
  clientIp : Text
  count : UInt32
  timestampStart : UInt64
  timestampEnd : UInt64
  deriving DecidableEq

structure DomainQueryCount where
  domain : Text
  count : UInt32
  timestampStart : UInt64
  timestampEnd : UInt64
  deriving DecidableEq

structure MetricsData where
  totalQueryCount : UInt64
  blockQueryCount : UInt64
  requestDropCount : UInt64
  failQueryCount : UInt64
  avgQueryTime : UInt64
  cacheHitRate : UInt64
  cacheNumber : UInt64
  cacheMemorySize : UInt64
  qps : UInt32
  memoryUsage : UInt64
  isMetricsSuspended : Bool
  deriving DecidableEq

structure OverviewData where
  serverName : Text
  dbSize : UInt64
  startupTimestamp : UInt64
  freeDiskSpace : UInt64
  isProcessSuspended : Bool
  deriving DecidableEq

structure HourlyQueryCountItem where
  hour : Text
  queryCount : UInt32
  deriving DecidableEq

structure HourlyQueryCount where
  queryTimestamp : UInt64
  hourlyQueryCount : List HourlyQueryCountItem
  deriving DecidableEq

structure DailyQueryCountItem where
  day : Text
  queryCount : UInt32
  deriving DecidableEq

structure DailyQueryCount where
  queryTimestamp : UInt64
  dailyQueryCount : List DailyQueryCountItem
  deriving DecidableEq

structure WhoIsInfo where
  domain : Text
  organization : Text
  address : Text
  city : Text
  country : Text
  registrar : Text
  refer : Text
  deriving DecidableEq

/-! ### The values -/

/-- A field that must be there. -/
def required {Field : Type} (name : Text) : Option Field → Except Text Field
  | some value => .ok value
  | none => .error (name ++ (" not found" : Text))

/-- `api_msg_gen_json_object_domain`. -/
def genJsonObjectDomain (domain : DomainData) : Value :=
  .ofMembers
    [("id", .ofU64 (UInt64.ofNat domain.id)),
      ("timestamp", .ofU64 (UInt64.ofNat domain.timestamp)),
      ("domain", .string domain.domain),
      ("domain_type", .ofU64 (UInt64.ofNat domain.domainType)),
      ("client", .string domain.client),
      ("domain_group", .string domain.domainGroup),
      ("reply_code", .ofU64 (UInt64.ofNat domain.replyCode)),
      ("query_time", .ofI64 (Int64.ofInt domain.queryTime)),
      ("ping_time", .ofF64 domain.pingTime),
      ("is_blocked", .bool domain.isBlocked),
      ("is_cached", .bool domain.isCached)]

/-- `api_msg_parse_json_object_domain_value`. -/
def parseJsonObjectDomainValue (data : Value) : Except Text DomainData := do
  let id ← required "id" (data.get "id").asU64
  let timestamp ← required "timestamp" (data.get "timestamp").asU64
  let domain ← required "domain" (data.get "domain").asStr
  let domainType ← required "domain_type" (data.get "domain_type").asU64
  let client ← required "client" (data.get "client").asStr
  let domainGroup ← required "domain_group" (data.get "domain_group").asStr
  let replyCode ← required "reply_code" (data.get "reply_code").asU64
  let queryTime ← required "query_time" (data.get "query_time").asI64
  let pingTime ← required "ping_time" (data.get "ping_time").asF64
  let isBlocked ← required "is_blocked" (data.get "is_blocked").asBool
  let isCached ← required "is_cached" (data.get "is_cached").asBool
  return {
    id := id.toNat
    timestamp := timestamp.toNat
    domain
    domainType := domainType.toUInt32.toNat
    client
    domainGroup
    replyCode := replyCode.toUInt16.toNat
    queryTime := queryTime.toInt32.toInt
    pingTime
    isBlocked
    isCached }

/-- `api_msg_gen_json_object_client`. -/
def genJsonObjectClient (client : ClientData) : Value :=
  .ofMembers
    [("id", .ofU64 (UInt64.ofNat client.id)),
      ("client_ip", .string client.clientIp),
      ("mac", .string client.mac),
      ("hostname", .string client.hostname),
      ("last_query_timestamp", .ofU64 (UInt64.ofNat client.lastQueryTimestamp))]

/-- One round of the loop of `api_msg_parse_client_list`. -/
def parseClient (client : Value) : Except Text ClientData := do
  let id ← required "id" (client.get "id").asU64
  let clientIp ← required "client_ip" (client.get "client_ip").asStr
  let mac ← required "mac" (client.get "mac").asStr
  let hostname ← required "hostname" (client.get "hostname").asStr
  let lastQueryTimestamp ← required "last_query_timestamp"
    (client.get "last_query_timestamp").asU64
  return {
    id := id.toUInt32.toNat
    clientIp
    mac
    hostname
    lastQueryTimestamp := lastQueryTimestamp.toNat }

def genUpstreamServer (server : UpstreamServerInfo) : Value :=
  .ofMembers
    [("host", .string server.host),
      ("ip", .string server.ip),
      ("port", .ofU64 server.port.toUInt64),
      ("server_type", .string server.serverType.toString),
      ("total_query_count", .ofU64 server.totalQueryCount),
      ("total_query_success", .ofU64 server.totalQuerySuccess),
      ("total_query_recv_count", .ofU64 server.totalQueryRecvCount),
      ("query_success_rate", .ofF64 server.querySuccessRate),
      ("avg_time", .ofF64 server.avgTime),
      ("status", .string server.status),
      ("security", .string server.security)]

/-- One round of the loop of `api_msg_parse_upstream_server_list`; the type of the
server is read last. -/
def parseUpstreamServer (item : Value) : Except Text UpstreamServerInfo := do
  let host ← required "host" (item.get "host").asStr
  let ip ← required "ip" (item.get "ip").asStr
  let port ← required "port" (item.get "port").asU64
  let serverType ← required "server_type" (item.get "server_type").asStr
  let totalQueryCount ← required "total_query_count" (item.get "total_query_count").asU64
  let totalQuerySuccess ← required "total_query_success" (item.get "total_query_success").asU64
  let totalQueryRecvCount ← required "total_query_recv_count"
    (item.get "total_query_recv_count").asU64
  let querySuccessRate ← required "query_success_rate" (item.get "query_success_rate").asF64
  let avgTime ← required "avg_time" (item.get "avg_time").asF64
  let status ← required "status" (item.get "status").asStr
  let security ← required "security" (item.get "security").asStr
  let serverType ← DnsServerType.fromStr serverType
  return {
    host
    ip
    port := port.toUInt16
    serverType
    totalQueryCount
    totalQuerySuccess
    totalQueryRecvCount
    querySuccessRate
    avgTime
    status
    security }

def genTopClient (client : ClientQueryCount) : Value :=
  .ofMembers
    [("client_ip", .string client.clientIp),
      ("query_count", .ofU64 client.count.toUInt64),
      ("timestamp_start", .ofU64 client.timestampStart),
      ("timestamp_end", .ofU64 client.timestampEnd)]

def parseTopClient (item : Value) : Except Text ClientQueryCount := do
  let clientIp ← required "client_ip" (item.get "client_ip").asStr
  let queryCount ← required "query_count" (item.get "query_count").asU64
  let timestampStart ← required "timestamp_start" (item.get "timestamp_start").asU64
  let timestampEnd ← required "timestamp_end" (item.get "timestamp_end").asU64
  return { clientIp, count := queryCount.toUInt32, timestampStart, timestampEnd }

def genTopDomain (domain : DomainQueryCount) : Value :=
  .ofMembers
    [("domain", .string domain.domain),
      ("query_count", .ofU64 domain.count.toUInt64),
      ("timestamp_start", .ofU64 domain.timestampStart),
      ("timestamp_end", .ofU64 domain.timestampEnd)]

def parseTopDomain (item : Value) : Except Text DomainQueryCount := do
  let domain ← required "domain" (item.get "domain").asStr
  let queryCount ← required "query_count" (item.get "query_count").asU64
  let timestampStart ← required "timestamp_start" (item.get "timestamp_start").asU64
  let timestampEnd ← required "timestamp_end" (item.get "timestamp_end").asU64
  return { domain, count := queryCount.toUInt32, timestampStart, timestampEnd }

def genHourlyItem (item : HourlyQueryCountItem) : Value :=
  .ofMembers [("hour", .string item.hour), ("query_count", .ofU64 item.queryCount.toUInt64)]

def parseHourlyItem (item : Value) : Except Text HourlyQueryCountItem := do
  let hour ← required "hour" (item.get "hour").asStr
  let queryCount ← required "query_count" (item.get "query_count").asU64
  return { hour, queryCount := queryCount.toUInt32 }

def genDailyItem (item : DailyQueryCountItem) : Value :=
  .ofMembers [("day", .string item.day), ("query_count", .ofU64 item.queryCount.toUInt64)]

def parseDailyItem (item : Value) : Except Text DailyQueryCountItem := do
  let day ← required "day" (item.get "day").asStr
  let queryCount ← required "query_count" (item.get "query_count").asU64
  return { day, queryCount := queryCount.toUInt32 }

/-! ### The messages -/

section Messages

variable (library : Library)

def genDomain (domain : DomainData) : Text := library.toString (genJsonObjectDomain domain)

def parseDomain (data : Text) : Except Text DomainData := do
  let v ← library.fromStr data
  parseJsonObjectDomainValue v

/-- What a page of a list is written as, with the length of the list. -/
def genPage {Item : Type} (name : Text) (gen : Item → Value) (items : List Item)
    (stepByCursor : Bool) (totalPage totalCount : UInt64) : Text :=
  library.toString <| .ofMembers
    [("list_count", .ofU64 (UInt64.ofNat items.length)),
      ("total_page", .ofU64 totalPage),
      ("total_count", .ofU64 totalCount),
      ("step_by_cursor", .bool stepByCursor),
      (name, .array (items.map gen))]

/-- As many items of the array are read as the message announces. -/
def parsePage {Item : Type} (name : Text) (parse : Value → Except Text Item) (data : Text) :
    Except Text (List Item) := do
  let v ← library.fromStr data
  let listCount ← required "list_count" (v.get "list_count").asU64
  (List.range listCount.toNat).mapM fun i => parse ((v.get name).item i)

def genDomainList (result : QueryDomainListResult) (totalPage totalCount : UInt64) : Text :=
  genPage library "domain_list" genJsonObjectDomain result.domainList result.stepByCursor
    totalPage totalCount

def parseDomainList : Text → Except Text (List DomainData) :=
  parsePage library "domain_list" parseJsonObjectDomainValue

def genClientList (result : QueryClientListResult) (totalPage totalCount : UInt64) : Text :=
  genPage library "client_list" genJsonObjectClient result.clientList result.stepByCursor
    totalPage totalCount

def parseClientList : Text → Except Text (List ClientData) :=
  parsePage library "client_list" parseClient

/-- What a list is written as. -/
def genList {Item : Type} (name : Text) (gen : Item → Value) (items : List Item) : Text :=
  library.toString (.ofMembers [(name, .array (items.map gen))])

/-- The error names `list_count`, which these messages do not have. -/
def parseList {Item : Type} (name : Text) (parse : Value → Except Text Item) (data : Text) :
    Except Text (List Item) := do
  let v ← library.fromStr data
  let items ← required "list_count" (v.get name).asArray
  items.mapM parse

def genUpstreamServerList : List UpstreamServerInfo → Text :=
  genList library "upstream_server_list" genUpstreamServer

def parseUpstreamServerList : Text → Except Text (List UpstreamServerInfo) :=
  parseList library "upstream_server_list" parseUpstreamServer

def genTopClientList : List ClientQueryCount → Text :=
  genList library "client_top_list" genTopClient

def parseTopClientList : Text → Except Text (List ClientQueryCount) :=
  parseList library "client_top_list" parseTopClient

def genTopDomainList : List DomainQueryCount → Text :=
  genList library "domain_top_list" genTopDomain

def parseTopDomainList : Text → Except Text (List DomainQueryCount) :=
  parseList library "domain_top_list" parseTopDomain

def genKeyValue (data : ConfigTable) : Text :=
  library.toString (.ofMembers (data.entries.map fun entry => (entry.1, .string entry.2)))

/-- Only members that are strings are taken. -/
def insertString (map : ConfigTable) (entry : Text × Value) : ConfigTable :=
  match entry.2 with
  | .string value => map.insert entry.1 value
  | _ => map

def parseKeyValue (data : Text) : Except Text ConfigTable := do
  let v ← library.fromStr data
  match v with
  | .object members => return members.foldl insertString ∅
  | _ => return ∅

def genMetricsData (data : MetricsData) : Text :=
  library.toString <| .ofMembers
    [("total_query_count", .ofU64 data.totalQueryCount),
      ("block_query_count", .ofU64 data.blockQueryCount),
      ("request_drop_count", .ofU64 data.requestDropCount),
      ("fail_query_count", .ofU64 data.failQueryCount),
      ("avg_query_time", .ofF64 data.avgQueryTime),
      ("cache_hit_rate", .ofF64 data.cacheHitRate),
      ("cache_number", .ofU64 data.cacheNumber),
      ("cache_memory_size", .ofU64 data.cacheMemorySize),
      ("qps", .ofU64 data.qps.toUInt64),
      ("memory_usage", .ofU64 data.memoryUsage),
      ("is_metrics_suspended", .bool data.isMetricsSuspended)]

def parseMetricsData (data : Text) : Except Text MetricsData := do
  let v ← library.fromStr data
  let totalQueryCount ← required "total_query_count" (v.get "total_query_count").asU64
  let blockQueryCount ← required "block_query_count" (v.get "block_query_count").asU64
  let requestDropCount ← required "request_drop_count" (v.get "request_drop_count").asU64
  let failQueryCount ← required "fail_query_count" (v.get "fail_query_count").asU64
  let avgQueryTime ← required "avg_query_time" (v.get "avg_query_time").asF64
  let cacheHitRate ← required "cache_hit_rate" (v.get "cache_hit_rate").asF64
  let cacheNumber ← required "cache_number" (v.get "cache_number").asU64
  let cacheMemorySize ← required "cache_memory_size" (v.get "cache_memory_size").asU64
  let qps ← required "qps" (v.get "qps").asU64
  let memoryUsage ← required "memory_usage" (v.get "memory_usage").asU64
  return {
    totalQueryCount
    blockQueryCount
    requestDropCount
    failQueryCount
    avgQueryTime
    cacheHitRate
    cacheNumber
    cacheMemorySize
    qps := qps.toUInt32
    memoryUsage
    isMetricsSuspended := (v.get "is_metrics_suspended").asBool.getD false }

def genStatsOverview (data : OverviewData) : Text :=
  library.toString <| .ofMembers
    [("server_name", .string data.serverName),
      ("database_size", .ofU64 data.dbSize),
      ("startup_timestamp", .ofU64 data.startupTimestamp),
      ("free_disk_space", .ofU64 data.freeDiskSpace),
      ("is_process_suspended", .bool data.isProcessSuspended)]

def parseStatsOverview (data : Text) : Except Text OverviewData := do
  let v ← library.fromStr data
  let serverName ← required "server_name" (v.get "server_name").asStr
  let dbSize ← required "db_size" (v.get "database_size").asU64
  let startupTimestamp ← required "startup_timestamp" (v.get "startup_timestamp").asU64
  let freeDiskSpace ← required "free_disk_space" (v.get "free_disk_space").asU64
  let isProcessSuspended ← required "is_process_suspended" (v.get "is_process_suspended").asBool
  return { serverName, dbSize, startupTimestamp, freeDiskSpace, isProcessSuspended }

def genHourlyQueryCount (hourlyCount : HourlyQueryCount) : Text :=
  library.toString <| .ofMembers
    [("query_timestamp", .ofU64 hourlyCount.queryTimestamp),
      ("hourly_query_count", .array (hourlyCount.hourlyQueryCount.map genHourlyItem))]

def parseHourlyQueryCount (data : Text) : Except Text HourlyQueryCount := do
  let v ← library.fromStr data
  let queryTimestamp ← required "query_timestamp" (v.get "query_timestamp").asU64
  let hourlyList ← required "hourly_query_count" (v.get "hourly_query_count").asArray
  let hourlyQueryCount ← hourlyList.mapM parseHourlyItem
  return { queryTimestamp, hourlyQueryCount }

def genDailyQueryCount (dailyCount : DailyQueryCount) : Text :=
  library.toString <| .ofMembers
    [("query_timestamp", .ofU64 dailyCount.queryTimestamp),
      ("daily_query_count", .array (dailyCount.dailyQueryCount.map genDailyItem))]

def parseDailyQueryCount (data : Text) : Except Text DailyQueryCount := do
  let v ← library.fromStr data
  let queryTimestamp ← required "query_timestamp" (v.get "query_timestamp").asU64
  let dailyList ← required "daily_query_count" (v.get "daily_query_count").asArray
  let dailyQueryCount ← dailyList.mapM parseDailyItem
  return { queryTimestamp, dailyQueryCount }

/-- The field `refer` is not written. -/
def genWhoisInfo (data : WhoIsInfo) : Text :=
  library.toString <| .ofMembers
    [("domain", .string data.domain),
      ("registrar", .string data.registrar),
      ("organization", .string data.organization),
      ("address", .string data.address),
      ("city", .string data.city),
      ("country", .string data.country)]

/-- The field `refer` is read when it is there. -/
def parseWhoisInfo (data : Text) : Except Text WhoIsInfo := do
  let v ← library.fromStr data
  let domain ← required "domain" (v.get "domain").asStr
  let registrar ← required "registrar" (v.get "registrar").asStr
  let organization ← required "organization" (v.get "organization").asStr
  let address ← required "address" (v.get "address").asStr
  let city ← required "city" (v.get "city").asStr
  let country ← required "country" (v.get "country").asStr
  let refer := (v.get "refer").asStr.getD []
  return { refer, domain, registrar, organization, address, city, country }

end Messages

end SmartDnsPlusUi.ApiMsg
