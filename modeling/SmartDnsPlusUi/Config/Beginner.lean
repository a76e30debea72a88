import Mathlib.Data.Char
import Mathlib.Data.List.Lex
import Mathlib.Logic.Function.Basic
import SmartDnsPlusUi.Config.Assets
import SmartDnsPlusUi.Text.Grouping

/-!
# The settings and the upstream servers

`BeginnerConfig` is what the UI edits.  One parser reads it from a
configuration text; six renderers write the pages `10-basic.conf`,
`20-upstreams.conf`, `30-cache.conf`, `70-logging.conf` and `80-network.conf`.
-/

namespace SmartDnsPlusUi

open Text

structure UpstreamConfig where
  kind : String := ""
  value : Text := []
  groups : List Text := []
  excludeDefaultGroup : Bool := false
  proxyName : Text := []
  bootstrapDns : Text := []
  hostIp : Text := []
  subnet : Text := []
  fallback : Bool := false
  options : Text := []
  note : Text := []
  deriving DecidableEq

structure BeginnerConfig where
  serverName : Text := []
  binds : List Text := []
  cacheSize : Text := []
  prefetchDomain : Bool := false
  serveExpired : Bool := false
  serveExpiredTtl : Text := []
  responseMode : Text := []
  speedCheckMode : Text := []
  dualstackIpSelection : Bool := false
  logLevel : Text := []
  mdnsLookup : Bool := false
  auditEnable : Bool := false
  upstreams : List UpstreamConfig := []
  extras : String → Option Text := fun _ => none

/-! ### The parser -/

/-- The options of an upstream server that the parser knows. -/
inductive UpstreamOption where
  | group
  | excludeDefaultGroup
  | proxy
  | bootstrapDns
  | hostIp
  | subnet
  | fallback
  | other
  deriving DecidableEq

def upstreamOption (token : Text) : UpstreamOption :=
  if token = "-g" ∨ token = "-group" then .group
  else if token = "-e" ∨ token = "-exclude-default-group" then .excludeDefaultGroup
  else if token = "-proxy" then .proxy
  else if token = "-b" ∨ token = "-bootstrap-dns" then .bootstrapDns
  else if token = "-host-ip" then .hostIp
  else if token = "-subnet" then .subnet
  else if token = "-fallback" then .fallback
  else .other

/-- The option takes the word after it. -/
def UpstreamOption.hasArgument : UpstreamOption → Bool
  | .group | .proxy | .bootstrapDns | .hostIp | .subnet => true
  | .excludeDefaultGroup | .fallback | .other => false

/-- What an option with its argument sets. -/
def setArgument (cfg : UpstreamConfig) (option : UpstreamOption) (argument : Text) :
    UpstreamConfig :=
  match option with
  | .group => { cfg with groups := cfg.groups ++ [argument] }
  | .proxy => { cfg with proxyName := argument }
  | .bootstrapDns => { cfg with bootstrapDns := argument }
  | .hostIp => { cfg with hostIp := argument }
  | .subnet => { cfg with subnet := argument }
  | .excludeDefaultGroup | .fallback | .other => cfg

/-- The loop over the option tokens.  An option that lacks its argument and any
other word are passed through, the latter with the next word unless that is an
option. -/
def scanUpstreamTokens (cfg : UpstreamConfig) (passthrough : List Text) :
    List Text → UpstreamConfig × List Text
  | [] => (cfg, passthrough)
  | [token] =>
      match upstreamOption token with
      | .excludeDefaultGroup => ({ cfg with excludeDefaultGroup := true }, passthrough)
      | .fallback => ({ cfg with fallback := true }, passthrough)
      | _ => (cfg, passthrough ++ [token])
  | token :: next :: rest =>
      match upstreamOption token with
      | .excludeDefaultGroup =>
          scanUpstreamTokens { cfg with excludeDefaultGroup := true } passthrough (next :: rest)
      | .fallback => scanUpstreamTokens { cfg with fallback := true } passthrough (next :: rest)
      | .other =>
          if next.head? = some '-' then
            scanUpstreamTokens cfg (passthrough ++ [token]) (next :: rest)
          else scanUpstreamTokens cfg (passthrough ++ [token, next]) rest
      | option => scanUpstreamTokens (setArgument cfg option next) passthrough rest

def parseUpstreamConfig (kind : String) (value options : Text) : UpstreamConfig :=
  let (cfg, passthrough) := scanUpstreamTokens { kind, value } [] (splitWhitespace options)
  { cfg with options := join [' '] passthrough }

def parseYesno (value : Text) (defaultValue : Bool) : Bool :=
  if eqIgnoreAsciiCase value "yes" || eqIgnoreAsciiCase value "true" || value = "1" then true
  else if eqIgnoreAsciiCase value "no" || eqIgnoreAsciiCase value "false" || value = "0" then false
  else defaultValue

/-- The keywords the parser distinguishes; the keywords of upstream servers are
read alike, so are the four that collect a list of lines, and so are all others. -/
inductive BeginnerKeyword where
  | serverName
  | bind
  | cacheSize
  | prefetchDomain
  | serveExpired
  | serveExpiredTtl
  | responseMode
  | speedCheckMode
  | dualstackIpSelection
  | logLevel
  | mdnsLookup
  | auditEnable
  | upstream
  | listExtra
  | extra
  deriving DecidableEq

def beginnerKeyword (key : String) : BeginnerKeyword :=
  match key with
  | "server-name" => .serverName
  | "bind" => .bind
  | "cache-size" => .cacheSize
  | "prefetch-domain" => .prefetchDomain
  | "serve-expired" => .serveExpired
  | "serve-expired-ttl" => .serveExpiredTtl
  | "response-mode" => .responseMode
  | "speed-check-mode" => .speedCheckMode
  | "dualstack-ip-selection" => .dualstackIpSelection
  | "log-level" => .logLevel
  | "mdns-lookup" => .mdnsLookup
  | "audit-enable" => .auditEnable
  | "server" | "server-tcp" | "server-tls" | "server-https" | "server-quic" | "server-http3"
  | "server-h3" => .upstream
  | "bind-tcp" | "bind-tls" | "bind-https" | "conf-file" => .listExtra
  | _ => .extra

/-- A list entry goes on a line of its own. -/
def appendExtra (existing : Option Text) (value : Text) : Text :=
  match existing with
  | some existing => if existing ≠ [] then existing ++ '\n' :: value else existing ++ value
  | none => value

/-- The argument of an upstream directive: an address and options. -/
def upstreamFrom (directive : Directive) : UpstreamConfig :=
  let parts := splitFirst directive.value
  parseUpstreamConfig directive.key (trim parts.1) (trim parts.2)

def scanBeginner (cfg : BeginnerConfig) (directive : Directive) : BeginnerConfig :=
  let value := directive.value
  match beginnerKeyword directive.key with
  | .serverName => { cfg with serverName := value }
  | .bind => { cfg with binds := cfg.binds ++ [value] }
  | .cacheSize => { cfg with cacheSize := value }
  | .prefetchDomain => { cfg with prefetchDomain := parseYesno value true }
  | .serveExpired => { cfg with serveExpired := parseYesno value true }
  | .serveExpiredTtl => { cfg with serveExpiredTtl := value }
  | .responseMode => { cfg with responseMode := value }
  | .speedCheckMode => { cfg with speedCheckMode := value }
  | .dualstackIpSelection => { cfg with dualstackIpSelection := parseYesno value true }
  | .logLevel => { cfg with logLevel := value }
  | .mdnsLookup => { cfg with mdnsLookup := parseYesno value false }
  | .auditEnable => { cfg with auditEnable := parseYesno value false }
  | .upstream => { cfg with upstreams := cfg.upstreams ++ [upstreamFrom directive] }
  | .listExtra =>
      if value = [] then cfg
      else
        { cfg with
          extras := Function.update cfg.extras directive.key
            (some (appendExtra (cfg.extras directive.key) value)) }
  | .extra =>
      if value = [] then cfg
      else { cfg with extras := Function.update cfg.extras directive.key (some value) }

/-- The settings of an empty text. -/
def defaultSettings : BeginnerConfig where
  cacheSize := "32768"
  serveExpiredTtl := "86400"
  responseMode := "first-ping"
  speedCheckMode := "ping,tcp:80,tcp:443"
  logLevel := "info"
  prefetchDomain := true
  serveExpired := true
  dualstackIpSelection := true

def parseBeginnerConfig (text : Text) : BeginnerConfig :=
  (directives text).foldl scanBeginner defaultSettings

/-! ### The lines of a page -/

def pushKv (key : String) (value defaultValue : Text) : List Text :=
  [keyed key (if trim value = [] then defaultValue else trim value)]

def yesno (value : Bool) : Text := if value then "yes" else "no"

def pushBool (key : String) (value : Bool) : List Text := [keyed key (yesno value)]

def pushExtraIfPresent (config : BeginnerConfig) (key : String) : List Text :=
  match config.extras key with
  | some value => if trim value = [] then [] else [keyed key (trim value)]
  | none => []

def pushExtraBoolIfPresent (config : BeginnerConfig) (key : String) : List Text :=
  match config.extras key with
  | some value =>
      if trim value = [] then [] else [keyed key (yesno (parseYesno (trim value) false))]
  | none => []

/-- The entries of a list: separated by lines and commas, those that are empty
or start with a hash sign left out. -/
def splitListExtra (config : BeginnerConfig) (key : String) : List Text :=
  match config.extras key with
  | some value =>
      (((lines value).flatMap (·.splitOn ',')).map trim).filter fun item =>
        item ≠ [] ∧ item.head? ≠ some '#'
  | none => []

/-- The lines of the entries that are not blank. -/
def pushEach (key : String) (values : List Text) : List Text :=
  (values.filter (trim · ≠ [])).map fun value => keyed key (trim value)

def pushLine (line : Text) : List Text := [line]

def ruler : Text := "# ═══════════════════════════════════════════"

/-- The first lines of a page. -/
def pageHeader (title : Text) : List Text :=
  [ruler, title, "#  由 SmartDNS Plus UI 生成", ruler, []]

/-! ### The pages -/

def renderServiceConfig (config : BeginnerConfig) : Text :=
  join ['\n'] <|
    pageHeader "#  SmartDNS 基础设置" ++
    (if trim config.serverName ≠ [] then [keyed "server-name" (trim config.serverName)] else []) ++
    pushEach "bind" (if config.binds = [] then pushLine "[::]:53" else config.binds) ++
    pushEach "bind-tcp" (splitListExtra config "bind-tcp") ++
    pushLine [] ++
    (if splitListExtra config "bind-tls" ≠ [] ∨ splitListExtra config "bind-https" ≠ [] then
      pushLine "# ── TLS / HTTPS 监听 ──" ++
      pushEach "bind-tls" (splitListExtra config "bind-tls") ++
      pushEach "bind-https" (splitListExtra config "bind-https") ++
      pushExtraIfPresent config "bind-cert-file" ++
      pushExtraIfPresent config "bind-cert-key-file" ++
      pushExtraIfPresent config "bind-cert-generate" ++
      pushExtraIfPresent config "bind-cert-san" ++
      pushExtraIfPresent config "bind-cert-key-pass" ++
      pushExtraIfPresent config "bind-cert-root-key-file" ++
      pushExtraIfPresent config "bind-cert-validity-days"
    else []) ++
    pushLine [] ++
    pushLine "# ── 响应与测速 ──" ++
    pushKv "response-mode" config.responseMode "first-ping" ++
    pushKv "speed-check-mode" config.speedCheckMode "ping,tcp:80,tcp:443" ++
    pushLine [] ++
    pushLine "# ── 运行参数 ──" ++
    pushBool "mdns-lookup" config.mdnsLookup ++
    pushExtraIfPresent config "user" ++
    pushExtraIfPresent config "socket-buff-size" ++
    pushExtraBoolIfPresent config "no-daemon" ++
    pushExtraBoolIfPresent config "restart-on-crash" ++
    pushExtraBoolIfPresent config "expand-ptr-from-address" ++
    pushLine [] ++
    pushLine "# ── 代理 / Hosts / 证书 ──" ++
    pushExtraIfPresent config "proxy-server" ++
    pushExtraIfPresent config "hosts-file" ++
    pushExtraIfPresent config "ca-file" ++
    pushExtraIfPresent config "ca-path" ++
    (if splitListExtra config "conf-file" ≠ [] then
      pushLine [] ++
      pushLine "# ── 自定义引入配置 ──" ++
      (splitListExtra config "conf-file").map (keyed "conf-file")
    else []) ++
    pushLine []

def renderPerformanceConfig (config : BeginnerConfig) : Text :=
  join ['\n'] <|
    pageHeader "#  SmartDNS 缓存与性能" ++
    pushLine "# ── 缓存 ──" ++
    pushKv "cache-size" config.cacheSize "32768" ++
    pushBool "prefetch-domain" config.prefetchDomain ++
    pushBool "serve-expired" config.serveExpired ++
    pushKv "serve-expired-ttl" config.serveExpiredTtl "86400" ++
    pushExtraIfPresent config "cache-persist" ++
    pushExtraIfPresent config "cache-file" ++
    pushLine [] ++
    pushLine "# ── TTL 与查询控制 ──" ++
    pushExtraIfPresent config "rr-ttl-min" ++
    pushExtraIfPresent config "rr-ttl-max" ++
    pushExtraIfPresent config "rr-ttl-reply-max" ++
    pushExtraIfPresent config "local-ttl" ++
    pushExtraIfPresent config "max-reply-ip-num" ++
    pushExtraIfPresent config "max-query-limit" ++
    pushExtraIfPresent config "tcp-idle-time" ++
    pushExtraIfPresent config "serve-expired-reply-ttl" ++
    pushExtraIfPresent config "serve-expired-prefetch-time" ++
    pushLine [] ++
    pushLine "# ── 双栈优选 ──" ++
    pushBool "dualstack-ip-selection" config.dualstackIpSelection ++
    pushExtraIfPresent config "dualstack-ip-selection-threshold" ++
    pushLine []

def renderLoggingConfig (config : BeginnerConfig) : Text :=
  join ['\n'] <|
    pageHeader "#  SmartDNS 日志与审计" ++
    pushLine "# ── 日志 ──" ++
    pushKv "log-level" config.logLevel "info" ++
    pushExtraIfPresent config "log-file" ++
    pushExtraIfPresent config "log-size" ++
    pushExtraIfPresent config "log-num" ++
    pushExtraBoolIfPresent config "log-console" ++
    pushExtraBoolIfPresent config "log-syslog" ++
    pushLine [] ++
    pushLine "# ── 审计 ──" ++
    pushBool "audit-enable" config.auditEnable ++
    pushExtraIfPresent config "audit-file" ++
    pushExtraIfPresent config "audit-size" ++
    pushExtraIfPresent config "audit-num" ++
    pushExtraBoolIfPresent config "audit-console" ++
    pushLine []

def renderNetworkConfig (config : BeginnerConfig) : Text :=
  join ['\n'] <|
    pageHeader "#  SmartDNS 高级网络" ++
    pushExtraIfPresent config "force-qtype-SOA" ++
    pushExtraBoolIfPresent config "force-AAAA-SOA" ++
    pushExtraBoolIfPresent config "force-no-CNAME" ++
    pushExtraIfPresent config "edns-client-subnet" ++
    pushExtraIfPresent config "dns64" ++
    pushExtraIfPresent config "ddns-domain" ++
    pushExtraIfPresent config "local-domain" ++
    pushExtraIfPresent config "dnsmasq-lease-file" ++
    pushLine []

/-! ### The page of the upstream servers -/

def defaultUpstreams : List UpstreamConfig :=
  [{ kind := "server-https"
     value := "https://dns.alidns.com/dns-query"
     groups := ["cn"]
     note := "国内 HTTPS DNS" },
   { kind := "server-https"
     value := "https://cloudflare-dns.com/dns-query"
     groups := ["global"]
     fallback := true
     note := "海外备用 HTTPS DNS" }]

def upstreamKey (kind : String) : String :=
  match String.ofList (trim kind) with
  | "server" | "udp" => "server"
  | "server-tcp" | "tcp" => "server-tcp"
  | "server-tls" | "tls" => "server-tls"
  | "server-https" | "https" => "server-https"
  | "server-quic" | "quic" => "server-quic"
  | "server-http3" | "http3" | "h3" => "server-http3"
  | _ => "server"

/-- An option with its argument, unless that is blank. -/
def optionPart (name argument : Text) : List Text :=
  if trim argument = [] then [] else [name ++ ' ' :: trim argument]

def renderUpstreamOptions (upstream : UpstreamConfig) : Text :=
  join [' '] <|
    upstream.groups.flatMap (optionPart "-group") ++
    (if upstream.excludeDefaultGroup then [("-exclude-default-group" : Text)] else []) ++
    optionPart "-proxy" upstream.proxyName ++
    optionPart "-bootstrap-dns" upstream.bootstrapDns ++
    optionPart "-host-ip" upstream.hostIp ++
    optionPart "-subnet" upstream.subnet ++
    (if upstream.fallback then [("-fallback" : Text)] else []) ++
    (if trim upstream.options = [] then [] else [trim upstream.options])

def upstreamLine (upstream : UpstreamConfig) : Text :=
  let opts := renderUpstreamOptions upstream
  if trim opts = [] then keyed (upstreamKey upstream.kind) (trim upstream.value)
  else keyed (upstreamKey upstream.kind) (trim upstream.value ++ ' ' :: opts)

def groupTitle (name : Text) : Text := ("# ── 分组: " : Text) ++ name ++ (" ──" : Text)

/-- The group an upstream server is listed under. -/
def firstGroup (upstream : UpstreamConfig) : Option Text := upstream.groups.head?

def renderUpstreamsConfig (config : BeginnerConfig) : Text :=
  let upstreams := if config.upstreams = [] then defaultUpstreams else config.upstreams
  let listed := upstreams.filter (trim ·.value ≠ [])
  let grouped := groupByKey firstGroup listed
  let ungrouped := listed.filter (firstGroup · = none)
  join ['\n'] <|
    pushLine ruler ++ pushLine "#  上游 DNS 服务器" ++ pushLine ruler ++ pushLine [] ++
    grouped.flatMap (fun group =>
      pushLine (groupTitle group.1) ++ group.2.map upstreamLine ++ pushLine []) ++
    (if ungrouped ≠ [] then
      pushLine "# ── 默认组（未分组）──" ++ ungrouped.map upstreamLine ++ pushLine []
    else []) ++
    pushLine []

/-! ### Validation -/

/-- The lines with one `group-end` too many, counted from `number`, and the
groups open at the end. -/
def scanGroups (depth number : Nat) : List Text → List Nat × Nat
  | [] => ([], depth)
  | line :: rest =>
      if ("group-begin " : Text) <+: trim line then scanGroups (depth + 1) (number + 1) rest
      else if trim line = "group-end" then
        match depth with
        | 0 =>
            let scanned := scanGroups 0 (number + 1) rest
            (number :: scanned.1, scanned.2)
        | depth + 1 => scanGroups depth (number + 1) rest
      else scanGroups depth (number + 1) rest

def validateBeginnerConfig (config : BeginnerConfig) (rulesText : Text) : ValidationResult :=
  let scanned := scanGroups 0 1 (lines rulesText)
  let errors : List Text :=
    (if config.upstreams.all (trim ·.value = []) then
      pushLine "至少需要配置一个上游 DNS 服务器。" else []) ++
    (if trim config.responseMode = [] then pushLine "response-mode 不能为空。" else []) ++
    scanned.1.map (fun number =>
      ("规则文件第 " : Text) ++ (Nat.repr number).toList ++ (" 行出现多余的 group-end。" : Text)) ++
    (if scanned.2 > 0 then pushLine "规则文件中的 group-begin / group-end 未闭合。" else [])
  let warnings : List Text :=
    (if config.binds.all (trim · = []) then
      pushLine "未设置 bind，将自动使用 [::]:53。" else []) ++
    (if trim config.speedCheckMode = [] then
      pushLine "speed-check-mode 为空时将退回默认测速策略。" else []) ++
    (if trim config.cacheSize = [] then
      pushLine "cache-size 为空时将使用默认值 32768。" else []) ++
    (if config.serveExpired ∧ trim config.serveExpiredTtl = [] then
      pushLine "已启用 serve-expired，但未指定 TTL，将使用默认值 86400。" else [])
  { ok := errors.isEmpty, errors, warnings }

end SmartDnsPlusUi
