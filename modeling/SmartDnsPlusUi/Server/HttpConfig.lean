import SmartDnsPlusUi.Server.Database
import SmartDnsPlusUi.Text.Number

/-!
# The configuration of the HTTP server

Settings come from the table `config` of the database, from the plugin section
of the configuration file and from the command line.  The configuration is
loaded twice at each start: before the database is open, and again after it.
-/

namespace SmartDnsPlusUi

open Text

/-! ### The table of settings -/

/-- `DataServer::get_config`: a database that is not open has no value for the key. -/
def getConfig (conn : Option Database) (key : Text) : Option Text :=
  conn.bind fun database => database.config.lookup key

/-- `DB::set_config`: the database afterwards, and whether the statement went through. -/
def setConfig (fault : Bool) (key value : Text) (conn : Option Database) :
    Option Database × Bool :=
  match conn with
  | none => (none, false)
  | some database =>
      if fault then (some database, false)
      else (some { database with config := database.config.insert key value }, true)

theorem getConfig_setConfig_ne {fault : Bool} {key value other : Text} (different : other ≠ key)
    (conn : Option Database) : getConfig (setConfig fault key value conn).1 other =
      getConfig conn other := by
  cases conn with
  | none => rfl
  | some database =>
      cases fault with
      | true => rfl
      | false => exact AList.lookup_insert_ne different

theorem getConfig_setConfig {fault : Bool} {key value : Text} {conn : Option Database}
    (stored : (setConfig fault key value conn).2 = true) :
    getConfig (setConfig fault key value conn).1 key = some value := by
  cases conn with
  | none => exact absurd stored Bool.false_ne_true
  | some database =>
      cases fault with
      | true => exact absurd stored Bool.false_ne_true
      | false => exact AList.lookup_insert _

theorem isSome_setConfig {fault : Bool} {key value : Text} {conn : Option Database}
    (stored : (setConfig fault key value conn).2 = true) :
    (setConfig fault key value conn).1.isSome := by
  cases conn with
  | none => exact absurd stored Bool.false_ne_true
  | some database => cases fault <;> rfl

/-- The values that the plugin section of the configuration file gives to keys. -/
abbrev PluginSection := Text → Option Text

/-- `get_server_config`: the database goes before the file. -/
def getServerConfig (conn : Option Database) (file : PluginSection) (key : Text) : Option Text :=
  (getConfig conn key).or (file key)

/-! ### The configuration -/

def passwordConfigKey : Text := "smartdns-plus-ui.password"
def jwtSecretConfigKey : Text := "smartdns-plus-ui.jwt-secret"

def defaultPassword : Text := "password"
def defaultUsername : Text := "admin"
def defaultTokenExpiredTime : Nat := 30 * 24 * 60 * 60
def defaultWwwRoot : Text := "/usr/share/smartdns-plus/wwwroot"
def defaultIpv6 : Text := "http://[::]:6081"
def defaultIp : Text := "http://0.0.0.0:6081"
def defaultConfigFile : Text := "/etc/smartdns/smartdns.conf"
def defaultRulesDir : Text := "/etc/smartdns/rules"

structure HttpServerConfig where
  httpIp : Text
  httpRoot : Text
  username : Text
  password : Text
  jwtSecret : Text
  tokenExpiredTime : Nat
  enableCors : Bool
  enableTerminal : Bool
  configFile : Text
  rulesDir : Text

/-- What the random generator gives: a secret, and the hash of a password with a
new salt in a number of rounds, where hashing succeeds. -/
structure Randomness where
  secret : Text
  hashPassword : Text → Nat → Option Text

/-- `HttpServerConfig::new`; a default password that cannot be hashed is a panic. -/
def HttpServerConfig.new (isIpv6Supported : Bool) (random : Randomness) :
    Option HttpServerConfig :=
  (random.hashPassword defaultPassword 1000).map fun password =>
    { httpIp := if isIpv6Supported then defaultIpv6 else defaultIp
      httpRoot := defaultWwwRoot
      username := defaultUsername
      password
      jwtSecret := random.secret
      tokenExpiredTime := defaultTokenExpiredTime
      enableCors := false
      enableTerminal := false
      configFile := defaultConfigFile
      rulesDir := defaultRulesDir }

/-- `parse_value` for `u32`. -/
def parseValue (value : Option Text) (minimum maximum default : Nat) : Nat :=
  match value.bind parseU32 with
  | none => default
  | some value => min (max value minimum) maximum

def isEnabled (value : Text) : Bool :=
  eqIgnoreAsciiCase value "yes" || eqIgnoreAsciiCase value "true"

namespace HttpServerConfig

/-- `get_setting_compat`. -/
def getSettingCompat (conn : Option Database) (file : PluginSection) (dbKey pluginKey : Text) :
    Option Text :=
  ((getConfig conn dbKey).or (getConfig conn pluginKey)).or (file pluginKey)

/-- The secret that `load_config` takes: of the database, of the file, or a new one. -/
def loadedSecret (conn : Option Database) (file : PluginSection) (random : Randomness) : Text :=
  match getConfig conn jwtSecretConfigKey with
  | some jwtSecret => jwtSecret
  | none => (file jwtSecretConfigKey).getD random.secret

/-- The password hash that `load_config` takes; one that cannot be made is a panic. -/
def loadedPassword (conn : Option Database) (file : PluginSection) (random : Randomness)
    (password : Text) : Option Text :=
  match getConfig conn passwordConfigKey with
  | some password => some password
  | none =>
      match file passwordConfigKey with
      | some passwordFromFile => random.hashPassword passwordFromFile 10000
      | none => some password

/-- `load_config`. -/
def loadConfig (conn : Option Database) (file : PluginSection) (random : Randomness)
    (conf : HttpServerConfig) : Option HttpServerConfig :=
  (loadedPassword conn file random conf.password).map fun password =>
    { conf with
      password
      jwtSecret := loadedSecret conn file random
      username := (getServerConfig conn file "smartdns-plus-ui.user").getD conf.username
      tokenExpiredTime :=
        parseValue (getServerConfig conn file "smartdns-plus-ui.token-expire") 60
          (365 * 24 * 60 * 60) defaultTokenExpiredTime
      enableCors :=
        ((getSettingCompat conn file "enable_cors" "smartdns-plus-ui.enable-cors").map
          isEnabled).getD conf.enableCors
      enableTerminal :=
        ((getServerConfig conn file "smartdns-plus-ui.enable-terminal").map isEnabled).getD
          conf.enableTerminal
      configFile := (getServerConfig conn file "smartdns-plus-ui.config-file").getD conf.configFile
      rulesDir := (getServerConfig conn file "smartdns-plus-ui.rules-dir").getD conf.rulesDir }

end HttpServerConfig

/-! ### Starting the plugin -/

/-- The options of the command line. -/
structure StartOptions where
  ip : Option Text := none
  wwwRoot : Option Text := none
  tokenExpire : Option Text := none
  configFile : Option Text := none
  rulesDir : Option Text := none

/-- `parser_args`, for arguments that `getopts` accepts: the options go before the
file, except for the expiration time. -/
def parserArgs (file : PluginSection) (confFullpath : Text → Text) (options : StartOptions)
    (conf : HttpServerConfig) : Option HttpServerConfig :=
  let conf := { conf with
    httpRoot := (options.wwwRoot.or ((file "smartdns-plus-ui.www-root").map confFullpath)).getD
      conf.httpRoot
    configFile :=
      (options.configFile.or ((file "smartdns-plus-ui.config-file").map confFullpath)).getD
        conf.configFile
    rulesDir := (options.rulesDir.or ((file "smartdns-plus-ui.rules-dir").map confFullpath)).getD
      conf.rulesDir
    httpIp := (options.ip.or (file "smartdns-plus-ui.ip")).getD conf.httpIp }
  match (file "smartdns-plus-ui.token-expire").or options.tokenExpire with
  | none => some conf
  | some tokenExpire =>
      (parseU32 tokenExpire).map fun tokenExpiredTime => { conf with tokenExpiredTime }

/-- What a start meets, besides the file and the database. -/
structure StartCall where
  isIpv6Supported : Bool := true
  confFullpath : Text → Text := id
  /-- The options, if there are any arguments. -/
  options : Option StartOptions := some {}
  created : Randomness
  firstLoad : Randomness
  secondLoad : Randomness

/-- `start`, for a database that opens: the configuration is loaded before the
database is opened and again after it. -/
def startPlugin (file : PluginSection) (database : Database) (call : StartCall) :
    Option HttpServerConfig :=
  (HttpServerConfig.new call.isIpv6Supported call.created).bind fun conf =>
    (match call.options with
      | none => some conf
      | some options => parserArgs file call.confFullpath options conf).bind fun conf =>
    (conf.loadConfig none file call.firstLoad).bind fun conf =>
      conf.loadConfig (some database) file call.secondLoad

/-- The second load decides which secret is used; the user name is that of the
database, of the file, or the default one. -/
theorem startPlugin_spec {file : PluginSection} {database : Database} {call : StartCall}
    {conf : HttpServerConfig} (started : startPlugin file database call = some conf) :
    conf.jwtSecret = HttpServerConfig.loadedSecret (some database) file call.secondLoad ∧
      conf.username =
        (getServerConfig (some database) file "smartdns-plus-ui.user").getD defaultUsername := by
  unfold startPlugin at started
  simp only [Option.bind_eq_some_iff] at started
  obtain ⟨created, new, parsed, arguments, loaded, first, second⟩ := started
  have default : created.username = defaultUsername := by
    obtain ⟨password, -, rfl⟩ := Option.map_eq_some_iff.mp new
    rfl
  have kept : parsed.username = created.username := by
    cases options : call.options with
    | none =>
        rw [options] at arguments
        cases arguments
        rfl
    | some options' =>
        rw [options] at arguments
        unfold parserArgs at arguments
        dsimp only at arguments
        split at arguments
        · cases arguments
          rfl
        · obtain ⟨tokenExpiredTime, -, rfl⟩ := Option.map_eq_some_iff.mp arguments
          rfl
  obtain ⟨password, -, rfl⟩ := Option.map_eq_some_iff.mp first
  obtain ⟨password, -, rfl⟩ := Option.map_eq_some_iff.mp second
  refine ⟨rfl, ?_⟩
  have closed : getServerConfig none file "smartdns-plus-ui.user" =
      file "smartdns-plus-ui.user" := rfl
  dsimp only
  rw [kept, default, closed]
  unfold getServerConfig
  cases getConfig (some database) "smartdns-plus-ui.user" <;>
    cases file "smartdns-plus-ui.user" <;> rfl

end SmartDnsPlusUi
