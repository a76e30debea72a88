import SmartDnsPlusUi.Server.Auth
import SmartDnsPlusUi.Text.Json

/-!
# The settings API

`GET /api/config/settings` shows the rows of the table `config`, completed from the
configuration in memory.  The hash of the password is masked.  The secret of the
tokens, which a change of the password stores in the same table, is not.
-/

namespace SmartDnsPlusUi

open Text

/-! ### Reading the settings -/

/-- `settings_map`. -/
def HttpServerConfig.settingsMap (conf : HttpServerConfig) : List (Text × Text) :=
  [("http_ip", conf.httpIp),
    ("username", conf.username),
    ("token_expired_time", showNat conf.tokenExpiredTime),
    ("enable_cors", if conf.enableCors then "true" else "false"),
    ("enable_terminal", if conf.enableTerminal then "true" else "false"),
    ("config_file", conf.configFile),
    ("rules_dir", conf.rulesDir)]

/-- `get_config_list`. -/
def getConfigList (conn : Option Database) : Option ConfigTable := conn.map (·.config)

def insertMissing (settings : ConfigTable) (entry : Text × Text) : ConfigTable :=
  if (settings.lookup entry.1).isNone then settings.insert entry.1 entry.2 else settings

def passwordMask : Text := "********"

/-- The rows, what the configuration adds to them, and a mask for the password. -/
def shownSettings (conf : HttpServerConfig) (settings : ConfigTable) : ConfigTable :=
  let settings := conf.settingsMap.foldl insertMissing settings
  if (settings.lookup passwordConfigKey).isSome then
    settings.insert passwordConfigKey passwordMask
  else settings

/-- The entries of a map of the JSON library, which is ordered by the keys. -/
def sortedEntries (settings : ConfigTable) : List (Text × Text) :=
  (settings.entries.map fun entry => (entry.1, entry.2)).mergeSort fun a b => keyLe a.1 b.1

/-- `api_msg_gen_key_value`. -/
def apiMsgGenKeyValue (settings : ConfigTable) : Text := jsonObject (sortedEntries settings)

/-- A response with the text of its body. -/
structure TextResponse where
  status : Nat
  body : Text
  deriving DecidableEq

/-- `response_error`. -/
def TextResponse.error (status : Nat) (message : Text) : TextResponse where
  status
  body := jsonObject [("error", message)]

/-- `api_config_get_settings`, with the route parameter `key`. -/
def apiConfigGetSettings (key : Option Text) (server : HttpServer) : TextResponse :=
  match getConfigList server.conn with
  | none => .error 404 "Not found"
  | some settings =>
      let settings := shownSettings server.conf settings
      match key with
      | none => ⟨200, apiMsgGenKeyValue settings⟩
      | some key =>
          match settings.lookup key with
          | none => .error 404 "Not found"
          | some value => ⟨200, apiMsgGenKeyValue (AList.singleton key value)⟩

/-! ### Writing the settings -/

/-- What an update meets: the map that was parsed from the body, the order in which it
is enumerated, and the keys for which the statement fails. -/
structure SettingsCall where
  settings : Except Text ConfigTable
  order : IterationOrder (Sigma fun _ : Text => Text) := .inserted
  fault : Text → Bool := fun _ => false

/-- Set one key after the other until a statement fails; the password is skipped. -/
def setSettings (fault : Text → Bool) :
    List (Sigma fun _ : Text => Text) → Option Database → Option Database × Bool
  | [], conn => (conn, true)
  | ⟨key, value⟩ :: rest, conn =>
      if key = passwordConfigKey then setSettings fault rest conn
      else
        match setConfig (fault key) key value conn with
        | (conn, false) => (conn, false)
        | (conn, true) => setSettings fault rest conn

/-- `api_config_set_settings`. -/
def apiConfigSetSettings (call : SettingsCall) (server : HttpServer) :
    HttpServer × TextResponse :=
  match call.settings with
  | .error message => (server, .error 400 message)
  | .ok settings =>
      match setSettings call.fault (call.order.enumerate settings.entries) server.conn with
      | (conn, false) => ({ server with conn }, .error 500 "database error")
      | (conn, true) => ({ server with conn }, ⟨204, []⟩)

variable {Token : Type}

inductive SettingsEvent (Token : Type) where
  | changePassword (call : ChangeCall Token)
  | setSettings (call : SettingsCall)

/-- The server after a change of the password or an update of the settings,
whether it succeeded or not. -/
def settingsStep (verifyPassword : Text → Text → Bool) (server : HttpServer) :
    SettingsEvent Token → HttpServer
  | .changePassword call => (apiAuthChangePassword verifyPassword call server).1
  | .setSettings call => (apiConfigSetSettings call server).1

/-! ### What a response shows -/

theorem mem_sortedEntries {settings : ConfigTable} {key value : Text} :
    (key, value) ∈ sortedEntries settings ↔ settings.lookup key = some value := by
  rw [sortedEntries, (List.mergeSort_perm _ _).mem_iff, ← Option.mem_def, AList.mem_lookup_iff]
  constructor
  · intro listed
    obtain ⟨entry, inside, same⟩ := List.mem_map.mp listed
    cases same
    exact inside
  · exact fun inside => List.mem_map.mpr ⟨_, inside, rfl⟩

theorem sortedEntries_congr {settings others : ConfigTable}
    (same : ∀ key, settings.lookup key = others.lookup key) :
    sortedEntries settings = sortedEntries others := by
  have entries : settings.entries.Perm others.entries := by
    refine List.lookup_ext settings.nodupKeys others.nodupKeys fun key value => ?_
    exact iff_of_eq (congrArg (value ∈ ·) (same key))
  have sorted (table : ConfigTable) := List.pairwise_mergeSort
    (fun a b c : Text × Text => keyLe_trans a.1 b.1 c.1) (fun a b => keyLe_total a.1 b.1)
    (table.entries.map fun entry => (entry.1, entry.2))
  refine List.Perm.eq_of_pairwise (fun a b listed listed_other first second => ?_)
    (sorted settings) (sorted others)
    ((List.mergeSort_perm _ _).trans ((entries.map _).trans (List.mergeSort_perm _ _).symm))
  -- Two entries with one key are the same entry.
  have key : a.1 = b.1 := keyLe_antisymm first second
  have first_value := mem_sortedEntries.mp (show (a.1, a.2) ∈ sortedEntries settings from listed)
  have second_value :=
    mem_sortedEntries.mp (show (b.1, b.2) ∈ sortedEntries others from listed_other)
  rw [same, key, second_value] at first_value
  exact Prod.ext key (Option.some.inj first_value).symm

theorem apiMsgGenKeyValue_eq_iff {settings others : ConfigTable} :
    apiMsgGenKeyValue settings = apiMsgGenKeyValue others ↔
      ∀ key, settings.lookup key = others.lookup key := by
  constructor
  · intro same key
    have entries := jsonObject_injective same
    refine Option.ext fun value => ?_
    rw [← mem_sortedEntries, entries, mem_sortedEntries]
  · exact fun same => congrArg jsonObject (sortedEntries_congr same)

theorem lookup_insertMissing (entries : List (Text × Text)) (settings : ConfigTable) (key : Text) :
    (entries.foldl insertMissing settings).lookup key =
      (settings.lookup key).or ((entries.find? fun entry => entry.1 = key).map (·.2)) := by
  induction entries generalizing settings with
  | nil => simp
  | cons entry entries inductionHypothesis =>
      rw [List.foldl_cons, inductionHypothesis, insertMissing]
      by_cases here : entry.1 = key
      · subst here
        cases found : settings.lookup entry.1 <;> simp [found]
      · split_ifs <;> simp [here, AList.lookup_insert_ne (Ne.symm here)]

theorem lookup_shownSettings (conf : HttpServerConfig) (settings : ConfigTable) (key : Text) :
    (shownSettings conf settings).lookup key =
      if key = passwordConfigKey then (settings.lookup key).map fun _ => passwordMask
      else (settings.lookup key).or
        ((conf.settingsMap.find? fun entry => entry.1 = key).map (·.2)) := by
  have noPassword : (conf.settingsMap.find? fun entry => entry.1 = passwordConfigKey) = none := rfl
  have merged := lookup_insertMissing conf.settingsMap settings
  have password := merged passwordConfigKey
  rw [noPassword, Option.map_none, Option.or_none] at password
  unfold shownSettings
  dsimp only
  rw [password]
  by_cases masked : key = passwordConfigKey
  · subst masked
    rw [if_pos rfl]
    cases stored : settings.lookup passwordConfigKey <;> simp [password, stored]
  · rw [if_neg masked]
    split_ifs <;> simp [merged, AList.lookup_insert_ne masked]

/-! ### Two runs -/

/-- The tables agree outside the rows of the two secrets. -/
def RowsAgree (conn other : Option Database) : Prop :=
  conn.isSome = other.isSome ∧ ∀ key, key ≠ passwordConfigKey → key ≠ jwtSecretConfigKey →
    getConfig conn key = getConfig other key

/-- Two servers that agree on everything that is read, except for the hash of the
password and the secret of the tokens, in memory and in the table. -/
structure AgreeButSecrets (server other : HttpServer) : Prop where
  conf : server.conf = { other.conf with
    password := server.conf.password, jwtSecret := server.conf.jwtSecret }
  rows : RowsAgree server.conn other.conn

/-- The same events, but for what the changes of the password were called with. -/
inductive SameButSecrets : SettingsEvent Token → SettingsEvent Token → Prop where
  | changePassword (call other : ChangeCall Token) :
      SameButSecrets (.changePassword call) (.changePassword other)
  | setSettings (call : SettingsCall) : SameButSecrets (.setSettings call) (.setSettings call)

theorem AgreeButSecrets.symm {server other : HttpServer} (agree : AgreeButSecrets server other) :
    AgreeButSecrets other server :=
  ⟨by rw [agree.conf], agree.rows.1.symm, fun key notPassword notSecret =>
    (agree.rows.2 key notPassword notSecret).symm⟩

theorem AgreeButSecrets.trans {server other third : HttpServer}
    (first : AgreeButSecrets server other) (second : AgreeButSecrets other third) :
    AgreeButSecrets server third :=
  ⟨by rw [first.conf, second.conf], first.rows.1.trans second.rows.1,
    fun key notPassword notSecret => (first.rows.2 key notPassword notSecret).trans
      (second.rows.2 key notPassword notSecret)⟩

theorem rowsAgree_setConfig_secret {fault : Bool} {key value : Text} {conn : Option Database}
    (secret : key = passwordConfigKey ∨ key = jwtSecretConfigKey) :
    RowsAgree (setConfig fault key value conn).1 conn := by
  refine ⟨?_, fun other notPassword notSecret => getConfig_setConfig_ne ?_ conn⟩
  · cases conn with
    | none => rfl
    | some database => cases fault <;> rfl
  · rintro rfl
    exact secret.elim notPassword notSecret

theorem agree_storePassword {call : ChangeCall Token} {hashedPassword : Text}
    {server : HttpServer} {outcome : HttpServer × Response Token}
    (result : storePassword call hashedPassword server = outcome) :
    AgreeButSecrets outcome.1 server := by
  have first := @rowsAgree_setConfig_secret call.passwordFault _ hashedPassword server.conn
    (Or.inl rfl)
  unfold storePassword at result
  dsimp only at result
  split at result
  · rename_i conn stored
    subst result
    rw [stored] at first
    exact ⟨rfl, first⟩
  · rename_i conn stored
    rw [stored] at first
    have second := @rowsAgree_setConfig_secret call.secretFault _ call.random.secret conn
      (Or.inr rfl)
    split at result
    all_goals
      rename_i later storedLater
      subst result
      rw [storedLater] at second
      exact ⟨rfl, second.1.trans first.1, fun key notPassword notSecret =>
        (second.2 key notPassword notSecret).trans (first.2 key notPassword notSecret)⟩

/-- Whatever comes of it, a change of the password touches nothing but the secrets. -/
theorem agree_apiAuthChangePassword {verifyPassword : Text → Text → Bool}
    {call : ChangeCall Token} {server : HttpServer} {outcome : HttpServer × Response Token}
    (result : apiAuthChangePassword verifyPassword call server = outcome) :
    AgreeButSecrets outcome.1 server := by
  have conf := HttpServer.conf_loginAttemptsCheck call.instant server
  have conn := HttpServer.conn_loginAttemptsCheck call.instant server
  have same : AgreeButSecrets server server := ⟨rfl, rfl, fun _ _ _ => rfl⟩
  have checked (next : HttpServer) (sameConf : next.conf = server.conf)
      (sameConn : next.conn = server.conn) : AgreeButSecrets next server :=
    ⟨by rw [sameConf], by rw [sameConn]; exact same.rows⟩
  unfold apiAuthChangePassword at result
  split at result
  · exact result ▸ same
  · exact result ▸ same
  · split at result
    · exact result ▸ same
    · split at result
      · rename_i next outcomeOfCheck
        rw [outcomeOfCheck] at conf conn
        exact result ▸ checked next conf conn
      · rename_i next outcomeOfCheck
        rw [outcomeOfCheck] at conf conn
        split_ifs at result
        · exact result ▸ checked next conf conn
        · split at result
          · exact result ▸ checked next conf conn
          · exact (agree_storePassword result).trans (checked next conf conn)

theorem rowsAgree_setConfig {fault : Bool} {key value : Text} {conn other : Option Database}
    (agree : RowsAgree conn other) :
    (setConfig fault key value conn).2 = (setConfig fault key value other).2 ∧
      RowsAgree (setConfig fault key value conn).1 (setConfig fault key value other).1 := by
  obtain ⟨opened, rows⟩ := agree
  cases conn with
  | none =>
      cases other with
      | none => exact ⟨rfl, rfl, rows⟩
      | some database => cases opened
  | some database =>
      cases other with
      | none => cases opened
      | some database' =>
          cases fault with
          | true => exact ⟨rfl, rfl, rows⟩
          | false =>
              refine ⟨rfl, rfl, fun third notPassword notSecret => ?_⟩
              have before := rows third notPassword notSecret
              unfold getConfig setConfig at *
              by_cases here : third = key
              · subst here
                simp
              · simpa [AList.lookup_insert_ne here] using before

theorem rowsAgree_setSettings {fault : Text → Bool} (entries : List (Sigma fun _ : Text => Text))
    {conn other : Option Database} (agree : RowsAgree conn other) :
    (setSettings fault entries conn).2 = (setSettings fault entries other).2 ∧
      RowsAgree (setSettings fault entries conn).1 (setSettings fault entries other).1 := by
  induction entries generalizing conn other with
  | nil => exact ⟨rfl, agree⟩
  | cons entry entries inductionHypothesis =>
      unfold setSettings
      split_ifs with password
      · exact inductionHypothesis agree
      · have set := @rowsAgree_setConfig (fault entry.1) entry.1 entry.2 conn other agree
        rcases first : setConfig (fault entry.1) entry.1 entry.2 conn with ⟨conn, stored⟩
        rcases second : setConfig (fault entry.1) entry.1 entry.2 other with ⟨other, storedOther⟩
        rw [first, second] at set
        obtain ⟨same, agree⟩ := set
        dsimp only at same
        subst same
        cases stored with
        | false => exact ⟨rfl, agree⟩
        | true => exact inductionHypothesis agree

theorem apiConfigSetSettings_fst {call : SettingsCall} {settings : ConfigTable}
    (parsed : call.settings = .ok settings) (server : HttpServer) :
    (apiConfigSetSettings call server).1 = { server with
      conn := (setSettings call.fault (call.order.enumerate settings.entries) server.conn).1 } := by
  unfold apiConfigSetSettings
  rw [parsed]
  dsimp only
  rcases setSettings call.fault (call.order.enumerate settings.entries) server.conn with
    ⟨conn, stored⟩
  cases stored <;> rfl

theorem agree_apiConfigSetSettings (call : SettingsCall) {server other : HttpServer}
    (agree : AgreeButSecrets server other) :
    AgreeButSecrets (apiConfigSetSettings call server).1 (apiConfigSetSettings call other).1 := by
  cases parsed : call.settings with
  | error message =>
      unfold apiConfigSetSettings
      rw [parsed]
      exact agree
  | ok settings =>
      rw [apiConfigSetSettings_fst parsed, apiConfigSetSettings_fst parsed]
      exact ⟨agree.conf, (rowsAgree_setSettings _ agree.rows).2⟩

theorem AgreeButSecrets.step {verifyPassword : Text → Text → Bool} {server other : HttpServer}
    (agree : AgreeButSecrets server other) {event event' : SettingsEvent Token}
    (same : SameButSecrets event event') :
    AgreeButSecrets (settingsStep verifyPassword server event)
      (settingsStep verifyPassword other event') := by
  cases same with
  | changePassword call call' =>
      exact ((agree_apiAuthChangePassword rfl).trans agree).trans
        (agree_apiAuthChangePassword rfl).symm
  | setSettings call => exact agree_apiConfigSetSettings call agree

theorem AgreeButSecrets.run {verifyPassword : Text → Text → Bool}
    {events others : List (SettingsEvent Token)}
    (same : List.Forall₂ SameButSecrets events others) {server other : HttpServer}
    (agree : AgreeButSecrets server other) :
    AgreeButSecrets (events.foldl (settingsStep verifyPassword) server)
      (others.foldl (settingsStep verifyPassword) other) := by
  induction same generalizing server other with
  | nil => exact agree
  | cons event events inductionHypothesis => exact inductionHypothesis (agree.step event)

/-- What is shown of two tables is the same. -/
theorem lookup_shownSettings_iff {conf : HttpServerConfig} {settings others : ConfigTable}
    (rows : ∀ key, key ≠ passwordConfigKey → key ≠ jwtSecretConfigKey →
      settings.lookup key = others.lookup key) :
    (∀ key, (shownSettings conf settings).lookup key = (shownSettings conf others).lookup key) ↔
      (settings.lookup passwordConfigKey).isSome = (others.lookup passwordConfigKey).isSome ∧
        settings.lookup jwtSecretConfigKey = others.lookup jwtSecretConfigKey := by
  have noSecret : (conf.settingsMap.find? fun entry => entry.1 = jwtSecretConfigKey) = none := rfl
  have notPassword : jwtSecretConfigKey ≠ passwordConfigKey := by decide
  simp only [lookup_shownSettings]
  constructor
  · intro same
    have password := same passwordConfigKey
    have secret := same jwtSecretConfigKey
    rw [if_pos rfl, if_pos rfl] at password
    rw [if_neg notPassword, if_neg notPassword, noSecret, Option.map_none, Option.or_none,
      Option.or_none] at secret
    have present := congrArg Option.isSome password
    rw [Option.isSome_map, Option.isSome_map] at present
    exact ⟨present, secret⟩
  · rintro ⟨present, secret⟩ key
    split_ifs with password
    · subst password
      cases stored : settings.lookup passwordConfigKey <;>
        cases stored' : others.lookup passwordConfigKey <;> simp_all
    · by_cases token : key = jwtSecretConfigKey
      · rw [token, secret]
      · rw [rows key password token]

/-- Two servers that agree but for the secrets show the same settings if and only if both or
neither has a row for the password, and the rows for the secret of the tokens are the same. -/
theorem AgreeButSecrets.shows_iff {server other : HttpServer}
    (agree : AgreeButSecrets server other) :
    (∀ key, apiConfigGetSettings key server = apiConfigGetSettings key other) ↔
      (getConfig server.conn passwordConfigKey).isSome =
          (getConfig other.conn passwordConfigKey).isSome ∧
        getConfig server.conn jwtSecretConfigKey = getConfig other.conn jwtSecretConfigKey := by
  obtain ⟨conf, opened, rows⟩ := agree
  have settingsMap : shownSettings server.conf = shownSettings other.conf := by rw [conf]; rfl
  unfold apiConfigGetSettings
  rw [settingsMap]
  cases table : server.conn with
  | none =>
      rw [table] at opened
      cases table' : other.conn with
      | none => simp [getConfigList, getConfig]
      | some database' =>
          rw [table'] at opened
          cases opened
  | some database =>
      rw [table] at opened rows
      cases table' : other.conn with
      | none =>
          rw [table'] at opened
          cases opened
      | some database' =>
          rw [table'] at rows
          have shown := @lookup_shownSettings_iff other.conf database.config database'.config rows
          refine Iff.trans ⟨fun same => ?_, fun same key => ?_⟩ shown
          · exact apiMsgGenKeyValue_eq_iff.mp (TextResponse.mk.inj (same none)).2
          · cases key with
            | none => exact congrArg (TextResponse.mk 200) (apiMsgGenKeyValue_eq_iff.mpr same)
            | some key =>
                dsimp only [getConfigList, Option.map_some]
                rw [same key]

/-- After any changes of the password and updates of the settings, two servers that agreed
but for the secrets show the same settings if and only if both or neither has a row for the
password, and the rows for the secret of the tokens are the same. -/
theorem settings_shown_iff {verifyPassword : Text → Text → Bool} {server other : HttpServer}
    (agree : AgreeButSecrets server other) {events others : List (SettingsEvent Token)}
    (same : List.Forall₂ SameButSecrets events others) :
    (∀ key, apiConfigGetSettings key (events.foldl (settingsStep verifyPassword) server) =
        apiConfigGetSettings key (others.foldl (settingsStep verifyPassword) other)) ↔
      (getConfig (events.foldl (settingsStep verifyPassword) server).conn
            passwordConfigKey).isSome =
          (getConfig (others.foldl (settingsStep verifyPassword) other).conn
            passwordConfigKey).isSome ∧
        getConfig (events.foldl (settingsStep verifyPassword) server).conn jwtSecretConfigKey =
          getConfig (others.foldl (settingsStep verifyPassword) other).conn jwtSecretConfigKey :=
  (agree.run same).shows_iff

/-- A server with the default configuration, a password hash and a table of settings. -/
def serverWith (password : Text) (config : ConfigTable) : HttpServer where
  conf := { httpIp := defaultIp, httpRoot := defaultWwwRoot, username := defaultUsername, password,
            jwtSecret := password, tokenExpiredTime := defaultTokenExpiredTime, enableCors := false,
            enableTerminal := false, configFile := defaultConfigFile,
            rulesDir := defaultRulesDir }
  loginAttempts := (0, 0)
  conn := some { config }

theorem getConfig_serverWith (password : Text) (config : ConfigTable) (key : Text) :
    getConfig (serverWith password config).conn key = config.lookup key := rfl

/-- An update that turns a setting on. -/
def sampleSettings : SettingsEvent Unit :=
  .setSettings { settings := .ok (AList.singleton ("enable_cors" : Text) "yes") }

theorem agree_serverWith (password other : Text) :
    AgreeButSecrets (serverWith password (AList.insert passwordConfigKey password ∅))
      (serverWith other (AList.insert passwordConfigKey other ∅)) := by
  refine ⟨rfl, rfl, fun key notPassword _ => ?_⟩
  rw [getConfig_serverWith, getConfig_serverWith, AList.lookup_insert_ne notPassword,
    AList.lookup_insert_ne notPassword]

theorem settings_shown_example :
    apiConfigGetSettings none ([sampleSettings].foldl (settingsStep fun _ _ => true)
        (serverWith "a" (AList.insert passwordConfigKey "a" ∅))) =
      apiConfigGetSettings none ([sampleSettings].foldl (settingsStep fun _ _ => true)
        (serverWith "b" (AList.insert passwordConfigKey "b" ∅))) := by
  have same : List.Forall₂ SameButSecrets [sampleSettings] [sampleSettings] :=
    .cons (.setSettings _) .nil
  have shown := @settings_shown_iff _ (fun _ _ => true) _ _ (agree_serverWith "a" "b") _ _ same
  exact shown.mpr ⟨by decide, by decide⟩ none

/-- The secret that a change of the password has stored is shown. -/
theorem not_settings_shown :
    ¬ ∀ server other : HttpServer, AgreeButSecrets server other →
      (∀ key, (getConfig server.conn key).isSome = (getConfig other.conn key).isSome) →
      apiConfigGetSettings none server = apiConfigGetSettings none other := by
  intro hides
  have rows (value key : Text) (notSecret : key ≠ jwtSecretConfigKey) :
      getConfig (serverWith value (AList.insert jwtSecretConfigKey value ∅)).conn key = none :=
    (getConfig_serverWith _ _ _).trans (AList.lookup_insert_ne notSecret)
  have same := hides (serverWith "a" (AList.insert jwtSecretConfigKey "a" ∅))
    (serverWith "b" (AList.insert jwtSecretConfigKey "b" ∅))
    ⟨rfl, rfl, fun key _ notSecret => (rows "a" key notSecret).trans (rows "b" key notSecret).symm⟩
    fun key => by
      by_cases secret : key = jwtSecretConfigKey
      · subst secret
        rfl
      · rw [rows "a" key secret, rows "b" key secret]
  have shown := apiMsgGenKeyValue_eq_iff.mp (TextResponse.mk.inj same).2 jwtSecretConfigKey
  rw [lookup_shownSettings, lookup_shownSettings] at shown
  revert shown
  decide

end SmartDnsPlusUi
