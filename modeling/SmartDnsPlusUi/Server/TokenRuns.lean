import SmartDnsPlusUi.Run.Basic
import SmartDnsPlusUi.Server.Auth

/-!
# Tokens over runs

A run is a sequence of logins, refreshes, changes of the password and restarts.
A token should be accepted exactly as long as it is not expired and the password
has not been changed since it was issued.  A restart breaks this when neither the
database nor the file has the secret: `load_config` then makes a new one, which no
later load stores.
-/

namespace SmartDnsPlusUi

open Run Text

variable {Token : Type}

/-- What stays the same in a run. -/
structure AuthSetting (Token : Type) where
  library : JwtLibrary Token
  verifyPassword : Text → Text → Bool
  file : PluginSection

/-- A token that the server issued, with the number of password changes before. -/
structure Issue (Token : Type) where
  token : Token
  exp : Nat
  changes : Nat

/-- The server in a run: what it has issued, how often the password was changed, and
the secrets there have been so far. -/
structure AuthRun (Token : Type) where
  server : HttpServer
  issued : List (Issue Token) := []
  changes : Nat := 0
  secrets : List Text

inductive AuthEvent (Token : Type) where
  | login (call : RequestCall Token) (body : Except Text AuthUser)
  | refresh (call : RequestCall Token)
  | changePassword (call : ChangeCall Token)
  | restart (call : StartCall)

namespace AuthRun

/-- A request is answered; the token of the response, if there is one, is issued. -/
def answered (now : Nat) (outcome : HttpServer × Response Token) (run : AuthRun Token) :
    AuthRun Token :=
  { run with
    server := outcome.1
    issued := match outcome.2.body with
      | .token info =>
          run.issued ++ [{ token := info.token, exp := now + outcome.1.conf.tokenExpiredTime,
                           changes := run.changes }]
      | _ => run.issued }

end AuthRun

/-- The secrets that a start generates, in use or not. -/
def StartCall.secrets (call : StartCall) : List Text :=
  [call.created.secret, call.firstLoad.secret, call.secondLoad.secret]

def startedServer (conf : HttpServerConfig) (database : Database) : HttpServer where
  conf
  loginAttempts := (0, 0)
  conn := some database

variable (setting : AuthSetting Token)

/-- One event of a run: changes of the password succeed, and a generated secret is
none that there has been before. -/
def authStep (run : AuthRun Token) : AuthEvent Token → Option (AuthRun Token)
  | .login call body =>
      some (run.answered call.now
        (apiAuthLogin setting.library setting.verifyPassword call body run.server))
  | .refresh call =>
      some (run.answered call.now
        (authorized setting.library call run.server
          (apiAuthRefresh setting.library call run.server)))
  | .changePassword call =>
      let outcome := authorized setting.library call.toRequestCall run.server
        (apiAuthChangePassword setting.verifyPassword call run.server)
      if outcome.2.status = 204 ∧ call.random.secret ∉ run.secrets then
        some { run with
          server := outcome.1
          changes := run.changes + 1
          secrets := call.random.secret :: run.secrets }
      else none
  | .restart call =>
      if ∀ secret ∈ call.secrets, secret ∉ run.secrets then
        run.server.conn.bind fun database =>
          (startPlugin setting.file database call).map fun conf =>
            { run with
              server := startedServer conf database
              secrets := call.secrets ++ run.secrets }
      else none

/-- The first start of a run. -/
def authStart (database : Database) (call : StartCall) : Option (AuthRun Token) :=
  (startPlugin setting.file database call).map fun conf =>
    { server := startedServer conf database
      secrets := call.secrets ++ (database.config.lookup jwtSecretConfigKey).toList ++
        (setting.file jwtSecretConfigKey).toList }

/-! ### What the claim of a token is worth -/

/-- Nobody but the server signs with a secret of the server. -/
def Unforged (run : AuthRun Token) (token : Token) : Prop :=
  ∀ secret ∈ run.secrets, ∀ now claims, setting.library.decode secret now token = some claims →
    ∃ issue ∈ run.issued, issue.token = token

/-- A token is accepted if and only if the server issued it, it is not expired, and the
password has not been changed since. -/
def AcceptsRight (run : AuthRun Token) : Prop :=
  ∀ token now, Unforged setting run token →
    (run.server.authTokenIsValid setting.library now (.ok (some token)) = .ok true ↔
      ∃ issue ∈ run.issued, issue.token = token ∧
        now ≤ issue.exp + setting.library.leeway ∧ issue.changes = run.changes)

/-- A restart finds the secret again, or nothing was signed with it. -/
def KeepsSecret (run : AuthRun Token) : AuthEvent Token → Prop
  | .restart _ => (getConfig run.server.conn jwtSecretConfigKey).isSome ∨
      (setting.file jwtSecretConfigKey).isSome ∨ run.issued = []
  | _ => True

/-! ### The invariant -/

/-- The token was signed for a user with a secret. -/
def Issue.IsSigned (secret username : Text) (issue : Issue Token) : Prop :=
  issue.token =
    setting.library.encode secret { user := username, ip := [], exp := issue.exp }

/-- The secret in use is the one that the next load finds, if it finds one, and exactly
the tokens issued since the last change of the password are signed with it. -/
structure RunInvariant (run : AuthRun Token) : Prop where
  username : run.server.conf.username =
    (getServerConfig run.server.conn setting.file "smartdns-plus-ui.user").getD defaultUsername
  secret : run.server.conf.jwtSecret ∈ run.secrets
  stored : ∀ secret, getConfig run.server.conn jwtSecretConfigKey = some secret →
    secret = run.server.conf.jwtSecret
  filed : getConfig run.server.conn jwtSecretConfigKey = none →
    ∀ secret, setting.file jwtSecretConfigKey = some secret → secret = run.server.conf.jwtSecret
  changed : getConfig run.server.conn jwtSecretConfigKey = none → run.changes = 0
  issued : ∀ issue ∈ run.issued, issue.changes ≤ run.changes ∧ ∃ secret ∈ run.secrets,
    issue.IsSigned setting secret run.server.conf.username ∧
      (issue.changes = run.changes ↔ secret = run.server.conf.jwtSecret)

variable {setting : AuthSetting Token} {run : AuthRun Token}

theorem RunInvariant.acceptsRight (invariant : RunInvariant setting run) :
    AcceptsRight setting run := by
  intro token now unforged
  have valid : run.server.authTokenIsValid setting.library now (.ok (some token)) = .ok true ↔
      ∃ claims, setting.library.decode run.server.conf.jwtSecret now token = some claims ∧
        claims.user = run.server.conf.username ∧ claims.ip = [] := by
    unfold HttpServer.authTokenIsValid Jwt.isTokenValid Jwt.decodeToken HttpServer.jwtFor
    dsimp only [Except.map]
    cases setting.library.decode run.server.conf.jwtSecret now token <;> simp
  rw [valid]
  constructor
  · rintro ⟨claims, decoded, -⟩
    obtain ⟨issue, listed, same⟩ := unforged _ invariant.secret now claims decoded
    obtain ⟨-, secret, -, signed, current⟩ := invariant.issued issue listed
    rw [← same, signed] at decoded
    have used : secret = run.server.conf.jwtSecret := by
      by_contra other
      rw [setting.library.decode_other _ _ _ _ other] at decoded
      cases decoded
    rw [used, setting.library.decode_encode] at decoded
    refine ⟨issue, listed, same, ?_, current.mpr used⟩
    by_contra expired
    rw [if_neg expired] at decoded
    cases decoded
  · rintro ⟨issue, listed, same, early, latest⟩
    obtain ⟨-, secret, -, signed, current⟩ := invariant.issued issue listed
    refine ⟨{ user := run.server.conf.username, ip := [], exp := issue.exp }, ?_, rfl, rfl⟩
    rw [← same, signed, current.mp latest, setting.library.decode_encode, if_pos early]

theorem RunInvariant.answered (invariant : RunInvariant setting run) {now : Nat}
    {outcome : HttpServer × Response Token}
    (answers : Answers setting.library now run.server outcome) :
    RunInvariant setting (run.answered now outcome) := by
  obtain ⟨conf, conn, signed⟩ := answers
  refine ⟨?_, ?_, ?_, ?_, ?_, ?_⟩
  · exact conf ▸ conn ▸ invariant.username
  · exact conf ▸ invariant.secret
  · exact conf ▸ conn ▸ invariant.stored
  · exact conf ▸ conn ▸ invariant.filed
  · exact conn ▸ invariant.changed
  · intro issue listed
    have before (old : issue ∈ run.issued) := conf.symm ▸ invariant.issued issue old
    unfold AuthRun.answered at listed
    dsimp only at listed
    split at listed
    · rename_i info body
      rcases List.mem_append.mp listed with old | new
      · exact before old
      · cases List.mem_singleton.mp new
        refine ⟨le_rfl, run.server.conf.jwtSecret, invariant.secret, ?_, ?_⟩
        · unfold AuthRun.answered Issue.IsSigned
          dsimp only
          rw [conf]
          exact signed info body
        · unfold AuthRun.answered
          dsimp only
          rw [conf]
          exact ⟨fun _ => rfl, fun _ => rfl⟩
    · exact before listed

theorem RunInvariant.changePassword (invariant : RunInvariant setting run)
    {call : ChangeCall Token} {server : HttpServer} (changes : Changes call run.server server)
    (fresh : call.random.secret ∉ run.secrets) :
    RunInvariant setting { run with
      server := server
      changes := run.changes + 1
      secrets := call.random.secret :: run.secrets } := by
  have user : getServerConfig server.conn setting.file "smartdns-plus-ui.user" =
      getServerConfig run.server.conn setting.file "smartdns-plus-ui.user" :=
    congrArg (Option.or · _) (changes.others _ (by decide) (by decide))
  refine ⟨?_, ?_, ?_, ?_, ?_, ?_⟩
  · exact (changes.username.trans invariant.username).trans (by rw [user])
  · exact changes.secret ▸ List.mem_cons_self
  · intro secret stored
    rw [changes.stored] at stored
    exact (Option.some.inj stored).symm.trans changes.secret.symm
  · intro none
    rw [changes.stored] at none
    cases none
  · intro none
    rw [changes.stored] at none
    cases none
  · intro issue listed
    obtain ⟨earlier, secret, known, signed, -⟩ := invariant.issued issue listed
    refine ⟨Nat.le_succ_of_le earlier, secret, List.mem_cons_of_mem _ known, ?_, ?_⟩
    · exact changes.username.symm ▸ signed
    · constructor
      · intro same
        exact absurd same (Nat.ne_of_lt (Nat.lt_succ_of_le earlier))
      · intro same
        exact absurd (changes.secret ▸ same ▸ known) fresh

/-- What a start finds decides which secret is used. -/
theorem startedServer_spec {database : Database} {call : StartCall} {conf : HttpServerConfig}
    (started : startPlugin setting.file database call = some conf) :
    conf.username = (getServerConfig (some database) setting.file
        "smartdns-plus-ui.user").getD defaultUsername ∧
      (∀ secret, getConfig (some database) jwtSecretConfigKey = some secret →
        secret = conf.jwtSecret) ∧
      (getConfig (some database) jwtSecretConfigKey = none →
        ∀ secret, setting.file jwtSecretConfigKey = some secret → secret = conf.jwtSecret) ∧
      (getConfig (some database) jwtSecretConfigKey = none →
        setting.file jwtSecretConfigKey = none → conf.jwtSecret = call.secondLoad.secret) := by
  obtain ⟨secret, username⟩ := startPlugin_spec started
  unfold HttpServerConfig.loadedSecret at secret
  refine ⟨username, ?_, ?_, ?_⟩
  · intro found stored
    rw [stored] at secret
    exact secret.symm
  · intro none found filed
    rw [none, filed] at secret
    exact secret.symm
  · intro none missing
    rw [none, missing] at secret
    exact secret

/-- A restart that keeps the secret keeps the invariant. -/
theorem RunInvariant.restart (invariant : RunInvariant setting run) {database : Database}
    (opened : run.server.conn = some database) {call : StartCall} {conf : HttpServerConfig}
    (started : startPlugin setting.file database call = some conf)
    (keeps : KeepsSecret setting run (.restart call)) :
    RunInvariant setting { run with
      server := startedServer conf database
      secrets := call.secrets ++ run.secrets } := by
  obtain ⟨username, stored, filed, generated⟩ := startedServer_spec started
  have sameUser : conf.username = run.server.conf.username := by
    rw [username, invariant.username, opened]
  -- The secret is the one that was used before, or nothing was issued.
  have sameSecret : conf.jwtSecret = run.server.conf.jwtSecret ∨ run.issued = [] := by
    cases found : getConfig (some database) jwtSecretConfigKey with
    | some secret =>
        exact Or.inl ((stored secret found).symm.trans
          (invariant.stored secret (opened.symm ▸ found)))
    | none =>
        cases file : setting.file jwtSecretConfigKey with
        | some secret =>
            exact Or.inl ((filed found secret file).symm.trans
              (invariant.filed (opened.symm ▸ found) secret file))
        | none =>
            unfold KeepsSecret at keeps
            rw [opened, found, file] at keeps
            exact Or.inr ((keeps.resolve_left nofun).resolve_left nofun)
  have known : conf.jwtSecret ∈ call.secrets ++ run.secrets := by
    cases found : getConfig (some database) jwtSecretConfigKey with
    | some secret =>
        have same := invariant.stored secret (opened.symm ▸ found)
        rw [← stored secret found, same]
        exact List.mem_append_right _ invariant.secret
    | none =>
        cases file : setting.file jwtSecretConfigKey with
        | some secret =>
            have same := invariant.filed (opened.symm ▸ found) secret file
            rw [← filed found secret file, same]
            exact List.mem_append_right _ invariant.secret
        | none =>
            rw [generated found file]
            exact List.mem_append_left _ (by simp [StartCall.secrets])
  refine ⟨username, known, stored, filed, ?_, ?_⟩
  · exact fun none => invariant.changed (opened.symm ▸ none)
  · intro issue listed
    rcases sameSecret with same | nothing
    · obtain ⟨earlier, secret, member, signed, current⟩ := invariant.issued issue listed
      exact ⟨earlier, secret, List.mem_append_right _ member, sameUser.symm ▸ signed,
        same.symm ▸ current⟩
    · exact absurd (nothing ▸ listed) List.not_mem_nil

/-- A restart that loses the secret leaves a token that should be accepted and is not. -/
theorem RunInvariant.not_acceptsRight (invariant : RunInvariant setting run)
    {database : Database} (opened : run.server.conn = some database) {call : StartCall}
    {conf : HttpServerConfig} (started : startPlugin setting.file database call = some conf)
    (fresh : ∀ secret ∈ call.secrets, secret ∉ run.secrets)
    (loses : ¬ KeepsSecret setting run (.restart call)) :
    ¬ AcceptsRight setting { run with
      server := startedServer conf database
      secrets := call.secrets ++ run.secrets } := by
  intro accepts
  unfold KeepsSecret at loses
  rw [opened, not_or, not_or, Option.not_isSome_iff_eq_none, Option.not_isSome_iff_eq_none] at loses
  obtain ⟨notStored, notFiled, some_issued⟩ := loses
  obtain ⟨issue, listed⟩ := List.exists_mem_of_ne_nil _ some_issued
  obtain ⟨earlier, secret, known, signed, -⟩ := invariant.issued issue listed
  have noChange := invariant.changed (opened.symm ▸ notStored)
  have generated := (startedServer_spec started).2.2.2 notStored notFiled
  have different : secret ≠ conf.jwtSecret := by
    rintro rfl
    exact fresh _ (by simp [StartCall.secrets]) (generated ▸ known)
  have accepted := (accepts issue.token issue.exp fun _ _ _ _ _ => ⟨issue, listed, rfl⟩).mpr
    ⟨issue, listed, rfl, Nat.le_add_right _ _, by rw [noChange] at earlier ⊢; omega⟩
  unfold HttpServer.authTokenIsValid Jwt.isTokenValid Jwt.decodeToken HttpServer.jwtFor
    startedServer at accepted
  dsimp only [Except.map] at accepted
  rw [signed, setting.library.decode_other _ _ _ _ different] at accepted
  cases accepted

theorem RunInvariant.step {event : AuthEvent Token} {next : AuthRun Token}
    (invariant : RunInvariant setting run) (keeps : KeepsSecret setting run event)
    (stepped : authStep setting run event = some next) : RunInvariant setting next := by
  cases event with
  | login call body =>
      cases stepped
      exact invariant.answered (answers_apiAuthLogin _ _ _ _ _)
  | refresh call =>
      cases stepped
      exact invariant.answered (answers_authorized (answers_apiAuthRefresh _ _ _))
  | changePassword call =>
      obtain ⟨⟨succeeds, fresh⟩, same⟩ := Option.ite_none_right_eq_some.mp stepped
      cases same
      exact invariant.changePassword (changes_authorized rfl succeeds) fresh
  | restart call =>
      obtain ⟨fresh, started⟩ := Option.ite_none_right_eq_some.mp stepped
      obtain ⟨database, opened, loaded⟩ := Option.bind_eq_some_iff.mp started
      obtain ⟨conf, started', rfl⟩ := Option.map_eq_some_iff.mp loaded
      exact invariant.restart opened started' keeps

theorem runInvariant_authStart {database : Database} {call : StartCall} {start : AuthRun Token}
    (started : authStart setting database call = some start) : RunInvariant setting start := by
  obtain ⟨conf, loaded, rfl⟩ := Option.map_eq_some_iff.mp started
  obtain ⟨username, stored, filed, generated⟩ := startedServer_spec loaded
  refine ⟨username, ?_, stored, filed, fun _ => rfl, nofun⟩
  cases found : getConfig (some database) jwtSecretConfigKey with
  | some secret =>
      have same := stored secret found
      have kept : database.config.lookup jwtSecretConfigKey = some secret := found
      simp [startedServer, kept, same]
  | none =>
      cases file : setting.file jwtSecretConfigKey with
      | some secret =>
          have same := filed found secret file
          simp [startedServer, same]
      | none => simp [startedServer, generated found file, StartCall.secrets]

/-- In every state of a run, the tokens that are accepted are those that should be, if and
only if no restart loses a secret that tokens were signed with. -/
theorem acceptsRight_iff {database : Database} {call : StartCall} {start final : AuthRun Token}
    {events : List (AuthEvent Token)} (started : authStart setting database call = some start)
    (runs : Run.run (authStep setting) start events = some final) :
    Always (authStep setting) (AcceptsRight setting) start events ↔
      Throughout (authStep setting) (KeepsSecret setting) start events := by
  refine always_iff_throughout (fun state => RunInvariant.acceptsRight)
    (fun state event next => RunInvariant.step) ?_ (runInvariant_authStart started) runs
  intro state event next invariant loses stepped
  cases event with
  | login call body => exact absurd trivial loses
  | refresh call => exact absurd trivial loses
  | changePassword call => exact absurd trivial loses
  | restart call =>
      obtain ⟨fresh, started⟩ := Option.ite_none_right_eq_some.mp stepped
      obtain ⟨database, opened, loaded⟩ := Option.bind_eq_some_iff.mp started
      obtain ⟨conf, started', rfl⟩ := Option.map_eq_some_iff.mp loaded
      exact invariant.not_acceptsRight opened started' fresh loses

/-! ### Two runs -/

/-- Tokens that show the secret they were signed with. -/
def shownLibrary : JwtLibrary (Text × JwtClaims) where
  leeway := 60
  encode secret claims := (secret, claims)
  decode secret now token :=
    if token.1 = secret then if now ≤ token.2.exp + 60 then some token.2 else none else none
  decode_encode _ _ _ := if_pos rfl
  decode_other _ _ _ _ different := if_neg different

/-- A setting in which hashing a password changes nothing. -/
def sampleSetting (file : PluginSection) : AuthSetting (Text × JwtClaims) where
  library := shownLibrary
  verifyPassword password hash := password = hash
  file

def sampleRandomness (secret : Text) : Randomness where
  secret
  hashPassword password _ := some password

def sampleStart (first second third : Text) : StartCall where
  created := sampleRandomness first
  firstLoad := sampleRandomness second
  secondLoad := sampleRandomness third

def sampleLogin : AuthEvent (Text × JwtClaims) :=
  .login { now := 0, instant := 0, token := .ok none } (.ok ⟨defaultUsername, defaultPassword⟩)

/-- A plugin section that has a secret, and nothing else. -/
def sampleSection : PluginSection := fun key =>
  if key = jwtSecretConfigKey then some ("s" : Text) else none

/-- With a secret in the file, a restart keeps what a login issued. -/
theorem acceptsRight_example : ∃ start final,
    authStart (sampleSetting sampleSection) {} (sampleStart "a" "b" "c") = some start ∧
      Run.run (authStep (sampleSetting sampleSection)) start
        [sampleLogin, .restart (sampleStart "d" "e" "f")] = some final ∧
      Always (authStep (sampleSetting sampleSection)) (AcceptsRight (sampleSetting sampleSection))
        start [sampleLogin, .restart (sampleStart "d" "e" "f")] := by
  refine ⟨_, _, rfl, rfl,
    (@acceptsRight_iff _ _ {} (sampleStart "a" "b" "c") _ _ _ rfl rfl).mpr ?_⟩
  exact throughout_cons rfl trivial (throughout_cons rfl (Or.inr (Or.inl rfl)) trivial)

/-- Without one, a restart rejects a token that is not expired. -/
theorem not_acceptsRight :
    ¬ ∀ (setting : AuthSetting (Text × JwtClaims)) (database : Database) (call : StartCall)
      (start final : AuthRun (Text × JwtClaims)) (events : List (AuthEvent (Text × JwtClaims))),
      authStart setting database call = some start →
      Run.run (authStep setting) start events = some final → AcceptsRight setting final := by
  intro all
  have accepts := all (sampleSetting fun _ => none) {} (sampleStart "a" "b" "c") _ _
    [sampleLogin, .restart (sampleStart "d" "e" "f")] rfl rfl
  have accepted := (accepts ("c", ⟨defaultUsername, [], defaultTokenExpiredTime⟩) 0
    fun _ _ _ _ _ => ⟨_, List.mem_singleton_self _, by decide⟩).mpr
      ⟨_, List.mem_singleton_self _, by decide, by decide, rfl⟩
  revert accepted
  decide

end SmartDnsPlusUi
