import SmartDnsPlusUi.Server.HttpConfig

/-!
# Tokens and passwords

A login or a refresh issues a token: claims with an expiration time, signed with
the secret of the configuration.  Changing the password replaces the secret.
-/

namespace SmartDnsPlusUi

open Text

/-! ### Tokens -/

structure JwtClaims where
  user : Text
  ip : Text
  exp : Nat
  deriving DecidableEq

/-- The JWT library with its default validation: a token that was signed with a
secret is decoded with the same secret, as long as it is not expired. -/
structure JwtLibrary (Token : Type) where
  leeway : Nat
  encode : Text → JwtClaims → Token
  decode : Text → Nat → Token → Option JwtClaims
  decode_encode : ∀ secret claims now,
    decode secret now (encode secret claims) =
      if now ≤ claims.exp + leeway then some claims else none
  decode_other : ∀ secret other claims now, secret ≠ other →
    decode other now (encode secret claims) = none

structure Jwt where
  user : Text
  secret : Text
  ip : Text
  expiredIn : Nat

structure TokenInfo (Token : Type) where
  token : Token
  expire : Text

variable {Token : Type}

namespace Jwt

def encodeToken (library : JwtLibrary Token) (now : Nat) (jwt : Jwt) : TokenInfo Token where
  token := library.encode jwt.secret
    { user := jwt.user, ip := jwt.ip, exp := now + jwt.expiredIn }
  expire := showNat jwt.expiredIn

def decodeToken (library : JwtLibrary Token) (now : Nat) (token : Token) (jwt : Jwt) :
    Option JwtClaims :=
  library.decode jwt.secret now token

def isTokenValid (library : JwtLibrary Token) (now : Nat) (token : Token) (jwt : Jwt) : Bool :=
  match jwt.decodeToken library now token with
  | none => false
  | some claims => claims.user = jwt.user && claims.ip = jwt.ip

def refreshToken (library : JwtLibrary Token) (now : Nat) (token : Token) (jwt : Jwt) :
    Option (TokenInfo Token) :=
  if jwt.isTokenValid library now token then some (jwt.encodeToken library now) else none

end Jwt

/-! ### The HTTP server -/

/-- The HTTP server; times of the login attempts are in milliseconds. -/
structure HttpServer where
  conf : HttpServerConfig
  loginAttempts : Nat × Nat
  conn : Option Database

inductive ResponseBody (Token : Type) where
  | empty
  | error (message : Text)
  | token (info : TokenInfo Token)

structure Response (Token : Type) where
  status : Nat
  body : ResponseBody Token

def Response.error (status : Nat) (message : Text) : Response Token := ⟨status, .error message⟩

/-- What a request meets: two clocks, and the token that `get_token_from_header`
finds in it. -/
structure RequestCall (Token : Type) where
  now : Nat
  instant : Nat
  token : Except Text (Option Token)

namespace HttpServer

/-- The signer of the configuration for a user. -/
def jwtFor (user : Text) (server : HttpServer) : Jwt where
  user := user
  secret := server.conf.jwtSecret
  ip := []
  expiredIn := server.conf.tokenExpiredTime

/-- `auth_token_is_valid`. -/
def authTokenIsValid (library : JwtLibrary Token) (now : Nat) (header : Except Text (Option Token))
    (server : HttpServer) : Except Text Bool :=
  header.map fun token =>
    match token with
    | none => false
    | some token => (server.jwtFor server.conf.username).isTokenValid library now token

/-- `login_attempts_check`. -/
def loginAttemptsCheck (instant : Nat) (server : HttpServer) : HttpServer × Bool :=
  let since := if server.loginAttempts.1 = 0 then instant else server.loginAttempts.2
  let count := server.loginAttempts.1 + 1
  if 5 < count then
    let seconds := (instant - since) / 1000
    if seconds < 60 then
      ({ server with loginAttempts := (count, if seconds < 30 then instant else since) }, false)
    else ({ server with loginAttempts := (0, instant) }, true)
  else ({ server with loginAttempts := (count, since) }, true)

@[simp] theorem conf_loginAttemptsCheck (instant : Nat) (server : HttpServer) :
    (server.loginAttemptsCheck instant).1.conf = server.conf := by
  unfold loginAttemptsCheck
  dsimp only
  split_ifs <;> rfl

@[simp] theorem conn_loginAttemptsCheck (instant : Nat) (server : HttpServer) :
    (server.loginAttemptsCheck instant).1.conn = server.conn := by
  unfold loginAttemptsCheck
  dsimp only
  split_ifs <;> rfl

/-- `login_attempts_reset`. -/
def loginAttemptsReset (instant : Nat) (server : HttpServer) : HttpServer :=
  { server with loginAttempts := (0, instant) }

end HttpServer

/-! ### The handlers -/

/-- A route that needs authentication is handled only for a valid token. -/
def authorized (library : JwtLibrary Token) (call : RequestCall Token) (server : HttpServer)
    (handled : HttpServer × Response Token) : HttpServer × Response Token :=
  match server.authTokenIsValid library call.now call.token with
  | .error message => (server, .error 400 message)
  | .ok false => (server, .error 401 "Please login.")
  | .ok true => handled

structure AuthUser where
  username : Text
  password : Text

/-- `api_auth_login`, with the user that was parsed from the body. -/
def apiAuthLogin (library : JwtLibrary Token) (verifyPassword : Text → Text → Bool)
    (call : RequestCall Token) (body : Except Text AuthUser) (server : HttpServer) :
    HttpServer × Response Token :=
  match body with
  | .error message => (server, .error 400 message)
  | .ok userinfo =>
      match server.loginAttemptsCheck call.instant with
      | (server, false) => (server, .error 403 "Too many login attempts, please try again later.")
      | (server, true) =>
          if userinfo.username ≠ server.conf.username ∨
              verifyPassword userinfo.password server.conf.password ≠ true then
            (server, .error 401 "Incorrect username or password.")
          else
            let server := server.loginAttemptsReset call.instant
            (server, ⟨200, .token ((server.jwtFor userinfo.username).encodeToken library call.now)⟩)

/-- `api_auth_refresh`. -/
def apiAuthRefresh (library : JwtLibrary Token) (call : RequestCall Token) (server : HttpServer) :
    HttpServer × Response Token :=
  let unauthResponse := (server, .error 401 "Incorrect username or password.")
  match call.token with
  | .error message => (server, .error 500 (("Error: " : Text) ++ message))
  | .ok none => unauthResponse
  | .ok (some token) =>
      let jwt := server.jwtFor server.conf.username
      match jwt.decodeToken library call.now token with
      | none => unauthResponse
      | some _ =>
          match jwt.refreshToken library call.now token with
          | none => unauthResponse
          | some tokenNew => (server, ⟨200, .token tokenNew⟩)

/-- What a change of the password meets: the parsed body, the randomness, and
whether the statements that store the two values fail. -/
structure ChangeCall (Token : Type) extends RequestCall Token where
  body : Except Text (Text × Text)
  random : Randomness
  passwordFault : Bool := false
  secretFault : Bool := false

/-- The last part of `api_auth_change_password`: the hash and a new secret are used and
stored, one after the other. -/
def storePassword (call : ChangeCall Token) (hashedPassword : Text) (server : HttpServer) :
    HttpServer × Response Token :=
  let server := { server with conf := { server.conf with password := hashedPassword } }
  match setConfig call.passwordFault passwordConfigKey hashedPassword server.conn with
  | (conn, false) => ({ server with conn }, .error 500 "database error")
  | (conn, true) =>
      let newJwtSecret := call.random.secret
      let server := { server with conf := { server.conf with jwtSecret := newJwtSecret }, conn }
      match setConfig call.secretFault jwtSecretConfigKey newJwtSecret conn with
      | (conn, false) => ({ server with conn }, .error 500 "database error")
      | (conn, true) =>
          (HttpServer.loginAttemptsReset call.instant { server with conn }, ⟨204, .empty⟩)

/-- `api_auth_change_password`. -/
def apiAuthChangePassword (verifyPassword : Text → Text → Bool) (call : ChangeCall Token)
    (server : HttpServer) : HttpServer × Response Token :=
  match call.token with
  | .error message => (server, .error 500 (("Error: " : Text) ++ message))
  | .ok none => (server, .error 401 "Incorrect username or password.")
  | .ok (some _) =>
      match call.body with
      | .error message => (server, .error 400 message)
      | .ok (oldPassword, password) =>
          match server.loginAttemptsCheck call.instant with
          | (server, false) =>
              (server, .error 403 "Too many login attempts, please try again later.")
          | (server, true) =>
              if verifyPassword oldPassword server.conf.password ≠ true then
                (server, .error 403 "Incorrect password.")
              else
                match call.random.hashPassword password 10000 with
                | none => (server, .error 500 "password hash error")
                | some hashedPassword => storePassword call hashedPassword server

/-! ### What the handlers do -/

/-- The configuration and the database stay, and a token in the response is signed for
the user of the configuration. -/
structure Answers (library : JwtLibrary Token) (now : Nat) (server : HttpServer)
    (outcome : HttpServer × Response Token) : Prop where
  conf : outcome.1.conf = server.conf
  conn : outcome.1.conn = server.conn
  signed : ∀ info, outcome.2.body = .token info →
    info.token = library.encode server.conf.jwtSecret
      { user := server.conf.username, ip := [], exp := now + server.conf.tokenExpiredTime }

theorem answers_error (library : JwtLibrary Token) (now : Nat) (server : HttpServer)
    (status : Nat) (message : Text) :
    Answers library now server (server, .error status message) :=
  ⟨rfl, rfl, nofun⟩

theorem answers_apiAuthLogin (library : JwtLibrary Token) (verifyPassword : Text → Text → Bool)
    (call : RequestCall Token) (body : Except Text AuthUser) (server : HttpServer) :
    Answers library call.now server
      (apiAuthLogin library verifyPassword call body server) := by
  unfold apiAuthLogin
  cases body with
  | error message => exact answers_error _ _ _ _ _
  | ok userinfo =>
      have conf := HttpServer.conf_loginAttemptsCheck call.instant server
      have conn := HttpServer.conn_loginAttemptsCheck call.instant server
      rcases outcome : server.loginAttemptsCheck call.instant with ⟨checked, allowed⟩
      rw [outcome] at conf conn
      cases allowed with
      | false =>
          exact ⟨conf, conn, nofun⟩
      | true =>
          dsimp only at conf conn ⊢
          split_ifs with refused
          · exact ⟨conf, conn, nofun⟩
          · refine ⟨conf, conn, fun info body => ?_⟩
            cases body
            rw [not_or, not_not, conf] at refused
            unfold Jwt.encodeToken HttpServer.jwtFor HttpServer.loginAttemptsReset
            rw [refused.1, conf]

theorem answers_apiAuthRefresh (library : JwtLibrary Token) (call : RequestCall Token)
    (server : HttpServer) :
    Answers library call.now server (apiAuthRefresh library call server) := by
  unfold apiAuthRefresh
  split
  · exact answers_error _ _ _ _ _
  · exact answers_error _ _ _ _ _
  · dsimp only
    split
    · exact answers_error _ _ _ _ _
    · unfold Jwt.refreshToken
      split_ifs with valid
      · refine ⟨rfl, rfl, fun info body => ?_⟩
        cases body
        rfl
      · exact answers_error _ _ _ _ _

theorem answers_authorized {library : JwtLibrary Token} {call : RequestCall Token}
    {server : HttpServer} {handled : HttpServer × Response Token}
    (answers : Answers library call.now server handled) :
    Answers library call.now server (authorized library call server handled) := by
  unfold authorized
  split
  · exact answers_error _ _ _ _ _
  · exact answers_error _ _ _ _ _
  · exact answers

/-- The password was changed: the new secret is used and stored. -/
structure Changes (call : ChangeCall Token) (server changed : HttpServer) : Prop where
  username : changed.conf.username = server.conf.username
  secret : changed.conf.jwtSecret = call.random.secret
  opened : changed.conn.isSome
  stored : getConfig changed.conn jwtSecretConfigKey = some call.random.secret
  others : ∀ key, key ≠ passwordConfigKey → key ≠ jwtSecretConfigKey →
    getConfig changed.conn key = getConfig server.conn key

theorem changes_of_error {call : ChangeCall Token} {server changed other : HttpServer}
    {status : Nat} {message : Text} (refused : status ≠ 204)
    (succeeds : (other, (Response.error status message : Response Token)).2.status = 204) :
    Changes call server changed :=
  absurd succeeds refused

theorem changes_storePassword {call : ChangeCall Token} {hashedPassword : Text}
    {server : HttpServer} {outcome : HttpServer × Response Token}
    (result : storePassword call hashedPassword server = outcome)
    (succeeds : outcome.2.status = 204) : Changes call server outcome.1 := by
  unfold storePassword at result
  dsimp only at result
  split at result
  · subst result
    exact changes_of_error (by decide) succeeds
  · rename_i first storedFirst
    split at result
    · subst result
      exact changes_of_error (by decide) succeeds
    · rename_i second storedSecond
      subst result
      have stored := congrArg Prod.snd storedSecond
      have passwordKept (key : Text) (different : key ≠ passwordConfigKey) :=
        @getConfig_setConfig_ne call.passwordFault _ hashedPassword _ different server.conn
      have secretKept (key : Text) (different : key ≠ jwtSecretConfigKey) :=
        @getConfig_setConfig_ne call.secretFault _ call.random.secret _ different first
      rw [storedFirst] at passwordKept
      rw [storedSecond] at secretKept
      have secret := getConfig_setConfig stored
      have opened := isSome_setConfig stored
      rw [storedSecond] at secret opened
      exact ⟨rfl, rfl, opened, secret, fun key notPassword notSecret =>
        (secretKept key notSecret).trans (passwordKept key notPassword)⟩

theorem changes_apiAuthChangePassword {verifyPassword : Text → Text → Bool}
    {call : ChangeCall Token} {server : HttpServer} {outcome : HttpServer × Response Token}
    (result : apiAuthChangePassword verifyPassword call server = outcome)
    (succeeds : outcome.2.status = 204) : Changes call server outcome.1 := by
  unfold apiAuthChangePassword at result
  have conf := HttpServer.conf_loginAttemptsCheck call.instant server
  have conn := HttpServer.conn_loginAttemptsCheck call.instant server
  split at result
  · subst result
    exact changes_of_error (by decide) succeeds
  · subst result
    exact changes_of_error (by decide) succeeds
  · split at result
    · subst result
      exact changes_of_error (by decide) succeeds
    · split at result
      · subst result
        exact changes_of_error (by decide) succeeds
      · rename_i checked outcomeOfCheck
        rw [outcomeOfCheck] at conf conn
        split_ifs at result
        · subst result
          exact changes_of_error (by decide) succeeds
        · split at result
          · subst result
            exact changes_of_error (by decide) succeeds
          · obtain ⟨username, secret, opened, stored, others⟩ :=
              changes_storePassword result succeeds
            rw [conf] at username
            rw [conn] at others
            exact ⟨username, secret, opened, stored, others⟩

theorem changes_authorized {library : JwtLibrary Token} {verifyPassword : Text → Text → Bool}
    {call : ChangeCall Token} {server : HttpServer} {outcome : HttpServer × Response Token}
    (result : authorized library call.toRequestCall server
      (apiAuthChangePassword verifyPassword call server) = outcome)
    (succeeds : outcome.2.status = 204) : Changes call server outcome.1 := by
  unfold authorized at result
  split at result
  · subst result
    exact changes_of_error (by decide) succeeds
  · subst result
    exact changes_of_error (by decide) succeeds
  · exact changes_apiAuthChangePassword result succeeds

end SmartDnsPlusUi
