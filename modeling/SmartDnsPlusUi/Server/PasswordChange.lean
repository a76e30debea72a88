import SmartDnsPlusUi.Server.Auth

/-!
# Changing the password

The new hash is in use before it is stored, and both are before the new secret is drawn
and stored, so a statement that fails leaves a part of the change behind.
-/

namespace SmartDnsPlusUi

variable {Token : Type}

/-- The hash that the request stores, if it is not refused before. -/
def hashToStore (verifyPassword : Text → Text → Bool) (call : ChangeCall Token)
    (server : HttpServer) : Option Text :=
  match call.token, call.body with
  | .ok (some _), .ok (oldPassword, password) =>
      if (server.loginAttemptsCheck call.instant).2 = true ∧
          verifyPassword oldPassword server.conf.password = true then
        call.random.hashPassword password 10000
      else none
  | _, _ => none

/-- Password and secret are what they were, in memory and in the database. -/
structure KeepsCredentials (server changed : HttpServer) : Prop where
  password : changed.conf.password = server.conf.password
  secret : changed.conf.jwtSecret = server.conf.jwtSecret
  storedPassword :
    getConfig changed.conn passwordConfigKey = getConfig server.conn passwordConfigKey
  storedSecret :
    getConfig changed.conn jwtSecretConfigKey = getConfig server.conn jwtSecretConfigKey

/-- Memory and database have both values. -/
structure UsesCredentials (hashedPassword newSecret : Text) (changed : HttpServer) : Prop where
  password : changed.conf.password = hashedPassword
  secret : changed.conf.jwtSecret = newSecret
  storedPassword : getConfig changed.conn passwordConfigKey = some hashedPassword
  storedSecret : getConfig changed.conn jwtSecretConfigKey = some newSecret

/-- An error leaves everything as it was; success is the change of both values. -/
structure AllOrNothing (verifyPassword : Text → Text → Bool) (call : ChangeCall Token)
    (server : HttpServer) (outcome : HttpServer × Response Token) : Prop where
  refused : outcome.2.status ≠ 204 → KeepsCredentials server outcome.1
  changed : outcome.2.status = 204 → ∃ hashedPassword,
    hashToStore verifyPassword call server = some hashedPassword ∧
      UsesCredentials hashedPassword call.random.secret outcome.1

/-- No statement fails, or the values stored or used before it are the old ones. -/
inductive StoresTogether (call : ChangeCall Token) (server : HttpServer) (hashedPassword : Text) :
    Prop where
  | both (opened : server.conn.isSome) (password : call.passwordFault = false)
      (secret : call.secretFault = false)
  | neither (failed : server.conn = none ∨ call.passwordFault = true)
      (used : hashedPassword = server.conf.password)
  | one (failed : call.secretFault = true) (used : hashedPassword = server.conf.password)
      (stored : getConfig server.conn passwordConfigKey = some hashedPassword)
      (secret : call.random.secret = server.conf.jwtSecret)

theorem setConfig_failed {fault : Bool} {conn : Option Database} (key value : Text)
    (failed : conn = none ∨ fault = true) : setConfig fault key value conn = (conn, false) := by
  cases conn with
  | none => rfl
  | some database =>
      rw [failed.resolve_left nofun]
      rfl

theorem setConfig_stored {fault : Bool} {conn : Option Database} (key value : Text)
    (opened : conn.isSome) (works : fault = false) :
    (setConfig fault key value conn).2 = true := by
  obtain ⟨database, rfl⟩ := Option.isSome_iff_exists.mp opened
  rw [works]
  rfl

theorem passwordConfigKey_ne : passwordConfigKey ≠ jwtSecretConfigKey := by decide

/-! ### The last part of the handler -/

/-- What `storePassword` can do. -/
inductive Stored (call : ChangeCall Token) (server : HttpServer) (hashedPassword : Text) :
    HttpServer × Response Token → Prop where
  | neither (failed : server.conn = none ∨ call.passwordFault = true) :
      Stored call server hashedPassword
        ({ server with conf := { server.conf with password := hashedPassword } },
          .error 500 "database error")
  | one (conn : Option Database) (opened : server.conn.isSome)
      (passwordWorks : call.passwordFault = false) (failed : call.secretFault = true)
      (password : getConfig conn passwordConfigKey = some hashedPassword)
      (secret : getConfig conn jwtSecretConfigKey = getConfig server.conn jwtSecretConfigKey) :
      Stored call server hashedPassword
        ({ server with conf := { server.conf with password := hashedPassword,
                                                  jwtSecret := call.random.secret }, conn },
          .error 500 "database error")
  | both (conn : Option Database) (opened : server.conn.isSome)
      (passwordWorks : call.passwordFault = false) (secretWorks : call.secretFault = false)
      (password : getConfig conn passwordConfigKey = some hashedPassword)
      (secret : getConfig conn jwtSecretConfigKey = some call.random.secret) :
      Stored call server hashedPassword
        (HttpServer.loginAttemptsReset call.instant
          { server with conf := { server.conf with password := hashedPassword,
                                                    jwtSecret := call.random.secret }, conn },
          ⟨204, .empty⟩)

theorem stored_storePassword (call : ChangeCall Token) (server : HttpServer)
    (hashedPassword : Text) :
    Stored call server hashedPassword (storePassword call hashedPassword server) := by
  unfold storePassword
  dsimp only
  by_cases failed : server.conn = none ∨ call.passwordFault = true
  · simp only [setConfig_failed passwordConfigKey hashedPassword failed]
    exact .neither failed
  · rw [not_or, Bool.not_eq_true, ← Ne, Option.ne_none_iff_isSome] at failed
    have passwordStored := setConfig_stored passwordConfigKey hashedPassword failed.1 failed.2
    have password := getConfig_setConfig passwordStored
    have opened := isSome_setConfig passwordStored
    have secretKept := @getConfig_setConfig_ne call.passwordFault _ hashedPassword _
      passwordConfigKey_ne.symm server.conn
    rcases storedPassword : setConfig call.passwordFault passwordConfigKey hashedPassword
      server.conn with ⟨conn, worked⟩
    rw [storedPassword] at passwordStored password opened secretKept
    subst passwordStored
    dsimp only
    by_cases secretFails : call.secretFault = true
    · simp only [setConfig_failed jwtSecretConfigKey call.random.secret (.inr secretFails)]
      exact .one conn failed.1 failed.2 secretFails password secretKept
    · rw [Bool.not_eq_true] at secretFails
      have secretStored := setConfig_stored jwtSecretConfigKey call.random.secret opened secretFails
      have secret := getConfig_setConfig secretStored
      have passwordKept := @getConfig_setConfig_ne call.secretFault _ call.random.secret _
        passwordConfigKey_ne conn
      rcases storedSecret : setConfig call.secretFault jwtSecretConfigKey call.random.secret
        conn with ⟨second, worked⟩
      rw [storedSecret] at secretStored secret passwordKept
      subst secretStored
      exact .both second failed.1 failed.2 secretFails (passwordKept.trans password) secret

/-! ### The whole handler -/

/-- What `api_auth_change_password` can do: refuse the request, or reach its last part. -/
inductive Handled (verifyPassword : Text → Text → Bool) (call : ChangeCall Token)
    (server : HttpServer) : HttpServer × Response Token → Prop where
  | refused (checked : HttpServer) (status : Nat) (message : Text) (answer : status ≠ 204)
      (nothing : hashToStore verifyPassword call server = none)
      (conf : checked.conf = server.conf) (conn : checked.conn = server.conn) :
      Handled verifyPassword call server (checked, .error status message)
  | reached (checked : HttpServer) (hashedPassword : Text)
      (hashed : hashToStore verifyPassword call server = some hashedPassword)
      (conf : checked.conf = server.conf) (conn : checked.conn = server.conn) :
      Handled verifyPassword call server (storePassword call hashedPassword checked)

theorem hashToStore_of_entered {verifyPassword : Text → Text → Bool} {call : ChangeCall Token}
    {token : Token} {oldPassword password : Text} (authenticated : call.token = .ok (some token))
    (entered : call.body = .ok (oldPassword, password)) (server : HttpServer) :
    hashToStore verifyPassword call server =
      if (server.loginAttemptsCheck call.instant).2 = true ∧
          verifyPassword oldPassword server.conf.password = true then
        call.random.hashPassword password 10000
      else none := by
  rw [hashToStore, authenticated, entered]

theorem handled_apiAuthChangePassword (verifyPassword : Text → Text → Bool)
    (call : ChangeCall Token) (server : HttpServer) :
    Handled verifyPassword call server (apiAuthChangePassword verifyPassword call server) := by
  have conf := HttpServer.conf_loginAttemptsCheck call.instant server
  have conn := HttpServer.conn_loginAttemptsCheck call.instant server
  unfold apiAuthChangePassword
  cases header : call.token with
  | error message => exact .refused _ _ _ (by decide) (by rw [hashToStore, header]) rfl rfl
  | ok token =>
      cases token with
      | none => exact .refused _ _ _ (by decide) (by rw [hashToStore, header]) rfl rfl
      | some token =>
          cases body : call.body with
          | error message =>
              exact .refused _ _ _ (by decide) (by rw [hashToStore, header, body]) rfl rfl
          | ok passwords =>
              have hash := @hashToStore_of_entered _ verifyPassword _ _ _ _ header body server
              rcases outcome : server.loginAttemptsCheck call.instant with ⟨checked, allowed⟩
              rw [outcome] at conf conn hash
              dsimp only at hash ⊢
              cases allowed with
              | false => exact .refused _ _ _ (by decide) (by simpa using hash) conf conn
              | true =>
                  dsimp only at conf ⊢
                  rw [conf]
                  by_cases matching : verifyPassword passwords.1 server.conf.password = true
                  · rw [if_neg (not_not.mpr matching)]
                    rw [if_pos ⟨rfl, matching⟩] at hash
                    rcases hashed : call.random.hashPassword passwords.2 10000 with
                      _ | hashedPassword
                    · exact .refused _ _ _ (by decide) (hash.trans hashed) conf conn
                    · exact .reached _ _ (hash.trans hashed) conf conn
                  · rw [if_pos matching]
                    rw [if_neg fun both => matching both.2] at hash
                    exact .refused _ _ _ (by decide) hash conf conn

theorem allOrNothing_of_stored {verifyPassword : Text → Text → Bool} {call : ChangeCall Token}
    {server checked : HttpServer} {hashedPassword : Text} {outcome : HttpServer × Response Token}
    (hashed : hashToStore verifyPassword call server = some hashedPassword)
    (conf : checked.conf = server.conf) (conn : checked.conn = server.conn)
    (stored : Stored call checked hashedPassword outcome) :
    AllOrNothing verifyPassword call server outcome ↔
      StoresTogether call server hashedPassword := by
  have refused : (500 : Nat) ≠ 204 := by decide
  cases stored with
  | neither failed =>
      rw [conn] at failed
      refine ⟨fun all => .neither failed (all.refused refused).password, fun together => ?_⟩
      have used : hashedPassword = server.conf.password := by
        cases together with
        | both opened password secret =>
            rcases failed with closed | fails
            · simp [closed] at opened
            · simp [password] at fails
        | neither failed used => exact used
        | one failed used stored secret => exact used
      refine ⟨fun _ => ⟨used, by rw [conf], by rw [conn], by rw [conn]⟩, fun succeeds => ?_⟩
      exact absurd succeeds refused
  | one second opened passwordWorks failed password secret =>
      rw [conn] at opened secret
      constructor
      · intro all
        have kept := all.refused refused
        exact .one failed kept.password (kept.storedPassword.symm.trans password) kept.secret
      · intro together
        refine ⟨fun _ => ?_, fun succeeds => absurd succeeds refused⟩
        cases together with
        | both opened password secretWorks => simp [failed] at secretWorks
        | neither failed used =>
            rcases failed with closed | fails
            · simp [closed] at opened
            · simp [passwordWorks] at fails
        | one failed used stored secretUsed =>
            exact ⟨used, secretUsed, password.trans stored.symm, secret⟩
  | both second opened passwordWorks secretWorks password secret =>
      rw [conn] at opened
      refine ⟨fun _ => .both opened passwordWorks secretWorks, fun _ => ⟨fun refused => ?_,
        fun _ => ⟨hashedPassword, hashed, rfl, rfl, password, secret⟩⟩⟩
      exact absurd rfl refused

/-- Exactly when the change of the password is all or nothing. -/
theorem allOrNothing_iff (verifyPassword : Text → Text → Bool) (call : ChangeCall Token)
    (server : HttpServer) :
    AllOrNothing verifyPassword call server (apiAuthChangePassword verifyPassword call server) ↔
      ∀ hashedPassword, hashToStore verifyPassword call server = some hashedPassword →
        StoresTogether call server hashedPassword := by
  have handled := handled_apiAuthChangePassword verifyPassword call server
  generalize apiAuthChangePassword verifyPassword call server = outcome at handled ⊢
  cases handled with
  | refused checked status message answer nothing conf conn =>
      refine ⟨fun _ hashedPassword hashed => ?_, fun _ => ⟨fun _ => ?_, fun succeeds => ?_⟩⟩
      · rw [nothing] at hashed
        cases hashed
      · exact ⟨by rw [conf], by rw [conf], by rw [conn], by rw [conn]⟩
      · exact absurd succeeds answer
  | reached checked hashedPassword hashed conf conn =>
      have stored := stored_storePassword call checked hashedPassword
      refine (allOrNothing_of_stored hashed conf conn stored).trans
        ⟨fun together other found => ?_, fun all => all hashedPassword hashed⟩
      rw [hashed, Option.some.injEq] at found
      rwa [← found]

/-- The new hash cannot be stored, and the old password no longer works. -/
theorem not_allOrNothing : ¬ ∀ (verifyPassword : Text → Text → Bool) (call : ChangeCall Unit)
    (server : HttpServer),
    AllOrNothing verifyPassword call server (apiAuthChangePassword verifyPassword call server) := by
  intro all
  have kept := (all (fun password hashed => decide (hashed = "#" ++ password))
    { now := 0, instant := 0, token := .ok (some ()), body := .ok ("password", "secret")
      random := { secret := "new", hashPassword := fun password _ => some ("#" ++ password) }
      passwordFault := true }
    { conf :=
        { httpIp := "http://0.0.0.0:6080", httpRoot := defaultWwwRoot, username := "admin"
          password := "#password", jwtSecret := "old", tokenExpiredTime := 600
          enableCors := false, enableTerminal := false, configFile := [], rulesDir := [] }
      loginAttempts := (0, 0), conn := some {} }).refused
  exact absurd (kept (by decide)).password (by decide)

end SmartDnsPlusUi
