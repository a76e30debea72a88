import SmartDnsPlusUi.Server.ApiMsgRoundTrip
import SmartDnsPlusUi.Server.ApiTable
import SmartDnsPlusUi.Server.Auth
import SmartDnsPlusUi.Server.StaticFiles

/-!
# The gate of the API

A request is for a page or for the API.  A route of the API that needs authentication is only
handled for a valid token, which stands in the `Authorization` header or in a cookie.  Without
one, nothing behind the gate is read or written, in no run of requests.
-/

namespace SmartDnsPlusUi

open Api Json Text

/-! ### Requests and responses -/

/-- The method of a request; there are routes for some methods only. -/
inductive RequestMethod where
  | options
  | routed (method : HttpMethod)
  | other (name : Text)
  deriving DecidableEq

structure HttpError where
  code : Nat
  msg : Text

/-- A request with the first value of each header that is read.  The body may not arrive, or
not be a text. -/
structure HttpRequest where
  method : RequestMethod
  path : Text
  authorization : Option Text := none
  cookie : Option Text := none
  origin : Option Text := none
  ifNoneMatch : Option Text := none
  body : Except HttpError Text := .ok []

structure HttpResponse where
  status : Nat
  headers : List (Text × Text) := []
  body : Text := []
  deriving DecidableEq

namespace HttpResponse

/-- Insert a header, or replace the value that it has. -/
def insert (name value : Text) (response : HttpResponse) : HttpResponse :=
  { response with headers := (name, value) :: response.headers.filter (·.1 ≠ name) }

def insertMissing (name value : Text) (response : HttpResponse) : HttpResponse :=
  if response.headers.any (·.1 = name) then response else response.insert name value

end HttpResponse

structure FileMetadata where
  len : Nat
  modified : Option Nat

/-- The files that pages are read from, as they are when a page is asked for.  The bytes of a
file stand as characters; it was modified some seconds after the epoch. -/
structure WebFiles extends FileSystem where
  metadata : Text → Option FileMetadata
  read : Text → Option Text

/-- What the server uses and does not define: tokens, JSON, the encoding of cookies, hashed
passwords, URLs, the versions, and the pages that are compiled in. -/
structure WebLibrary where
  jwt : JwtLibrary Text
  json : Library
  urlEncode : Text → Text
  urlDecode : Text → Option Text
  verifyPassword : Text → Text → Bool
  isHttpsServer : Text → Bool
  smartdnsVersion : Text
  smartdnsUiVersion : Text
  indexHtml : Text
  appJs : Text
  styleCss : Text

/-- A request, and the times and the files that it meets. -/
structure HttpCall where
  request : HttpRequest
  now : Nat
  instant : Nat
  files : WebFiles

variable (library : WebLibrary)

/-- `api_msg_error`. -/
def apiMsgError (msg : Text) : Text :=
  library.json.toString (.ofMembers [("error", .string msg)])

/-- `api_msg_auth_token`. -/
def apiMsgAuthToken (token expired : Text) : Text :=
  library.json.toString (.ofMembers
    [("token", .string token), ("token_type", .string "Bearer"), ("expires_in", .string expired)])

/-- `api_msg_gen_version`. -/
def apiMsgGenVersion (smartdnsVersion uiVersion : Text) : Text :=
  library.json.toString (.ofMembers
    [("smartdns", .string smartdnsVersion), ("smartdns_ui", .string uiVersion)])

/-- `api_msg_parse_auth`. -/
def apiMsgParseAuth (data : Text) : Except Text AuthUser := do
  let v ← library.json.fromStr data
  match (v.get "username").asStr, (v.get "password").asStr with
  | none, _ => .error "username not found"
  | some _, none => .error "password not found"
  | some username, some password => .ok { username, password }

/-- `HttpError::to_response`. -/
def HttpError.toResponse (error : HttpError) : HttpResponse where
  status := error.code
  headers := [("Content-Type", "application/json")]
  body := apiMsgError library error.msg

/-- `response_error`. -/
def responseError (code : Nat) (msg : Text) : HttpResponse where
  status := code
  headers := [("Content-Type", "application/json")]
  body := apiMsgError library msg

/-- `response_build`. -/
def responseBuild (code : Nat) (body : Text) : HttpResponse where
  status := code
  headers := [("Content-Type", "application/json")]
  body := body

/-! ### The token of a request -/

/-- `HeaderValue::to_str`: a value of visible ASCII characters. -/
def headerText (value : Text) : Option Text :=
  if value.all fun c => 32 ≤ c.toNat && c.toNat < 127 || c = '\t' then some value else none

/-- The cookie `token`. -/
def tokenCookie (cookie : Text) : Option Text :=
  ((cookie.splitOn ';').find? fun c => ("token=" : Text).isPrefixOf (trim c)).map fun c =>
    (trim c).drop ("token=" : Text).length

/-- `get_token_from_header`. -/
def getTokenFromHeader (request : HttpRequest) : Except Text (Option Text) :=
  let token := match request.authorization with
    | some value => headerText value
    | none => ((request.cookie.bind headerText).bind tokenCookie).bind library.urlDecode
  match token with
  | none => .ok none
  | some token =>
      if ("Bearer" : Text).isPrefixOf token then
        .ok (some (trim (token.drop ("Bearer" : Text).length)))
      else .error "Invalid authorization type"

/-! ### The handlers before the gate -/

def restApiPath : Text := "/api"

/-- The response to a login, with the cookie for a token that was issued. -/
def loginResponse (conf : HttpServerConfig) (response : Response Text) : HttpResponse :=
  match response.body with
  | .empty => { status := response.status }
  | .error message => responseError library response.status message
  | .token info =>
      let cookie := ("token=" : Text) ++ library.urlEncode (("Bearer " : Text) ++ info.token) ++
        ("; HttpOnly; Max-Age=" : Text) ++ info.expire ++ ("; Path=" : Text) ++ restApiPath ++
        (if library.isHttpsServer conf.httpIp && conf.enableCors then
          ("; SameSite=None; Secure" : Text) else [])
      (responseBuild response.status (apiMsgAuthToken library info.token info.expire)).insert
        "Set-Cookie" cookie

/-- `api_auth_login`, from the request to the response. -/
def handleLogin (call : HttpCall) (server : HttpServer) :
    HttpServer × Except HttpError HttpResponse :=
  match call.request.body with
  | .error error => (server, .error error)
  | .ok wholeBody =>
      let outcome := apiAuthLogin library.jwt library.verifyPassword
        ⟨call.now, call.instant, getTokenFromHeader library call.request⟩
        (apiMsgParseAuth library wholeBody) server
      (outcome.1, .ok (loginResponse library server.conf outcome.2))

/-- `api_auth_logout`. -/
def handleLogout : HttpResponse :=
  HttpResponse.insert "Set-Cookie"
    (("token=none; HttpOnly; Max-Age=1; Path=" : Text) ++ restApiPath) { status := 204 }

/-- `api_server_version`. -/
def handleVersion : HttpResponse :=
  responseBuild 200 (apiMsgGenVersion library library.smartdnsVersion library.smartdnsUiVersion)

/-! ### Pages -/

def mimeMap : List (Text × Text) := [
  ("htm", "text/html"),
  ("html", "text/html"),
  ("js", "text/javascript"),
  ("css", "text/css"),
  ("txt", "text/plain"),
  ("conf", "text/plain"),
  ("xml", "text/xml"),
  ("csv", "text/csv"),
  ("md", "text/markdown"),
  ("png", "image/png"),
  ("gif", "image/gif"),
  ("jpeg", "image/jpeg"),
  ("svg", "image/svg+xml"),
  ("ico", "image/x-icon"),
  ("bmp", "image/bmp"),
  ("avif", "image/avif"),
  ("mpeg", "video/mpeg"),
  ("mp4", "video/mp4"),
  ("webm", "video/webm"),
  ("mp3", "audio/mpeg"),
  ("ogg", "audio/ogg"),
  ("wav", "audio/wav"),
  ("woff", "font/woff"),
  ("woff2", "font/woff2"),
  ("ttf", "font/ttf"),
  ("otf", "font/otf"),
  ("wasm", "application/wasm"),
  ("pdf", "application/pdf"),
  ("json", "application/json"),
  ("tar", "application/x-tar"),
  ("zip", "application/zip")]

/-- `get_mime_type`. -/
def getMimeType (file : Text) : Text :=
  (mimeMap.lookup ((file.splitOn '.').getLastD "txt")).getD "application/octet-stream"

/-- `fn_get_etag`. -/
def getEtag (fileMeta : FileMetadata) : Text :=
  match fileMeta.modified with
  | none => []
  | some seconds => Nat.toDigits 16 fileMeta.len ++ '-' :: showNat seconds

/-- The file, or a page that is compiled in. -/
def readPage (files : WebFiles) (uriPath : Text) (served : ServedFile)
    (fileMeta : Option FileMetadata) : HttpResponse :=
  match files.read served.filepath with
  | some contents =>
      let etag : List (Text × Text) := fileMeta.toList.map fun known => ("ETag", getEtag known)
      { status := if served.is404 then 404 else 200
        headers :=
          ("Content-Length", showNat contents.length) ::
          ("Content-Type", getMimeType served.path) ::
          ("Connection", "keep-alive") :: ("Keep-Alive", "timeout=60, max=1000") :: etag
        body := contents }
  | none =>
      if uriPath = "/" ∨ uriPath = "/index.html" then
        { status := 200, headers := [("Content-Type", "text/html; charset=utf-8")]
          body := library.indexHtml }
      else if uriPath = "/app.js" then
        { status := 200, headers := [("Content-Type", "text/javascript; charset=utf-8")]
          body := library.appJs }
      else if uriPath = "/style.css" then
        { status := 200, headers := [("Content-Type", "text/css; charset=utf-8")]
          body := library.styleCss }
      else { status := 404, body := "Page Not Found" }

/-- The response to a request for a page.  There is none for a tag that is no text: the task
ends in `unwrap`. -/
def servePage (files : WebFiles) (request : HttpRequest) (served : ServedFile) :
    Option HttpResponse :=
  let fileMeta :=
    if files.pathExists served.filepath then files.metadata served.filepath else none
  let page := readPage library files request.path served fileMeta
  match request.ifNoneMatch, fileMeta with
  | some tag, some known =>
      (headerText tag).map fun tag => if getEtag known = tag then { status := 304 } else page
  | _, _ => some page

/-! ### The server -/

/-- The HTTP server and the rest of the service: its files, its database and what it gathers. -/
structure System (Rest : Type) where
  server : HttpServer
  rest : Rest

variable {Rest : Type}

/-- A handler behind the gate can do anything. -/
abbrev GatedHandler (Rest : Type) :=
  String → List (Text × Text) → HttpCall → System Rest →
    System Rest × Except HttpError HttpResponse

/-- The handler with the name. -/
def handlerOf (gated : GatedHandler Rest) : GatedHandler Rest :=
  fun name params call system =>
    if name = "api_auth_login" then
      let outcome := handleLogin library call system.server
      ({ system with server := outcome.1 }, outcome.2)
    else if name = "api_auth_logout" then (system, .ok handleLogout)
    else if name = "api_server_version" then (system, .ok (handleVersion library))
    else gated name params call system

/-- `server_add_cors_header`. -/
def serverAddCorsHeader (conf : HttpServerConfig) (origin : Option Text)
    (response : HttpResponse) : HttpResponse :=
  if conf.enableCors then
    ((((response.insert "Access-Control-Allow-Origin" (origin.getD "*")).insert
      "Access-Control-Allow-Methods" "GET, POST, PUT, DELETE, OPTIONS, PATCH").insert
      "Access-Control-Allow-Headers" "Content-Type, Authorization, Set-Cookie").insert
      "Access-Control-Allow-Credentials" "true").insert "Access-Control-Max-Age" "600"
  else response

/-- The response `error_response` of an API request. -/
def errorResponse (conf : HttpServerConfig) (origin : Option Text) (code : Nat) (msg : Text) :
    HttpResponse :=
  serverAddCorsHeader conf origin
    (((responseError library code msg).insert "Content-Type" "application/json").insert
      "Cache-Control" "no-cache")

/-- Why a route is not handled. -/
def refusal (call : HttpCall) (server : HttpServer) (auth : Bool) : Option (Nat × Text) :=
  if auth then
    match server.authTokenIsValid library.jwt call.now (getTokenFromHeader library call.request) with
    | .error message => some (400, message)
    | .ok false => some (401, "Please login.")
    | .ok true => none
  else none

def apiRouter : Router HttpMethod String := registerAll apiNew

/-- `get_router`; a path is looked up by what stands between its slashes. -/
def routeOf (request : HttpRequest) :
    Option (ApiRouter HttpMethod String × List (Text × Text)) :=
  match request.method with
  | .routed method => apiRouter.getRouter method (request.path.splitOn '/')
  | .options | .other _ => none

/-- The response to a request for the options of the API. -/
def optionsResponse : HttpResponse where
  status := 200
  headers := [("Cache-Control", "no-cache"), ("Content-Type", "application/json")]

/-- What a handler does not set is set for it. -/
def HttpResponse.completed (response : HttpResponse) : HttpResponse :=
  (response.insertMissing "Content-Type" "application/json").insertMissing "Cache-Control" "no-cache"

/-- `server_handle_http_api_request`. -/
def serverHandleHttpApiRequest (gated : GatedHandler Rest) (call : HttpCall)
    (system : System Rest) : System Rest × HttpResponse :=
  let conf := system.server.conf
  let origin := call.request.origin
  if call.request.method = .options then
    (system, serverAddCorsHeader conf origin optionsResponse)
  else
    match routeOf call.request with
    | none => (system, errorResponse library conf origin 404 "API not found.")
    | some (router, params) =>
        match refusal library call system.server router.auth with
        | some (code, message) => (system, errorResponse library conf origin code message)
        | none =>
            if .routed router.method ≠ call.request.method then
              (system, errorResponse library conf origin 405 "Method Not Allowed")
            else
              match handlerOf library gated router.handler params call system with
              | (after, .ok response) =>
                  (after, serverAddCorsHeader after.server.conf origin response.completed)
              | (after, .error error) => (after, error.toResponse library)

/-- `server_handle_http_request`. -/
def serverHandleHttpRequest (gated : GatedHandler Rest) (call : HttpCall)
    (system : System Rest) : System Rest × Option HttpResponse :=
  match handleHttpRequest call.files.toFileSystem system.server.conf.httpRoot
    call.request.path with
  | none =>
      let outcome := serverHandleHttpApiRequest library gated call system
      (outcome.1, some outcome.2)
  | some served => (system, servePage library call.files call.request served)

/-! ### Routes without authentication -/

section

variable {Method Handler : Type}

theorem mem_methods_put {router : Router Method Handler} {slot pattern : Pattern}
    {routeData : ApiRouter Method Handler} {entry : Method × ApiRouter Method Handler}
    (listed : entry ∈ (router.put slot routeData).methods pattern) :
    entry ∈ router.methods pattern ∨ entry = (routeData.method, routeData) := by
  unfold Router.put at listed
  dsimp only at listed
  by_cases here : pattern = slot
  · subst here
    rw [Function.update_self] at listed
    exact (List.mem_cons.mp listed).symm
  · rw [Function.update_of_ne here] at listed
    exact .inl listed

theorem mem_methods_register {router : Router Method Handler} {pattern : Pattern}
    {registration : Registration Method Handler} {entry : Method × ApiRouter Method Handler}
    (listed : entry ∈ (router.register registration).methods pattern) :
    entry ∈ router.methods pattern ∨ entry = (registration.method, registration.routeData) := by
  unfold Router.register at listed
  split at listed
  · exact mem_methods_put listed
  · have inserted : ((router.insert registration.path).getD router).methods = router.methods := by
      unfold Router.insert
      split_ifs <;> rfl
    dsimp only at listed
    rw [← inserted]
    split at listed
    · exact mem_methods_put listed
    · exact .inl listed

/-- What was registered is all that a router has. -/
theorem mem_methods_registerAll {registrations : List (Registration Method Handler)}
    {pattern : Pattern} {entry : Method × ApiRouter Method Handler}
    (listed : entry ∈ (registerAll registrations).methods pattern) :
    ∃ registration ∈ registrations, entry = (registration.method, registration.routeData) := by
  induction registrations using List.reverseRecOn with
  | nil => cases listed
  | append_singleton done registration inductionHypothesis =>
      rw [registerAll, List.foldl_append] at listed
      rcases mem_methods_register listed with before | same
      · obtain ⟨earlier, among, same⟩ := inductionHypothesis before
        exact ⟨earlier, List.mem_append_left _ among, same⟩
      · exact ⟨registration, List.mem_append_right _ List.mem_cons_self, same⟩

/-- A route that is found was registered for the method of the request. -/
theorem registered_of_getRouter [DecidableEq Method] {registrations : List (Registration Method Handler)}
    {method : Method} {path : Path} {router : ApiRouter Method Handler}
    {params : List (Text × Text)}
    (found : (registerAll registrations).getRouter method path = some (router, params)) :
    router.method = method ∧ ∃ registration ∈ registrations, router = registration.routeData := by
  obtain ⟨slot, -, got⟩ := Option.bind_eq_some_iff.mp found
  obtain ⟨routeData, lookup, same⟩ := Option.map_eq_some_iff.mp got
  obtain ⟨rfl, -⟩ := Prod.mk.inj same
  obtain ⟨before, after, split, -⟩ := List.lookup_eq_some_iff.mp lookup
  have listed : (method, routeData) ∈ (registerAll registrations).methods slot := by
    rw [split]
    exact List.mem_append_right _ List.mem_cons_self
  obtain ⟨registration, among, same⟩ := mem_methods_registerAll listed
  obtain ⟨rfl, rfl⟩ := Prod.mk.inj same
  exact ⟨rfl, registration, among, rfl⟩

end

/-- The handlers before the gate. -/
def openHandlers : List String := ["api_auth_login", "api_auth_logout", "api_server_version"]

theorem mem_openHandlers_of_apiNew : ∀ registration ∈ apiNew, registration.auth = false →
    registration.handler ∈ openHandlers := by
  simp [apiNew, route, openHandlers]

theorem open_of_routeOf {request : HttpRequest} {router : ApiRouter HttpMethod String}
    {params : List (Text × Text)} (found : routeOf request = some (router, params)) :
    .routed router.method = request.method ∧
      (router.auth = true ∨ router.handler ∈ openHandlers) := by
  unfold routeOf at found
  split at found
  · rename_i method same
    obtain ⟨rfl, registration, among, rfl⟩ := registered_of_getRouter found
    refine ⟨same.symm, ?_⟩
    cases auth : registration.auth with
    | true => exact .inl auth
    | false => exact .inr (mem_openHandlers_of_apiNew registration among auth)
  · cases found
  · cases found

/-! ### A request without a valid token -/

/-- The request has a token that is valid at its time. -/
def CarriesValidToken (call : HttpCall) (server : HttpServer) : Prop :=
  server.authTokenIsValid library.jwt call.now (getTokenFromHeader library call.request) = .ok true

instance (call : HttpCall) (server : HttpServer) :
    Decidable (CarriesValidToken library call server) :=
  inferInstanceAs (Decidable (_ = Except.ok true))

/-- Whatever the rest of the service is, the outcome is the same, and the rest stays; the
configuration and the database do, too. -/
structure StaysOutside (library : WebLibrary) (gated : GatedHandler Rest) (call : HttpCall)
    (server after : HttpServer) (response : Option HttpResponse) : Prop where
  conf : after.conf = server.conf
  conn : after.conn = server.conn
  outcome : ∀ rest,
    serverHandleHttpRequest library gated call ⟨server, rest⟩ = (⟨after, rest⟩, response)

section

variable {library} {gated : GatedHandler Rest} {call : HttpCall} {server : HttpServer}

theorem handleLogin_keeps :
    (handleLogin library call server).1.conf = server.conf ∧
      (handleLogin library call server).1.conn = server.conn := by
  unfold handleLogin
  split
  · exact ⟨rfl, rfl⟩
  · have answers := answers_apiAuthLogin library.jwt library.verifyPassword
      ⟨call.now, call.instant, getTokenFromHeader library call.request⟩
      (apiMsgParseAuth library ‹Text›) server
    exact ⟨answers.conf, answers.conn⟩

/-- A handler before the gate looks at the server only. -/
theorem exists_handlerOf_open (gated : GatedHandler Rest) {name : String}
    (isOpen : name ∈ openHandlers) (params : List (Text × Text)) :
    ∃ after result, after.conf = server.conf ∧ after.conn = server.conn ∧ ∀ rest,
      handlerOf library gated name params call ⟨server, rest⟩ = (⟨after, rest⟩, result) := by
  simp only [openHandlers, List.mem_cons, List.not_mem_nil, or_false] at isOpen
  rcases isOpen with rfl | rfl | rfl
  · refine ⟨(handleLogin library call server).1, (handleLogin library call server).2,
      handleLogin_keeps.1, handleLogin_keeps.2, fun rest => ?_⟩
    rw [handlerOf, if_pos rfl]
  · refine ⟨server, .ok handleLogout, rfl, rfl, fun rest => ?_⟩
    rw [handlerOf, if_neg (by decide), if_pos rfl]
  · refine ⟨server, .ok (handleVersion library), rfl, rfl, fun rest => ?_⟩
    rw [handlerOf, if_neg (by decide), if_neg (by decide), if_pos rfl]

theorem auth_eq_false_of_refusal {auth : Bool} (without : ¬ CarriesValidToken library call server)
    (passed : refusal library call server auth = none) : auth = false := by
  unfold refusal at passed
  cases auth with
  | false => rfl
  | true =>
      rw [if_pos rfl] at passed
      split at passed
      · cases passed
      · cases passed
      · rename_i valid
        exact absurd valid without

/-! #### The answers of the API -/

section

variable {system : System Rest} {router : ApiRouter HttpMethod String}
variable {params : List (Text × Text)}

theorem api_notFound (notOptions : call.request.method ≠ .options)
    (missing : routeOf call.request = none) :
    serverHandleHttpApiRequest library gated call system =
      (system, errorResponse library system.server.conf call.request.origin 404
        "API not found.") := by
  rw [serverHandleHttpApiRequest]
  rw [if_neg notOptions, missing]

theorem api_refused (notOptions : call.request.method ≠ .options)
    (found : routeOf call.request = some (router, params)) {code : Nat} {message : Text}
    (refused : refusal library call system.server router.auth = some (code, message)) :
    serverHandleHttpApiRequest library gated call system =
      (system, errorResponse library system.server.conf call.request.origin code message) := by
  rw [serverHandleHttpApiRequest]
  rw [if_neg notOptions, found]
  dsimp only
  rw [refused]

/-- The method of the route is that of the request, so a route that is not refused is handled. -/
theorem api_handled (notOptions : call.request.method ≠ .options)
    (found : routeOf call.request = some (router, params))
    (passed : refusal library call system.server router.auth = none) :
    serverHandleHttpApiRequest library gated call system =
      match handlerOf library gated router.handler params call system with
      | (after, .ok response) =>
          (after, serverAddCorsHeader after.server.conf call.request.origin response.completed)
      | (after, .error error) => (after, error.toResponse library) := by
  rw [serverHandleHttpApiRequest]
  rw [if_neg notOptions, found]
  dsimp only
  rw [passed]
  exact if_neg (not_not_intro (open_of_routeOf found).1)

end

theorem exists_api_without_token (gated : GatedHandler Rest)
    (without : ¬ CarriesValidToken library call server) :
    ∃ after response, after.conf = server.conf ∧ after.conn = server.conn ∧ ∀ rest,
      serverHandleHttpApiRequest library gated call ⟨server, rest⟩ = (⟨after, rest⟩, response) := by
  by_cases options : call.request.method = .options
  · exact ⟨server, serverAddCorsHeader server.conf call.request.origin optionsResponse, rfl, rfl,
      fun rest => if_pos options⟩
  · cases found : routeOf call.request with
    | none =>
        exact ⟨server, errorResponse library server.conf call.request.origin 404 "API not found.",
          rfl, rfl, fun rest => api_notFound options found⟩
    | some route =>
        obtain ⟨router, params⟩ := route
        cases refused : refusal library call server router.auth with
        | some answer =>
            exact ⟨server, errorResponse library server.conf call.request.origin answer.1 answer.2,
              rfl, rfl, fun rest => api_refused options found refused⟩
        | none =>
            have unprotected := auth_eq_false_of_refusal without refused
            have isOpen := (open_of_routeOf found).2.resolve_left
              (by rw [unprotected]; exact Bool.false_ne_true)
            obtain ⟨after, result, conf, conn, handled⟩ := exists_handlerOf_open gated isOpen params
            cases result with
            | ok response =>
                refine ⟨after, serverAddCorsHeader after.conf call.request.origin
                  response.completed, conf, conn, fun rest => ?_⟩
                rw [api_handled options found refused, handled]
            | error error =>
                refine ⟨after, error.toResponse library, conf, conn, fun rest => ?_⟩
                rw [api_handled options found refused, handled]

theorem exists_staysOutside (gated : GatedHandler Rest)
    (without : ¬ CarriesValidToken library call server) :
    ∃ after response, StaysOutside library gated call server after response := by
  cases page : handleHttpRequest call.files.toFileSystem server.conf.httpRoot
    call.request.path with
  | none =>
      obtain ⟨after, response, conf, conn, answered⟩ := exists_api_without_token gated without
      refine ⟨after, some response, conf, conn, fun rest => ?_⟩
      rw [serverHandleHttpRequest, page]
      dsimp only
      rw [answered rest]
  | some served =>
      refine ⟨server, servePage library call.files call.request served, rfl, rfl, fun rest => ?_⟩
      rw [serverHandleHttpRequest, page]

end

/-! ### Runs -/

/-- A request, or a change of the rest of the service that no request makes. -/
inductive ServiceEvent (Rest : Type) where
  | request (call : HttpCall)
  | background (change : Rest → Rest)

/-- The state after the events, and the responses to the requests. -/
def serve (gated : GatedHandler Rest) : List (ServiceEvent Rest) → System Rest →
    System Rest × List (Option HttpResponse)
  | [], system => (system, [])
  | .background change :: events, system =>
      serve gated events { system with rest := change system.rest }
  | .request call :: events, system =>
      let outcome := serverHandleHttpRequest library gated call system
      let later := serve gated events outcome.1
      (later.1, outcome.2 :: later.2)

/-- What the rest of the service becomes by itself. -/
def inBackground : List (ServiceEvent Rest) → Rest → Rest
  | [], rest => rest
  | .background change :: events, rest => inBackground events (change rest)
  | .request _ :: events, rest => inBackground events rest

variable {library}

theorem carriesValidToken_congr {call : HttpCall} {server other : HttpServer}
    (same : other.conf = server.conf) :
    CarriesValidToken library call other ↔ CarriesValidToken library call server := by
  unfold CarriesValidToken HttpServer.authTokenIsValid HttpServer.jwtFor
  rw [same]

/-- In a run in which no request has a valid token, the requests change neither the rest of
the service nor the configuration nor the database, and the responses to them do not depend on
the rest of the service. -/
theorem serve_without_tokens {gated : GatedHandler Rest} {events : List (ServiceEvent Rest)}
    {server : HttpServer}
    (without : ∀ call, .request call ∈ events → ¬ CarriesValidToken library call server) :
    ∃ after responses, after.conf = server.conf ∧ after.conn = server.conn ∧ ∀ rest,
      serve library gated events ⟨server, rest⟩ =
        (⟨after, inBackground events rest⟩, responses) := by
  induction events generalizing server with
  | nil => exact ⟨server, [], rfl, rfl, fun rest => rfl⟩
  | cons event events inductionHypothesis =>
      cases event with
      | background change =>
          obtain ⟨after, responses, conf, conn, served⟩ := inductionHypothesis
            fun call among => without call (List.mem_cons_of_mem _ among)
          exact ⟨after, responses, conf, conn, fun rest => served (change rest)⟩
      | request call =>
          obtain ⟨between, response, outside⟩ :=
            exists_staysOutside gated (without call List.mem_cons_self)
          obtain ⟨after, responses, conf, conn, served⟩ := inductionHypothesis
            fun later among => mt (carriesValidToken_congr outside.conf).mp
              (without later (List.mem_cons_of_mem _ among))
          refine ⟨after, response :: responses, conf.trans outside.conf, conn.trans outside.conn, ?_⟩
          intro rest
          rw [serve, outside.outcome rest]
          dsimp only
          rw [served rest]
          rfl

/-! ### Two requests to flush the cache -/

/-- A token that shows its secret and its claims. -/
def shownToken (secret : Text) (claims : JwtClaims) : Value :=
  .array [.string secret, .string claims.user, .string claims.ip,
    .string (List.replicate claims.exp '1')]

def shownClaims (secret : Text) (now : Nat) : Except Text Value → Option JwtClaims
  | .ok (.array [.string signer, .string user, .string ip, .string exp]) =>
      if signer = secret ∧ now ≤ exp.length then some { user, ip, exp := exp.length } else none
  | _ => none

theorem isCanonical_shownToken (secret : Text) (claims : JwtClaims) :
    IsCanonical (shownToken secret claims) := by
  apply IsCanonical.array
  simp only [List.forall_mem_cons]
  exact ⟨.string _, .string _, .string _, .string _, nofun⟩

def textTokens : JwtLibrary Text where
  leeway := 0
  encode secret claims := compact ApiMsg.sampleFormat (shownToken secret claims)
  decode secret now token := shownClaims secret now (fromCompact ApiMsg.sampleFormat token)
  decode_encode secret claims now := by
    rw [fromCompact_compact _ (isCanonical_shownToken secret claims)]
    simp [shownClaims, shownToken]
  decode_other secret other claims now different := by
    rw [fromCompact_compact _ (isCanonical_shownToken secret claims)]
    exact if_neg fun both => different both.1

def sampleWeb : WebLibrary where
  jwt := textTokens
  json := ApiMsg.sampleLibrary
  urlEncode := id
  urlDecode := some
  verifyPassword password hash := password = hash
  isHttpsServer _ := false
  smartdnsVersion := "1.0"
  smartdnsUiVersion := "1.0"
  indexHtml := "<html>"
  appJs := []
  styleCss := []

def sampleServer : HttpServer where
  conf := {
    httpIp := defaultIp, httpRoot := defaultWwwRoot, username := defaultUsername
    password := defaultPassword, jwtSecret := "s", tokenExpiredTime := 60, enableCors := true
    enableTerminal := false, configFile := "/etc/smartdns.conf", rulesDir := "/etc/smartdns/rules" }
  loginAttempts := (0, 0)
  conn := none

/-- A handler that empties what is kept. -/
def emptying : GatedHandler Nat :=
  fun _ _ _ system => ({ system with rest := 0 }, .ok { status := 204 })

def flushCall (authorization : Option Text) : HttpCall where
  request := { method := .routed .put, path := "/api/cache/flush", authorization }
  now := 0
  instant := 0
  files := {
    pathExists _ := false, isDir _ := false, metadata _ := none, read _ := none }

/-- The cache fills up by itself, and the requests cannot empty it. -/
theorem serve_without_tokens_example :
    (serve sampleWeb emptying [.background (· + 7), .request (flushCall none),
      .request (flushCall (some "Bearer forged"))] ⟨sampleServer, 0⟩).1.rest = 7 := by
  have without : ∀ call, ServiceEvent.request call ∈ [ServiceEvent.background (· + 7),
      .request (flushCall none), .request (flushCall (some "Bearer forged"))] →
        ¬ CarriesValidToken sampleWeb call sampleServer := by
    intro call among
    simp only [List.mem_cons, reduceCtorEq, ServiceEvent.request.injEq, List.not_mem_nil,
      false_or, or_false] at among
    rcases among with rfl | rfl
    · exact nofun
    · decide +kernel
  obtain ⟨after, responses, -, -, served⟩ := @serve_without_tokens _ _ emptying _ _ without
  rw [served 0]
  rfl

end SmartDnsPlusUi
