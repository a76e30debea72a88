import SmartDnsPlusUi.Graph.Chains
import SmartDnsPlusUi.Text.Lines

/-!
# Whois lookups

A whois query asks a server about a domain and follows the referrals of the replies from
server to server.  The servers that the replies name for a domain are remembered for later
queries.  A referral is followed unless it names the server that was just asked, so a
lookup ends exactly when its chain of referrals does.
-/

namespace SmartDnsPlusUi.Whois

open Text SmartDnsPlusUi.Graph

structure WhoIsInfo where
  domain : Text := []
  organization : Text := []
  address : Text := []
  city : Text := []
  country : Text := []
  registrar : Text := []
  refer : Text := []
deriving DecidableEq

/-- The newest entry for a domain comes first. -/
structure WhoIs where
  rootServer : Text := "whois.iana.org".toList
  serverLists : List (Text × Text) := []
deriving DecidableEq

/-- `strip_prefix` with a literal. -/
def stripPrefix (start : String) (line : Text) : Option Text :=
  if start.toList <+: line then some (line.drop start.toList.length) else none

/-- One line of a reply: the information so far and the domain that the reply is about. -/
def parseWhoisLine (parsed : WhoIsInfo × Text) (untrimmed : Text) : WhoIsInfo × Text :=
  let (info, whoisDomain) := parsed
  let line := trim untrimmed
  if let some value := stripPrefix "Organization:" line then
    ({ info with organization := trim value }, whoisDomain)
  else if let some value := stripPrefix "Registrar:" line then
    ({ info with registrar := trim value }, whoisDomain)
  else if let some value := stripPrefix "Registrant:" line then
    ({ info with organization := trim value }, whoisDomain)
  else if let some value := stripPrefix "Registrant Name:" line then
    ({ info with organization := trim value }, whoisDomain)
  else if let some value := stripPrefix "Registrant Organization:" line then
    ({ info with organization := trim value }, whoisDomain)
  else if let some value := stripPrefix "Registrant Street:" line then
    ({ info with address := trim value }, whoisDomain)
  else if let some value := stripPrefix "Registrant City:" line then
    ({ info with city := trim value }, whoisDomain)
  else if let some value := stripPrefix "Registrant Country:" line then
    ({ info with country := trim value }, whoisDomain)
  else if let some value := stripPrefix "Registrant Country Code:" line then
    ({ info with country := trim value }, whoisDomain)
  else if let some value := stripPrefix "Registrar WHOIS Server:" line then
    ({ info with refer := trim value }, whoisDomain)
  else if let some value := stripPrefix "refer:" line then
    ({ info with refer := trim value }, whoisDomain)
  else if let some value := stripPrefix "whois:" line then
    ({ info with refer := trim value }, whoisDomain)
  else if let some value := stripPrefix "domain:" line then
    (info, trim value)
  else parsed

def parserWhois (whois : Text) : WhoIsInfo × Text := (lines whois).foldl parseWhoisLine ({}, [])

/-- The texts after the dots of a text, the longest first. -/
def afterDots : Text → List Text
  | [] => []
  | c :: t => if c = '.' then t :: afterDots t else afterDots t

/-- The second-level and the third-level name that a domain is asked by. -/
def mainDomains (domain : Text) : List Text :=
  match (domain.splitOn '.').reverse with
  | last :: second :: third :: _ =>
      [second ++ '.' :: last, third ++ '.' :: second ++ '.' :: last]
  | last :: second :: [] => [second ++ '.' :: last]
  | _ => [domain]

def baseDomain (mainDomain : Text) : Text :=
  match splitAtFirst ['.'] mainDomain with
  | some (before, after) => if before ≠ [] then after else mainDomain
  | none => mainDomain

/-- How the questions of a query go on after one of them. -/
inductive Flow where
  | finished (result : Except Text WhoIsInfo)
  | goesOn (lastWhoisinfo : WhoIsInfo)

section

/-! ### The query -/

variable (toLowercase : Text → Text)

def WhoIs.addServer (whois : WhoIs) (domain server : Text) : WhoIs :=
  { whois with serverLists := (toLowercase domain, server) :: whois.serverLists }

def WhoIs.getServer (whois : WhoIs) (domain : Text) : Option Text :=
  whois.serverLists.lookup domain

/-- The names that a domain is looked up by: itself and what follows its dots. -/
def cacheNames (domain : Text) : List Text := toLowercase domain :: afterDots (toLowercase domain)

def WhoIs.getServerByDomain (whois : WhoIs) (domain : Text) : Text :=
  ((cacheNames toLowercase domain).findSome? whois.getServer).getD whois.rootServer

-- the reply of a host to a question, or the error of asking it
variable (queryFromServer : Text → Text → Except Text Text)

/-- The inner loop: one question, from server to server; `none` when the fuel is spent. -/
def referrals (domain mainDomain : Text) :
    Nat → WhoIs → WhoIsInfo → Text → Option (WhoIs × Flow)
  | 0, _, _, _ => none
  | fuel + 1, whois, last, server =>
      if server = [] then some (whois, .goesOn last)
      else match queryFromServer mainDomain (server ++ ":43".toList) with
        | .error e => some (whois, .finished (if last.registrar ≠ [] then .ok last else .error e))
        | .ok reply =>
            let parsed := parserWhois reply
            let info : WhoIsInfo := { parsed.1 with domain }
            if info.organization ≠ [] then some (whois, .finished (.ok info))
            else
              let last := if info.registrar ≠ [] then info else last
              if server = info.refer then some (whois, .goesOn last)
              else
                let whois :=
                  if parsed.2 ≠ [] then whois.addServer toLowercase parsed.2 info.refer else whois
                referrals domain mainDomain fuel whois last info.refer

/-- The outer loop, over the names that the domain is asked by. -/
def askAll (fuel : Nat) (domain : Text) :
    List Text → WhoIs → WhoIsInfo → Option (WhoIs × Except Text WhoIsInfo)
  | [], whois, last =>
      some (whois, if last.registrar ≠ [] then .ok last else .error "Cannot find whois.".toList)
  | mainDomain :: mainDomains, whois, last =>
      match referrals toLowercase queryFromServer domain mainDomain fuel whois last
          (whois.getServerByDomain toLowercase (baseDomain mainDomain)) with
      | none => none
      | some (whois, .finished result) => some (whois, result)
      | some (whois, .goesOn last) => askAll fuel domain mainDomains whois last

def query (fuel : Nat) (whois : WhoIs) (domain : Text) : Option (WhoIs × Except Text WhoIsInfo) :=
  askAll toLowercase queryFromServer fuel domain (mainDomains domain) whois { domain }

end

/-! ### What a server answers -/

/-- What the loop makes of one server: nobody to ask, no reply, a reply with an
organization, a reply that refers to the server itself, or a referral with the domain that
it is for. -/
inductive Answer where
  | nobody
  | failed (message : Text)
  | found (info : WhoIsInfo)
  | final (info : WhoIsInfo)
  | referral (info : WhoIsInfo) (whoisDomain : Text)

section

variable (queryFromServer : Text → Text → Except Text Text)

def answer (mainDomain server : Text) : Answer :=
  if server = [] then .nobody
  else match queryFromServer mainDomain (server ++ ":43".toList) with
    | .error e => .failed e
    | .ok reply =>
        let parsed := parserWhois reply
        if parsed.1.organization ≠ [] then .found parsed.1
        else if server = parsed.1.refer then .final parsed.1
        else .referral parsed.1 parsed.2

def Answer.next : Answer → Option Text
  | .referral info _ => some info.refer
  | _ => none

/-- The information of a reply that names a registrar but no organization. -/
def Answer.registered : Answer → Option WhoIsInfo
  | .final info => if info.registrar ≠ [] then some info else none
  | .referral info _ => if info.registrar ≠ [] then some info else none
  | _ => none

/-- The answers that end the whole query. -/
def Answer.settled : Answer → Option (Except Text WhoIsInfo)
  | .failed e => some (.error e)
  | .found info => some (.ok info)
  | _ => none

def nextServer (mainDomain server : Text) : Option Text :=
  (answer queryFromServer mainDomain server).next

/-- How a chain of referrals ends the query, if it does. -/
def ending (mainDomain : Text) (path : List Text) : Option (Except Text WhoIsInfo) :=
  path.getLast?.bind fun server => (answer queryFromServer mainDomain server).settled

def lastRegistered (mainDomain : Text) (path : List Text) : Option WhoIsInfo :=
  (path.filterMap fun server => (answer queryFromServer mainDomain server).registered).getLast?

variable (toLowercase : Text → Text)

def WhoIs.record (whois : WhoIs) : Answer → WhoIs
  | .referral info whoisDomain =>
      if whoisDomain ≠ [] then whois.addServer toLowercase whoisDomain info.refer else whois
  | _ => whois

/-- What the referrals of a chain leave in the cache. -/
def WhoIs.recordAll (whois : WhoIs) (mainDomain : Text) (path : List Text) : WhoIs :=
  path.foldl (fun whois server => whois.record toLowercase (answer queryFromServer mainDomain server))
    whois

/-- From the server that the cache gives for a question, the referrals reach finitely many
servers and never one of them again; likewise for the later questions, with the cache as
the chain of the first one leaves it, unless that chain ends the query. -/
def ReferralsNeverReturn : WhoIs → List Text → Prop
  | _, [] => True
  | whois, mainDomain :: mainDomains =>
      WithoutReturn (nextServer queryFromServer mainDomain)
          (whois.getServerByDomain toLowercase (baseDomain mainDomain)) ∧
        ∀ path, Chain (nextServer queryFromServer mainDomain)
            (whois.getServerByDomain toLowercase (baseDomain mainDomain)) path →
          ending queryFromServer mainDomain path = none →
          ReferralsNeverReturn
            (whois.recordAll queryFromServer toLowercase mainDomain path) mainDomains

end

/-! ### One server, one question, one query -/

def withLast (domain : Text) (last : WhoIsInfo) (registered : Option WhoIsInfo) : WhoIsInfo :=
  (registered.map ({ · with domain })).getD last

/-- How the questions go on after a chain. -/
def flowOf (domain : Text) (last : WhoIsInfo) (registered : Option WhoIsInfo) :
    Option (Except Text WhoIsInfo) → Flow
  | some (.ok info) => .finished (.ok { info with domain })
  | some (.error e) =>
      let last := withLast domain last registered
      .finished (if last.registrar ≠ [] then .ok last else .error e)
  | none => .goesOn (withLast domain last registered)

section

variable {queryFromServer : Text → Text → Except Text Text} {toLowercase : Text → Text}
variable {domain mainDomain server : Text}

theorem referrals_succ (fuel : Nat) (whois : WhoIs) (last : WhoIsInfo) :
    referrals toLowercase queryFromServer domain mainDomain (fuel + 1) whois last server =
      match (answer queryFromServer mainDomain server).next with
      | some refer =>
          referrals toLowercase queryFromServer domain mainDomain fuel
            (whois.record toLowercase (answer queryFromServer mainDomain server))
            (withLast domain last (answer queryFromServer mainDomain server).registered) refer
      | none =>
          some (whois, flowOf domain last (answer queryFromServer mainDomain server).registered
            (answer queryFromServer mainDomain server).settled) := by
  rw [referrals, answer]
  by_cases empty : server = []
  · rw [if_pos empty, if_pos empty]
    rfl
  rw [if_neg empty, if_neg empty]
  cases queryFromServer mainDomain (server ++ ":43".toList) with
  | error e => rfl
  | ok reply =>
      by_cases found : (parserWhois reply).1.organization ≠ []
      · simp only [if_pos found]
        rfl
      simp only [if_neg found]
      by_cases named : (parserWhois reply).1.registrar ≠ [] <;>
        by_cases same : server = (parserWhois reply).1.refer <;>
        simp [Answer.next, Answer.registered, Answer.settled, WhoIs.record, withLast, flowOf, named,
          same]

theorem ending_cons {path : List Text} (nonempty : path ≠ []) :
    ending queryFromServer mainDomain (server :: path) =
      ending queryFromServer mainDomain path := by
  cases path with
  | nil => exact absurd rfl nonempty
  | cons => rfl

theorem withLast_lastRegistered (last : WhoIsInfo) (path : List Text) :
    withLast domain last (lastRegistered queryFromServer mainDomain (server :: path)) =
      withLast domain
        (withLast domain last (answer queryFromServer mainDomain server).registered)
        (lastRegistered queryFromServer mainDomain path) := by
  rw [lastRegistered, lastRegistered, List.filterMap_cons]
  cases (answer queryFromServer mainDomain server).registered with
  | none => rfl
  | some info =>
      rw [List.getLast?_cons]
      cases (path.filterMap fun server =>
        (answer queryFromServer mainDomain server).registered).getLast? <;> rfl

theorem flowOf_cons (last : WhoIsInfo) (path : List Text)
    (settled : Option (Except Text WhoIsInfo)) :
    flowOf domain last (lastRegistered queryFromServer mainDomain (server :: path)) settled =
      flowOf domain (withLast domain last (answer queryFromServer mainDomain server).registered)
        (lastRegistered queryFromServer mainDomain path) settled := by
  rcases settled with _ | (e | info)
  · rw [flowOf, flowOf, withLast_lastRegistered]
  · rw [flowOf, flowOf, withLast_lastRegistered]
  · rfl

/-- A chain is followed to its end, given as much fuel as it is long. -/
theorem referrals_of_chain {path : List Text}
    (chain : Chain (nextServer queryFromServer mainDomain) server path) {fuel : Nat}
    (enough : path.length ≤ fuel) (whois : WhoIs) (last : WhoIsInfo) :
    referrals toLowercase queryFromServer domain mainDomain fuel whois last server =
      some (whois.recordAll queryFromServer toLowercase mainDomain path,
        flowOf domain last (lastRegistered queryFromServer mainDomain path)
          (ending queryFromServer mainDomain path)) := by
  induction chain generalizing fuel whois last with
  | @last server stops =>
      obtain ⟨fuel, rfl⟩ := Nat.exists_eq_add_of_le' enough
      rw [nextServer] at stops
      have unchanged : whois.record toLowercase (answer queryFromServer mainDomain server) =
          whois := by
        cases answered : answer queryFromServer mainDomain server with
        | referral info whoisDomain => rw [answered] at stops; cases stops
        | _ => rfl
      have registered : lastRegistered queryFromServer mainDomain [server] =
          (answer queryFromServer mainDomain server).registered := by
        rw [lastRegistered, List.filterMap_cons]
        cases (answer queryFromServer mainDomain server).registered <;> rfl
      rw [List.length_singleton, referrals_succ, stops, WhoIs.recordAll, List.foldl_cons,
        List.foldl_nil, unchanged, registered]
      rfl
  | @link server following path leads rest inductionHypothesis =>
      rw [List.length_cons] at enough
      obtain ⟨fuel, rfl⟩ := Nat.exists_eq_succ_of_ne_zero (by omega : fuel ≠ 0)
      rw [nextServer] at leads
      rw [referrals_succ, leads, ending_cons rest.ne_nil, flowOf_cons]
      exact inductionHypothesis (by omega) _ _

theorem chain_of_referrals {fuel : Nat} {whois : WhoIs} {last : WhoIsInfo}
    {result : WhoIs × Flow}
    (followed : referrals toLowercase queryFromServer domain mainDomain fuel whois last server =
      some result) :
    ∃ path, Chain (nextServer queryFromServer mainDomain) server path ∧ path.length ≤ fuel := by
  induction fuel generalizing whois last server with
  | zero => cases followed
  | succ fuel inductionHypothesis =>
      rw [referrals_succ] at followed
      cases leads : (answer queryFromServer mainDomain server).next with
      | none => exact ⟨[server], .last leads, Nat.succ_le_succ (Nat.zero_le _)⟩
      | some following =>
          rw [leads] at followed
          obtain ⟨path, chain, enough⟩ := inductionHypothesis followed
          exact ⟨server :: path, .link leads chain, Nat.succ_le_succ enough⟩

theorem referrals_mono {fuel more : Nat} (enough : fuel ≤ more) {whois : WhoIs}
    {last : WhoIsInfo} {result : WhoIs × Flow}
    (followed : referrals toLowercase queryFromServer domain mainDomain fuel whois last server =
      some result) :
    referrals toLowercase queryFromServer domain mainDomain more whois last server =
      some result := by
  obtain ⟨path, chain, short⟩ := chain_of_referrals followed
  rw [referrals_of_chain chain short] at followed
  rw [referrals_of_chain chain (Nat.le_trans short enough)]
  exact followed

theorem askAll_cons_of_chain {path : List Text} {whois : WhoIs}
    (chain : Chain (nextServer queryFromServer mainDomain)
      (whois.getServerByDomain toLowercase (baseDomain mainDomain)) path)
    {fuel : Nat} (enough : path.length ≤ fuel) (mainDomains : List Text) (last : WhoIsInfo) :
    askAll toLowercase queryFromServer fuel domain (mainDomain :: mainDomains) whois last =
      match flowOf domain last (lastRegistered queryFromServer mainDomain path)
          (ending queryFromServer mainDomain path) with
      | .finished result =>
          some (whois.recordAll queryFromServer toLowercase mainDomain path, result)
      | .goesOn last =>
          askAll toLowercase queryFromServer fuel domain mainDomains
            (whois.recordAll queryFromServer toLowercase mainDomain path) last := by
  rw [askAll, referrals_of_chain chain enough]
  cases flowOf domain last (lastRegistered queryFromServer mainDomain path)
    (ending queryFromServer mainDomain path) <;> rfl

theorem askAll_mono {fuel more : Nat} (enough : fuel ≤ more) {mainDomains : List Text}
    {whois : WhoIs} {last : WhoIsInfo} {result : WhoIs × Except Text WhoIsInfo}
    (answered : askAll toLowercase queryFromServer fuel domain mainDomains whois last =
      some result) :
    askAll toLowercase queryFromServer more domain mainDomains whois last = some result := by
  induction mainDomains generalizing whois last with
  | nil => exact answered
  | cons mainDomain mainDomains inductionHypothesis =>
      rw [askAll] at answered ⊢
      cases followed : referrals toLowercase queryFromServer domain mainDomain fuel whois last
          (whois.getServerByDomain toLowercase (baseDomain mainDomain)) with
      | none => rw [followed] at answered; cases answered
      | some reached =>
          rw [followed] at answered
          rw [referrals_mono enough followed]
          rcases reached with ⟨later, result | last⟩
          · exact answered
          · exact inductionHypothesis answered

theorem flowOf_none (last : WhoIsInfo) (registered : Option WhoIsInfo) :
    flowOf domain last registered none = .goesOn (withLast domain last registered) := rfl

theorem flowOf_some (last : WhoIsInfo) (registered : Option WhoIsInfo)
    (settled : Except Text WhoIsInfo) :
    ∃ result, flowOf domain last registered (some settled) = .finished result := by
  cases settled <;> exact ⟨_, rfl⟩

/-- All the questions come to an end exactly where their chains do. -/
theorem askAll_returns_iff {mainDomains : List Text} {whois : WhoIs} {last : WhoIsInfo} :
    (∃ fuel result,
        askAll toLowercase queryFromServer fuel domain mainDomains whois last = some result) ↔
      ReferralsNeverReturn queryFromServer toLowercase whois mainDomains := by
  induction mainDomains generalizing whois last with
  | nil => exact ⟨fun _ => trivial, fun _ => ⟨0, _, rfl⟩⟩
  | cons mainDomain mainDomains inductionHypothesis =>
      constructor
      · rintro ⟨fuel, result, answered⟩
        cases followed : referrals toLowercase queryFromServer domain mainDomain fuel whois last
            (whois.getServerByDomain toLowercase (baseDomain mainDomain)) with
        | none => rw [askAll, followed] at answered; cases answered
        | some reached =>
            obtain ⟨path, chain, short⟩ := chain_of_referrals followed
            refine ⟨ends_iff_withoutReturn.1 ⟨path, chain⟩, fun other also goesOn => ?_⟩
            cases also.unique chain
            rw [askAll_cons_of_chain chain short, goesOn, flowOf_none] at answered
            exact inductionHypothesis.1 ⟨fuel, result, answered⟩
      · rintro ⟨without, later⟩
        obtain ⟨path, chain⟩ := ends_iff_withoutReturn.2 without
        cases ended : ending queryFromServer mainDomain path with
        | some settled =>
            obtain ⟨result, flow⟩ := @flowOf_some domain last
              (lastRegistered queryFromServer mainDomain path) settled
            refine ⟨path.length,
              (whois.recordAll queryFromServer toLowercase mainDomain path, result), ?_⟩
            rw [askAll_cons_of_chain chain (Nat.le_refl _), ended, flow]
        | none =>
            obtain ⟨fuel, result, answered⟩ := inductionHypothesis.2 (later path chain ended)
            refine ⟨max path.length fuel, result, ?_⟩
            rw [askAll_cons_of_chain chain (Nat.le_max_left _ _), ended, flowOf_none]
            exact askAll_mono (Nat.le_max_right _ _) answered

end

/-! ### Queries end exactly where no server comes back -/

/-- For every map of questions and hosts to replies or errors, every cache and every domain,
a query makes finitely many lookups and returns if and only if the referrals of no question
that it asks come back to a server. -/
theorem query_returns_iff (toLowercase : Text → Text)
    (queryFromServer : Text → Text → Except Text Text) (whois : WhoIs) (domain : Text) :
    (∃ fuel result, query toLowercase queryFromServer fuel whois domain = some result) ↔
      ReferralsNeverReturn queryFromServer toLowercase whois (mainDomains domain) :=
  askAll_returns_iff

/-- Two registries that refer to each other, the first one found through the root. -/
def mutualReferrals (_ host : Text) : Except Text Text :=
  if host = "a:43".toList then .ok "refer: b".toList else .ok "refer: a".toList

theorem not_query_returns :
    ¬ ∀ (toLowercase : Text → Text) (queryFromServer : Text → Text → Except Text Text)
        (whois : WhoIs) (domain : Text),
      ∃ fuel result, query toLowercase queryFromServer fuel whois domain = some result := by
  intro returns
  have never := askAll_returns_iff.1 (returns id mutualReferrals {} "b.com".toList)
  have toB : nextServer mutualReferrals "b.com".toList "a".toList = some "b".toList := by decide
  have toA : nextServer mutualReferrals "b.com".toList "b".toList = some "a".toList := by decide
  have fromRoot : nextServer mutualReferrals "b.com".toList
      (WhoIs.getServerByDomain id {} (baseDomain "b.com".toList)) = some "a".toList := by decide
  exact never.1.noReturn _ (.single fromRoot) (.tail (.single toB) toA)

end SmartDnsPlusUi.Whois
