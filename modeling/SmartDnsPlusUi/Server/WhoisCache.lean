import SmartDnsPlusUi.Run.Basic
import SmartDnsPlusUi.Server.Whois

/-!
# The cache of whois servers

The referrals of earlier queries tell later queries where to begin.  A query is answered as
without a cache when each remembered server gives the questions that it is remembered for
what the root gives them.
-/

namespace SmartDnsPlusUi.Whois

open Text SmartDnsPlusUi.Graph Run

def WhoIs.new : WhoIs := {}

section

variable (toLowercase : Text → Text) (queryFromServer : Text → Text → Except Text Text)

def queryStep (fuel : Nat) (whois : WhoIs) (domain : Text) : Option WhoIs :=
  (query toLowercase queryFromServer fuel whois domain).map (·.1)

/-- The two servers lead the question to the same end, and to the same last reply with a
registrar, unless they lead it to an organization. -/
def SameAnswers (mainDomain server other : Text) : Prop :=
  ∀ path otherPath, Chain (nextServer queryFromServer mainDomain) server path →
    Chain (nextServer queryFromServer mainDomain) other otherPath →
    ending queryFromServer mainDomain path = ending queryFromServer mainDomain otherPath ∧
      ((∃ info, ending queryFromServer mainDomain path = some (.ok info)) ∨
        lastRegistered queryFromServer mainDomain path =
          lastRegistered queryFromServer mainDomain otherPath)

/-- A server that is remembered for the domain of a reply is used for the question. -/
def Covers (whoisDomain mainDomain : Text) : Prop :=
  toLowercase whoisDomain ∈ cacheNames toLowercase (baseDomain mainDomain)

/-- Along the chains of the questions, a reply that is about the domain refers to the server. -/
def Records : WhoIs → List Text → Text → Text → Prop
  | _, [], _, _ => False
  | whois, mainDomain :: mainDomains, whoisDomain, refer =>
      ∃ path, Chain (nextServer queryFromServer mainDomain)
          (whois.getServerByDomain toLowercase (baseDomain mainDomain)) path ∧
        ((∃ server ∈ path, ∃ info, info.refer = refer ∧ whoisDomain ≠ [] ∧
            answer queryFromServer mainDomain server = .referral info whoisDomain) ∨
          ending queryFromServer mainDomain path = none ∧
            Records (whois.recordAll queryFromServer toLowercase mainDomain path) mainDomains
              whoisDomain refer)

/-- Each referral that the questions record sends the questions of the domain that it covers
to a server with the answers of the root. -/
def RecordsFaithfully (domain : Text) (whois : WhoIs) (questions : List Text) : Prop :=
  ∀ whoisDomain refer, Records toLowercase queryFromServer whois questions whoisDomain refer →
    ∀ mainDomain ∈ mainDomains domain, Covers toLowercase whoisDomain mainDomain →
      SameAnswers queryFromServer mainDomain refer WhoIs.new.rootServer

/-- What the cache gives for the questions of the domain has the answers of the root. -/
structure WhoIs.Faithful (domain : Text) (whois : WhoIs) : Prop where
  rootServer : whois.rootServer = WhoIs.new.rootServer
  remembered : ∀ entry ∈ whois.serverLists, ∀ mainDomain ∈ mainDomains domain,
    entry.1 ∈ cacheNames toLowercase (baseDomain mainDomain) →
      SameAnswers queryFromServer mainDomain entry.2 WhoIs.new.rootServer

end

section

variable {toLowercase : Text → Text} {queryFromServer : Text → Text → Except Text Text}
variable {domain mainDomain : Text} {whois : WhoIs}

/-! ### What a query records -/

theorem mem_recordAll {path : List Text} {entry : Text × Text}
    (member : entry ∈ (whois.recordAll queryFromServer toLowercase mainDomain path).serverLists) :
    entry ∈ whois.serverLists ∨ ∃ server ∈ path, ∃ info whoisDomain, whoisDomain ≠ [] ∧
      answer queryFromServer mainDomain server = .referral info whoisDomain ∧
      entry = (toLowercase whoisDomain, info.refer) := by
  induction path generalizing whois with
  | nil => exact .inl member
  | cons server path inductionHypothesis =>
      rw [WhoIs.recordAll, List.foldl_cons] at member
      rcases inductionHypothesis member with old | ⟨later, listed, rest⟩
      · cases answered : answer queryFromServer mainDomain server with
        | referral info whoisDomain =>
            rw [answered, WhoIs.record] at old
            by_cases named : whoisDomain = []
            · rw [if_neg (not_not.2 named)] at old
              exact .inl old
            · rw [if_pos named, WhoIs.addServer, List.mem_cons] at old
              rcases old with rfl | old
              · exact .inr ⟨server, List.mem_cons_self, info, whoisDomain, named, answered, rfl⟩
              · exact .inl old
        | _ =>
            rw [answered] at old
            exact .inl old
      · exact .inr ⟨later, List.mem_cons_of_mem _ listed, rest⟩

@[simp] theorem rootServer_recordAll (path : List Text) :
    (whois.recordAll queryFromServer toLowercase mainDomain path).rootServer =
      whois.rootServer := by
  induction path generalizing whois with
  | nil => rfl
  | cons server path inductionHypothesis =>
      rw [WhoIs.recordAll, List.foldl_cons]
      refine inductionHypothesis.trans ?_
      cases answer queryFromServer mainDomain server with
      | referral info whoisDomain =>
          rw [WhoIs.record]
          split <;> rfl
      | _ => rfl

theorem Records.exists_referral {questions : List Text} {whoisDomain refer : Text}
    (records : Records toLowercase queryFromServer whois questions whoisDomain refer) :
    ∃ question server info, info.refer = refer ∧
      answer queryFromServer question server = .referral info whoisDomain := by
  induction questions generalizing whois with
  | nil => exact records.elim
  | cons question questions inductionHypothesis =>
      obtain ⟨path, -, ⟨server, -, info, names, -, answered⟩ | ⟨-, later⟩⟩ := records
      · exact ⟨question, server, info, names, answered⟩
      · exact inductionHypothesis later

/-- Where every referral leads to the answers of the root, every record is faithful. -/
theorem recordsFaithfully_of_forall
    (leads : ∀ question server refer, nextServer queryFromServer question server = some refer →
      ∀ mainDomain, SameAnswers queryFromServer mainDomain refer WhoIs.new.rootServer)
    (domain : Text) (whois : WhoIs) (questions : List Text) :
    RecordsFaithfully toLowercase queryFromServer domain whois questions := by
  intro whoisDomain refer records mainDomain _ _
  obtain ⟨question, server, info, rfl, answered⟩ := records.exists_referral
  refine leads question server info.refer ?_ mainDomain
  rw [nextServer, answered]
  rfl

/-- The faithful records of one chain keep the cache faithful. -/
theorem WhoIs.Faithful.recordAll
    (faithful : whois.Faithful toLowercase queryFromServer domain) {path questions : List Text}
    (records : RecordsFaithfully toLowercase queryFromServer domain whois (mainDomain :: questions))
    (chain : Chain (nextServer queryFromServer mainDomain)
      (whois.getServerByDomain toLowercase (baseDomain mainDomain)) path) :
    (whois.recordAll queryFromServer toLowercase mainDomain path).Faithful toLowercase
      queryFromServer domain := by
  refine ⟨(rootServer_recordAll path).trans faithful.rootServer, ?_⟩
  intro entry member question asked covers
  rcases mem_recordAll member with old | ⟨server, listed, info, whoisDomain, named, answered, rfl⟩
  · exact faithful.remembered entry old question asked covers
  · exact records whoisDomain info.refer
      ⟨path, chain, .inl ⟨server, listed, info, rfl, named, answered⟩⟩ question asked covers

theorem RecordsFaithfully.tail {path questions : List Text}
    (records : RecordsFaithfully toLowercase queryFromServer domain whois (mainDomain :: questions))
    (chain : Chain (nextServer queryFromServer mainDomain)
      (whois.getServerByDomain toLowercase (baseDomain mainDomain)) path)
    (ended : ending queryFromServer mainDomain path = none) :
    RecordsFaithfully toLowercase queryFromServer domain
      (whois.recordAll queryFromServer toLowercase mainDomain path) questions :=
  fun whoisDomain refer later => records whoisDomain refer ⟨path, chain, .inr ⟨ended, later⟩⟩

/-- A query that records faithfully keeps the cache faithful. -/
theorem faithful_of_askAll {fuel : Nat} {asked : Text} {questions : List Text} {last : WhoIsInfo}
    {result : WhoIs × Except Text WhoIsInfo}
    (faithful : whois.Faithful toLowercase queryFromServer domain)
    (records : RecordsFaithfully toLowercase queryFromServer domain whois questions)
    (answered : askAll toLowercase queryFromServer fuel asked questions whois last =
      some result) : result.1.Faithful toLowercase queryFromServer domain := by
  induction questions generalizing whois last with
  | nil =>
      cases answered
      exact faithful
  | cons mainDomain questions inductionHypothesis =>
      cases followed : referrals toLowercase queryFromServer asked mainDomain fuel whois last
          (whois.getServerByDomain toLowercase (baseDomain mainDomain)) with
      | none => rw [askAll, followed] at answered; cases answered
      | some reached =>
          obtain ⟨path, chain, short⟩ := chain_of_referrals followed
          have kept := faithful.recordAll records chain
          rw [askAll_cons_of_chain chain short] at answered
          cases ended : ending queryFromServer mainDomain path with
          | some settled =>
              obtain ⟨settledResult, flow⟩ := @flowOf_some asked last
                (lastRegistered queryFromServer mainDomain path) settled
              rw [ended, flow] at answered
              cases answered
              exact kept
          | none =>
              rw [ended, flowOf_none] at answered
              exact inductionHypothesis kept (records.tail chain ended) answered

/-! ### Faithful caches give the same answers -/

theorem SameAnswers.refl (server : Text) :
    SameAnswers queryFromServer mainDomain server server := by
  intro path other chain also
  cases chain.unique also
  exact ⟨rfl, .inr rfl⟩

theorem SameAnswers.flowOf_eq {server other : Text} {path otherPath : List Text}
    (same : SameAnswers queryFromServer mainDomain server other)
    (chain : Chain (nextServer queryFromServer mainDomain) server path)
    (otherChain : Chain (nextServer queryFromServer mainDomain) other otherPath)
    (domain : Text) (last : WhoIsInfo) :
    flowOf domain last (lastRegistered queryFromServer mainDomain path)
        (ending queryFromServer mainDomain path) =
      flowOf domain last (lastRegistered queryFromServer mainDomain otherPath)
        (ending queryFromServer mainDomain otherPath) := by
  obtain ⟨sameEnd, ⟨info, found⟩ | registered⟩ := same path otherPath chain otherChain
  · rw [← sameEnd, found]
    rfl
  · rw [sameEnd, registered]

/-- Where a lookup begins has the answers of the root. -/
theorem WhoIs.Faithful.sameAnswers (faithful : whois.Faithful toLowercase queryFromServer domain)
    (asked : mainDomain ∈ mainDomains domain) :
    SameAnswers queryFromServer mainDomain
      (whois.getServerByDomain toLowercase (baseDomain mainDomain)) WhoIs.new.rootServer := by
  rw [WhoIs.getServerByDomain]
  cases found : (cacheNames toLowercase (baseDomain mainDomain)).findSome? whois.getServer with
  | none =>
      rw [Option.getD_none, faithful.rootServer]
      exact .refl _
  | some server =>
      obtain ⟨name, listed, remembered⟩ := List.exists_of_findSome?_eq_some found
      rw [WhoIs.getServer, List.lookup_eq_some_iff] at remembered
      obtain ⟨newer, older, entries, -⟩ := remembered
      refine faithful.remembered (name, server) ?_ mainDomain asked listed
      rw [entries]
      exact List.mem_append_right _ List.mem_cons_self

theorem faithful_new : WhoIs.new.Faithful toLowercase queryFromServer domain :=
  ⟨rfl, fun _ member => absurd member List.not_mem_nil⟩

/-- From two faithful caches, questions of the domain that record faithfully are answered
alike. -/
theorem askAll_agrees {questions : List Text} {other : WhoIs}
    (terminates : ∀ question server, Ends (nextServer queryFromServer question) server)
    (within : ∀ question ∈ questions, question ∈ mainDomains domain)
    (faithful : whois.Faithful toLowercase queryFromServer domain)
    (otherFaithful : other.Faithful toLowercase queryFromServer domain)
    (records : RecordsFaithfully toLowercase queryFromServer domain whois questions)
    (otherRecords : RecordsFaithfully toLowercase queryFromServer domain other questions)
    (last : WhoIsInfo) :
    ∃ fuel later otherLater result,
      askAll toLowercase queryFromServer fuel domain questions whois last =
        some (later, result) ∧
      askAll toLowercase queryFromServer fuel domain questions other last =
        some (otherLater, result) := by
  induction questions generalizing whois other last with
  | nil => exact ⟨0, whois, other, _, rfl, rfl⟩
  | cons mainDomain questions inductionHypothesis =>
      have asked := within mainDomain List.mem_cons_self
      obtain ⟨path, chain⟩ :=
        terminates mainDomain (whois.getServerByDomain toLowercase (baseDomain mainDomain))
      obtain ⟨otherPath, otherChain⟩ :=
        terminates mainDomain (other.getServerByDomain toLowercase (baseDomain mainDomain))
      obtain ⟨rootPath, rootChain⟩ := terminates mainDomain WhoIs.new.rootServer
      have flow := (faithful.sameAnswers asked).flowOf_eq chain rootChain domain last
      have otherFlow :=
        (otherFaithful.sameAnswers asked).flowOf_eq otherChain rootChain domain last
      have sameEnd := ((faithful.sameAnswers asked) path rootPath chain rootChain).1
      have otherEnd :=
        ((otherFaithful.sameAnswers asked) otherPath rootPath otherChain rootChain).1
      cases ended : ending queryFromServer mainDomain rootPath with
      | some settled =>
          obtain ⟨result, finished⟩ := @flowOf_some domain last
            (lastRegistered queryFromServer mainDomain rootPath) settled
          refine ⟨max path.length otherPath.length,
            whois.recordAll queryFromServer toLowercase mainDomain path,
            other.recordAll queryFromServer toLowercase mainDomain otherPath, result, ?_, ?_⟩
          · rw [askAll_cons_of_chain chain (Nat.le_max_left _ _), flow, ended, finished]
          · rw [askAll_cons_of_chain otherChain (Nat.le_max_right _ _), otherFlow, ended, finished]
      | none =>
          obtain ⟨fuel, later, otherLater, result, answered, otherAnswered⟩ :=
            inductionHypothesis (fun question listed => within question (.tail _ listed))
              (faithful.recordAll records chain) (otherFaithful.recordAll otherRecords otherChain)
              (records.tail chain (sameEnd.trans ended))
              (otherRecords.tail otherChain (otherEnd.trans ended))
              (withLast domain last (lastRegistered queryFromServer mainDomain rootPath))
          refine ⟨max (max path.length otherPath.length) fuel, later, otherLater, result, ?_, ?_⟩
          · rw [askAll_cons_of_chain chain (by omega), flow, ended, flowOf_none]
            exact askAll_mono (Nat.le_max_right _ _) answered
          · rw [askAll_cons_of_chain otherChain (by omega), otherFlow, ended, flowOf_none]
            exact askAll_mono (Nat.le_max_right _ _) otherAnswered

/-! ### Histories -/

theorem queryStep_mono {fuel more : Nat} (enough : fuel ≤ more) {later : WhoIs}
    (stepped : queryStep toLowercase queryFromServer fuel whois domain = some later) :
    queryStep toLowercase queryFromServer more whois domain = some later := by
  rw [queryStep, Option.map_eq_some_iff] at stepped ⊢
  obtain ⟨result, answered, first⟩ := stepped
  exact ⟨result, askAll_mono enough answered, first⟩

/-- Where every chain of referrals ends, every query does. -/
theorem exists_query (terminates : ∀ question server,
      Ends (nextServer queryFromServer question) server) (whois : WhoIs) (domain : Text) :
    ∃ fuel result, query toLowercase queryFromServer fuel whois domain = some result := by
  have never : ∀ questions whois,
      ReferralsNeverReturn queryFromServer toLowercase whois questions := by
    intro questions
    induction questions with
    | nil => exact fun _ => trivial
    | cons question questions inductionHypothesis =>
        exact fun whois => ⟨ends_iff_withoutReturn.1 (terminates question _),
          fun path _ _ => inductionHypothesis _⟩
  exact askAll_returns_iff.2 (never _ whois)

theorem exists_history (terminates : ∀ question server,
      Ends (nextServer queryFromServer question) server) (whois : WhoIs) (history : List Text) :
    ∃ fuel later, run (queryStep toLowercase queryFromServer fuel) whois history =
      some later := by
  induction history generalizing whois with
  | nil => exact ⟨0, whois, rfl⟩
  | cons asked history inductionHypothesis =>
      obtain ⟨fuel, result, answered⟩ := exists_query terminates whois asked
      obtain ⟨more, later, runs⟩ := inductionHypothesis result.1
      refine ⟨max fuel more, later, ?_⟩
      have stepped : queryStep toLowercase queryFromServer fuel whois asked = some result.1 := by
        rw [queryStep, answered]
        rfl
      rw [run_cons, queryStep_mono (Nat.le_max_left _ _) stepped]
      exact run_mono (fun state event next => queryStep_mono (Nat.le_max_right _ _)) runs

end

/-! ### The cache is transparent where its records are faithful -/

/-- For every map of questions and hosts to replies on which the referrals end, every
history of queries and every domain: where the queries of the history, the query after them
and the query without them record faithfully for the domain, the two queries of the domain
return the same result. -/
theorem query_transparent (toLowercase : Text → Text)
    (queryFromServer : Text → Text → Except Text Text)
    (terminates : ∀ question server, Ends (nextServer queryFromServer question) server)
    (history : List Text) (domain : Text)
    (faithful : ∀ fuel, Throughout (queryStep toLowercase queryFromServer fuel)
      (fun whois asked =>
        RecordsFaithfully toLowercase queryFromServer domain whois (mainDomains asked))
      WhoIs.new (history ++ [domain]))
    (alone : RecordsFaithfully toLowercase queryFromServer domain WhoIs.new (mainDomains domain)) :
    ∃ fuel whois later fresh result,
      run (queryStep toLowercase queryFromServer fuel) WhoIs.new history = some whois ∧
      query toLowercase queryFromServer fuel whois domain = some (later, result) ∧
      query toLowercase queryFromServer fuel WhoIs.new domain = some (fresh, result) := by
  obtain ⟨fuel, whois, runs⟩ := @exists_history toLowercase _ terminates WhoIs.new history
  obtain ⟨before, now⟩ := (faithful fuel).split runs
  have kept : whois.Faithful toLowercase queryFromServer domain := by
    refine invariant_of_throughout ?_ faithful_new before runs
    intro state asked next held records stepped
    rw [queryStep, Option.map_eq_some_iff] at stepped
    obtain ⟨result, answered, rfl⟩ := stepped
    exact faithful_of_askAll held records answered
  obtain ⟨more, later, fresh, result, answered, freshAnswered⟩ :=
    askAll_agrees terminates (fun _ listed => listed) kept faithful_new now.1 alone { domain }
  refine ⟨max fuel more, whois, later, fresh, result, ?_, ?_, ?_⟩
  · exact run_mono (fun state event next => queryStep_mono (Nat.le_max_left _ _)) runs
  · exact askAll_mono (Nat.le_max_right _ _) answered
  · exact askAll_mono (Nat.le_max_right _ _) freshAnswered

/-- A registry that answers with an organization, and servers that refer to it. -/
def oneRegistry (_ host : Text) : Except Text Text :=
  if host = "a:43".toList then .ok "Organization: O".toList
  else .ok "domain: com\nrefer: a".toList

theorem nextServer_oneRegistry (question server : Text) :
    nextServer oneRegistry question server =
      if server = [] ∨ server = "a".toList then none else some "a".toList := by
  rw [nextServer, answer]
  by_cases empty : server = []
  · rw [if_pos empty, if_pos (.inl empty)]
    rfl
  have sameHost : server ++ ":43".toList = "a:43".toList ↔ server = "a".toList :=
    @List.append_left_inj Char server "a".toList ":43".toList
  rw [if_neg empty, oneRegistry]
  by_cases registry : server = "a".toList
  · rw [if_pos (sameHost.2 registry), if_pos (.inr registry)]
    have reply : parserWhois "Organization: O".toList =
        ({ organization := "O".toList }, []) := by decide
    simp only [reply]
    rfl
  · have reply : parserWhois "domain: com\nrefer: a".toList =
        ({ refer := "a".toList }, "com".toList) := by decide
    rw [if_neg (mt sameHost.1 registry), if_neg (not_or.2 ⟨empty, registry⟩)]
    simp only [reply, if_neg registry]
    rfl

theorem query_transparent_example :
    ∃ fuel whois later fresh result,
      run (queryStep id oneRegistry fuel) WhoIs.new ["x.com".toList] = some whois ∧
      query id oneRegistry fuel whois "b.com".toList = some (later, result) ∧
      query id oneRegistry fuel WhoIs.new "b.com".toList = some (fresh, result) := by
  have registry : ∀ question,
      Chain (nextServer oneRegistry question) "a".toList ["a".toList] :=
    fun question => .last (nextServer_oneRegistry question "a".toList)
  have root : ∀ question, Chain (nextServer oneRegistry question) WhoIs.new.rootServer
      [WhoIs.new.rootServer, "a".toList] :=
    fun question => .link (nextServer_oneRegistry question _) (registry question)
  have faithful : ∀ whois questions,
      RecordsFaithfully id oneRegistry "b.com".toList whois questions := by
    refine fun whois questions => recordsFaithfully_of_forall ?_ _ whois questions
    intro question server refer leads mainDomain path otherPath chain otherChain
    rw [nextServer_oneRegistry] at leads
    by_cases ends : server = [] ∨ server = "a".toList
    · rw [if_pos ends] at leads
      cases leads
    · rw [if_neg ends] at leads
      cases leads
      cases chain.unique (registry mainDomain)
      cases otherChain.unique (root mainDomain)
      exact ⟨rfl, .inl ⟨_, rfl⟩⟩
  refine query_transparent id oneRegistry ?_ ["x.com".toList] "b.com".toList ?_ (faithful _ _)
  · intro question server
    have next := nextServer_oneRegistry question server
    by_cases ends : server = [] ∨ server = "a".toList
    · exact ends_of_none (next.trans (if_pos ends))
    · exact ⟨_, .link (next.trans (if_neg ends)) (registry question)⟩
  · intro fuel
    refine ⟨faithful _ _, fun next _ => ⟨faithful _ _, fun _ _ => trivial⟩⟩

/-- A server that knows the registrar of every domain and refers to nobody. -/
def registrarOnly (_ _ : Text) : Except Text Text := .ok "domain: com\nRegistrar: R".toList

theorem not_query_transparent :
    ¬ ∀ (toLowercase : Text → Text) (queryFromServer : Text → Text → Except Text Text),
      (∀ question server, Ends (nextServer queryFromServer question) server) →
        ∀ (history : List Text) (domain : Text), ∃ fuel whois later fresh result,
          run (queryStep toLowercase queryFromServer fuel) WhoIs.new history = some whois ∧
          query toLowercase queryFromServer fuel whois domain = some (later, result) ∧
          query toLowercase queryFromServer fuel WhoIs.new domain = some (fresh, result) := by
  intro transparent
  have reply : parserWhois "domain: com\nRegistrar: R".toList =
      ({ registrar := "R".toList }, "com".toList) := by decide
  have ends : ∀ question server, Ends (nextServer registrarOnly question) server := by
    intro question server
    have stops : Ends (nextServer registrarOnly question) [] := ends_of_none rfl
    by_cases empty : server = []
    · rwa [empty]
    refine (ends_iff_of_some ?_).2 stops
    rw [nextServer, answer, if_neg empty]
    simp only [registrarOnly, reply, if_neg empty]
    rfl
  obtain ⟨fuel, whois, later, fresh, result, runs, answered, freshAnswered⟩ :=
    transparent id registrarOnly ends ["b.com".toList] "b.com".toList
  -- the reply without a referral is remembered as an empty server for `com`
  have cached : queryStep id registrarOnly 3 WhoIs.new "b.com".toList =
      some { serverLists := [("com".toList, [])] } := by rfl
  have first : query id registrarOnly 3 WhoIs.new "b.com".toList =
      some ({ serverLists := [("com".toList, [])] },
        .ok { domain := "b.com".toList, registrar := "R".toList }) := by rfl
  have second : query id registrarOnly 3 { serverLists := [("com".toList, [])] } "b.com".toList =
      some ({ serverLists := [("com".toList, [])] }, .error "Cannot find whois.".toList) := by rfl
  obtain ⟨next, stepped, rest⟩ := run_cons_eq_some runs
  cases rest
  cases (queryStep_mono (Nat.le_max_left fuel 3) stepped).symm.trans
    (queryStep_mono (Nat.le_max_right fuel 3) cached)
  cases (askAll_mono (Nat.le_max_left fuel 3) freshAnswered).symm.trans
    (askAll_mono (Nat.le_max_right fuel 3) first)
  cases (askAll_mono (Nat.le_max_left fuel 3) answered).symm.trans
    (askAll_mono (Nat.le_max_right fuel 3) second)

end SmartDnsPlusUi.Whois
