import SmartDnsPlusUi.Server.Whois
import SmartDnsPlusUi.Text.Bytes

/-!
# The server of a domain

The cache of whois servers is searched for the domain in lower case, then without its first
label, and so on.  The labels are cut off at the byte index of the first dot.  The search
ends after as many rounds as the domain has labels, with the longest name that is a key.
-/

namespace SmartDnsPlusUi.Whois

open Text

/-- The loop of `get_server_by_domain`: `none` when the fuel is spent, or when the slice
panics. -/
def WhoIs.getServerByDomainLoop (whois : WhoIs) : Nat → Text → Option Text
  | 0, _ => none
  | fuel + 1, domainTmp =>
      match whois.getServer domainTmp with
      | some server => some server
      | none =>
          match findIndex '.' domainTmp with
          | some index =>
              (sliceFrom domainTmp (index + 1)).bind (whois.getServerByDomainLoop fuel)
          | none => some whois.rootServer

/-- The domain, or what follows one of its dots. -/
def IsLabelSuffix (suffix domain : Text) : Prop :=
  suffix = domain ∨ ∃ before, domain = before ++ '.' :: suffix

/-- The suffix is a key of the cache, and no longer one is. -/
structure WhoIs.IsLongestKey (whois : WhoIs) (domain suffix : Text) : Prop where
  isLabelSuffix : IsLabelSuffix suffix domain
  isKey : whois.getServer suffix ≠ none
  longest : ∀ other, IsLabelSuffix other domain → whois.getServer other ≠ none →
    other.length ≤ suffix.length

/-! ### The names that a domain is looked up by -/

theorem afterDots_of_not_mem {t : Text} (free : '.' ∉ t) : afterDots t = [] := by
  induction t with
  | nil => rfl
  | cons c t inductionHypothesis =>
      rw [List.mem_cons, not_or] at free
      rw [afterDots, if_neg (Ne.symm free.1), inductionHypothesis free.2]

theorem afterDots_append_cons {before : Text} (free : '.' ∉ before) (after : Text) :
    afterDots (before ++ '.' :: after) = after :: afterDots after := by
  induction before with
  | nil => exact if_pos rfl
  | cons c before inductionHypothesis =>
      rw [List.mem_cons, not_or] at free
      rw [List.cons_append, afterDots, if_neg (Ne.symm free.1), inductionHypothesis free.2]

theorem mem_afterDots_iff {suffix t : Text} :
    suffix ∈ afterDots t ↔ ∃ before, t = before ++ '.' :: suffix := by
  induction t with
  | nil => simp [afterDots]
  | cons c t inductionHypothesis =>
      have cut : (∃ before, c :: t = before ++ '.' :: suffix) ↔
          c = '.' ∧ t = suffix ∨ ∃ before, t = before ++ '.' :: suffix := by
        constructor
        · rintro ⟨before, equality⟩
          cases before with
          | nil => exact .inl (List.cons.inj equality)
          | cons d before => exact .inr ⟨before, (List.cons.inj equality).2⟩
        · rintro (⟨rfl, rfl⟩ | ⟨before, rfl⟩)
          · exact ⟨[], rfl⟩
          · exact ⟨c :: before, rfl⟩
      rw [cut, afterDots, ← inductionHypothesis]
      by_cases dot : c = '.'
      · rw [if_pos dot, List.mem_cons, eq_comm]
        simp [dot]
      · rw [if_neg dot]
        simp [dot]

theorem isLabelSuffix_iff {suffix domain : Text} :
    IsLabelSuffix suffix domain ↔ suffix ∈ domain :: afterDots domain := by
  rw [IsLabelSuffix, List.mem_cons, mem_afterDots_iff]

theorem length_le_of_mem_afterDots {suffix t : Text} (member : suffix ∈ afterDots t) :
    suffix.length ≤ t.length := by
  obtain ⟨before, rfl⟩ := mem_afterDots_iff.mp member
  simp only [List.length_append, List.length_cons]
  omega

/-- The names come from the longest one to the shortest. -/
theorem pairwise_length_afterDots (domain : Text) :
    (domain :: afterDots domain).Pairwise fun longer shorter =>
      shorter.length ≤ longer.length := by
  induction domain with
  | nil => exact List.pairwise_singleton _ _
  | cons c t inductionHypothesis =>
      refine List.pairwise_cons.mpr ⟨fun suffix => length_le_of_mem_afterDots, ?_⟩
      rw [afterDots]
      by_cases dot : c = '.'
      · rw [if_pos dot]
        exact inductionHypothesis
      · rw [if_neg dot]
        exact (List.pairwise_cons.mp inductionHypothesis).2

/-! ### The loop -/

/-- Every round cuts one dot off, and the slice never panics. -/
theorem getServerByDomainLoop_eq (whois : WhoIs) {fuel : Nat} {domainTmp : Text}
    (enough : domainTmp.count '.' < fuel) :
    whois.getServerByDomainLoop fuel domainTmp =
      some (((domainTmp :: afterDots domainTmp).findSome? whois.getServer).getD
        whois.rootServer) := by
  induction fuel generalizing domainTmp with
  | zero => exact absurd enough (Nat.not_lt_zero _)
  | succ fuel inductionHypothesis =>
      rw [WhoIs.getServerByDomainLoop, List.findSome?_cons]
      cases whois.getServer domainTmp with
      | some server => rfl
      | none =>
          by_cases dot : '.' ∈ domainTmp
          · obtain ⟨before, after, rfl, free⟩ := List.eq_append_cons_of_mem dot
            obtain ⟨index, found, slice⟩ := sliceFrom_findIndex (by decide) free after
            rw [List.count_append, List.count_cons_self] at enough
            have fewer : after.count '.' < fuel := by omega
            simp only [found, slice, Option.bind_some, afterDots_append_cons free]
            exact inductionHypothesis fewer
          · simp only [findIndex_eq_none_iff.mpr dot, afterDots_of_not_mem dot]
            rfl

theorem getServerByDomainLoop_toLowercase (toLowercase : Text → Text) (whois : WhoIs)
    (domain : Text) {fuel : Nat} (enough : (toLowercase domain).count '.' < fuel) :
    whois.getServerByDomainLoop fuel (toLowercase domain) =
      some (whois.getServerByDomain toLowercase domain) :=
  getServerByDomainLoop_eq whois enough

/-- The first key among the names is the longest one. -/
theorem isLongestKey_of_findSome? {whois : WhoIs} {domain server : Text}
    (found : (domain :: afterDots domain).findSome? whois.getServer = some server) :
    ∃ suffix, whois.IsLongestKey domain suffix ∧ whois.getServer suffix = some server := by
  obtain ⟨longer, suffix, shorter, names, stored, missed⟩ := List.findSome?_eq_some_iff.mp found
  have ordered := pairwise_length_afterDots domain
  rw [names] at ordered
  refine ⟨suffix, ⟨?_, ?_, ?_⟩, stored⟩
  · rw [isLabelSuffix_iff, names]
    exact List.mem_append_right _ List.mem_cons_self
  · rw [stored]
    exact Option.some_ne_none server
  · intro other isSuffix isKey
    rw [isLabelSuffix_iff, names, List.mem_append, List.mem_cons] at isSuffix
    rcases isSuffix with before | rfl | behind
    · exact absurd (missed other before) isKey
    · exact Nat.le_refl _
    · exact (List.pairwise_cons.mp (List.pairwise_append.mp ordered).2.1).1 other behind

/-- For every cache and every domain: after one round for each label the loop returns the
server of the longest suffix at a label that is a key, or the root server when none is. -/
theorem getServerByDomain_longest (toLowercase : Text → Text) (whois : WhoIs) (domain : Text) :
    ∃ server,
      (∀ fuel, (toLowercase domain).count '.' < fuel →
        whois.getServerByDomainLoop fuel (toLowercase domain) = some server) ∧
      ((∃ suffix, whois.IsLongestKey (toLowercase domain) suffix ∧
          whois.getServer suffix = some server) ∨
        (∀ suffix, IsLabelSuffix suffix (toLowercase domain) → whois.getServer suffix = none) ∧
          server = whois.rootServer) := by
  refine ⟨whois.getServerByDomain toLowercase domain,
    fun fuel => getServerByDomainLoop_toLowercase toLowercase whois domain, ?_⟩
  cases found : (cacheNames toLowercase domain).findSome? whois.getServer with
  | some server =>
      rw [WhoIs.getServerByDomain, found]
      exact .inl (isLongestKey_of_findSome? found)
  | none =>
      rw [WhoIs.getServerByDomain, found]
      refine .inr ⟨fun suffix isSuffix => ?_, rfl⟩
      exact List.findSome?_eq_none_iff.mp found suffix (isLabelSuffix_iff.mp isSuffix)

end SmartDnsPlusUi.Whois
