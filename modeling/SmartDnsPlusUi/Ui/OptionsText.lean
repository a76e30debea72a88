import Mathlib.Data.List.Nodup
import Mathlib.Data.List.Perm.Subperm
import Mathlib.Logic.Function.Basic
import SmartDnsPlusUi.Ui.UpstreamsText

/-!
# The options of an upstream server in the edit form

The page takes the options of an upstream server apart into input elements, and writes them
again from what the elements hold.
-/

namespace SmartDnsPlusUi

open Text

/-! ### Tokens -/

/-- The text is a single token. -/
def IsArgument (t : Text) : Prop := tokenizeArgs t = [t]

instance (t : Text) : Decidable (IsArgument t) := inferInstanceAs (Decidable (_ = _))

theorem length_endToken (token : Text) : (endToken token).flatten.length = token.length := by
  by_cases empty : token = [] <;> simp [endToken, empty]

theorem length_scanTokens (token : Text) (quoted : Bool) (t : Text) :
    (scanTokens token quoted t).flatten.length ≤ token.length + t.length := by
  induction t generalizing token quoted with
  | nil =>
      rw [scanTokens, length_endToken]
      exact Nat.le_add_right _ _
  | cons c t inductionHypothesis =>
      unfold scanTokens
      have longer := inductionHypothesis (token ++ [c])
      have restart := inductionHypothesis [] false
      have ended := length_endToken token
      simp only [List.length_append, List.length_cons, List.length_nil] at longer restart
      split_ifs
      · have within := longer (decide (c ≠ '"'))
        simp only [List.length_cons]
        omega
      · have within := longer true
        simp only [List.length_cons]
        omega
      · simp only [List.flatten_append, List.length_append, List.length_cons]
        omega
      · simp only [List.flatten_append, List.length_append, List.length_cons]
        omega
      · have within := longer false
        simp only [List.length_cons]
        omega

/-- A token ends at a space. -/
theorem scanTokens_append_space {token t : Text} {quoted : Bool}
    (one : scanTokens token quoted t = [token ++ t]) (closed : quoted = true → '"' ∈ t)
    (rest : Text) :
    scanTokens token quoted (t ++ ' ' :: rest) = (token ++ t) :: tokenizeArgs rest := by
  induction t generalizing token quoted with
  | nil =>
      have outside : quoted = false := by
        by_contra inside
        simpa using closed (Bool.eq_true_of_not_eq_false inside)
      subst outside
      rw [List.append_nil] at one ⊢
      have space : isScriptSpace ' ' = true := by decide
      have apart : (' ' : Char) ≠ '"' := by decide
      simp only [List.nil_append, scanTokens, Bool.false_eq_true, if_false, apart, space, if_true]
      rw [scanTokens] at one
      rw [one]
      rfl
  | cons c t inductionHypothesis =>
      have shape : token ++ c :: t = (token ++ [c]) ++ t := by simp
      -- A token that ended here would leave the character out.
      have goesOn : endToken token ++ scanTokens [] false t ≠ [token ++ c :: t] := by
        intro same
        have lengths := congrArg (fun tokens : List Text => tokens.flatten.length) same
        have bound := length_scanTokens [] false t
        have ended := length_endToken token
        simp only [List.flatten_append, List.length_append, List.flatten_cons, List.flatten_nil,
          List.append_nil, List.length_cons, List.length_nil] at lengths bound
        omega
      rw [shape] at one ⊢
      unfold scanTokens at one
      rw [List.cons_append, scanTokens]
      by_cases inside : quoted = true
      · rw [if_pos inside] at one ⊢
        apply inductionHypothesis one
        intro still
        rcases List.mem_cons.mp (closed inside) with quote | later
        · exact absurd quote.symm (of_decide_eq_true still)
        · exact later
      · rw [if_neg inside] at one ⊢
        by_cases quote : c = '"'
        · rw [if_pos quote] at one ⊢
          by_cases closes : '"' ∈ t
          · rw [if_pos closes] at one
            rw [if_pos (List.mem_append_left _ closes)]
            exact inductionHypothesis one fun _ => closes
          · rw [if_neg closes, ← shape] at one
            exact absurd one goesOn
        · rw [if_neg quote] at one ⊢
          by_cases space : isScriptSpace c = true
          · rw [if_pos space, ← shape] at one
            exact absurd one goesOn
          · rw [if_neg space] at one ⊢
            exact inductionHypothesis one (by simp)

theorem IsArgument.ne_nil {t : Text} (argument : IsArgument t) : t ≠ [] := by
  rintro rfl
  cases argument

theorem tokenizeArgs_join {tokens : List Text} (arguments : ∀ token ∈ tokens, IsArgument token) :
    tokenizeArgs (join [' '] tokens) = tokens := by
  induction tokens with
  | nil => rfl
  | cons token rest inductionHypothesis =>
      have one := arguments token List.mem_cons_self
      have later := inductionHypothesis fun other among =>
        arguments other (List.mem_cons_of_mem _ among)
      by_cases last : rest = []
      · subst last
        rw [join_singleton]
        exact one
      · rw [join_space_cons token last]
        have split := @scanTokens_append_space [] _ false one nofun (join [' '] rest)
        rw [tokenizeArgs, split, later, List.nil_append]

/-- What the scanner knows of the text before: it is in the middle of a token. -/
def HasScanned (token : Text) (quoted : Bool) : Prop :=
  ∀ t, (quoted = true → '"' ∈ t) → tokenizeArgs (token ++ t) = scanTokens token quoted t

theorem isArgument_of_mem_scanTokens {token t : Text} {quoted : Bool}
    (scanned : HasScanned token quoted) (closed : quoted = true → '"' ∈ t) :
    ∀ other ∈ scanTokens token quoted t, IsArgument other := by
  have ended : ∀ {token : Text}, HasScanned token false →
      ∀ other ∈ endToken token, IsArgument other := by
    intro token scanned other listed
    unfold endToken at listed
    split_ifs at listed with empty
    · cases listed
    · rw [List.mem_singleton.mp listed]
      have whole := scanned [] nofun
      rwa [List.append_nil, scanTokens, endToken, if_neg empty] at whole
  induction t generalizing token quoted with
  | nil =>
      have outside : quoted = false := by
        by_contra inside
        simpa using closed (Bool.eq_true_of_not_eq_false inside)
      subst outside
      exact ended scanned
  | cons c t inductionHypothesis =>
      have shape (later : Text) : (token ++ [c]) ++ later = token ++ c :: later := by simp
      have restarted := @inductionHypothesis [] false (fun _ _ => rfl) nofun
      rw [scanTokens]
      by_cases inside : quoted = true
      · subst inside
        rw [if_pos rfl]
        apply inductionHypothesis
        · intro later closes
          rw [shape, scanned (c :: later) ?_, scanTokens, if_pos rfl]
          intro _
          by_cases quote : c = '"'
          · exact quote ▸ List.mem_cons_self
          · exact List.mem_cons_of_mem _ (closes (decide_eq_true quote))
        · intro still
          rcases List.mem_cons.mp (closed rfl) with quote | later
          · exact absurd quote.symm (of_decide_eq_true still)
          · exact later
      · have outside : quoted = false := Bool.eq_false_of_not_eq_true inside
        subst outside
        rw [if_neg inside]
        by_cases quote : c = '"'
        · rw [if_pos quote]
          by_cases closes : '"' ∈ t
          · rw [if_pos closes]
            apply inductionHypothesis
            · intro later closesLater
              rw [shape, scanned (c :: later) nofun, scanTokens, if_neg inside, if_pos quote,
                if_pos (closesLater rfl)]
            · exact fun _ => closes
          · rw [if_neg closes]
            intro other listed
            rcases List.mem_append.mp listed with first | later
            · exact ended scanned other first
            · exact restarted other later
        · rw [if_neg quote]
          by_cases space : isScriptSpace c = true
          · rw [if_pos space]
            intro other listed
            rcases List.mem_append.mp listed with first | later
            · exact ended scanned other first
            · exact restarted other later
          · rw [if_neg space]
            apply inductionHypothesis
            · intro later _
              rw [shape, scanned (c :: later) nofun, scanTokens, if_neg inside, if_neg quote,
                if_neg space]
            · nofun

theorem isArgument_of_mem_tokenizeArgs {t token : Text} (listed : token ∈ tokenizeArgs t) :
    IsArgument token :=
  isArgument_of_mem_scanTokens (fun _ _ => rfl) nofun token listed

/-! ### Tokens are trimmed -/

theorem scanTokens_append_spaces {token t spaces : Text} {quoted : Bool}
    (blank : ∀ c ∈ spaces, isScriptSpace c = true) (closed : quoted = true → '"' ∈ t) :
    scanTokens token quoted (t ++ spaces) = scanTokens token quoted t := by
  have noQuote : '"' ∉ spaces := fun listed => absurd (blank _ listed) (by decide)
  induction t generalizing token quoted with
  | nil =>
      have outside : quoted = false := by
        by_contra inside
        simpa using closed (Bool.eq_true_of_not_eq_false inside)
      subst outside
      rw [List.nil_append]
      induction spaces generalizing token with
      | nil => rfl
      | cons c spaces inductionHypothesis =>
          rw [List.forall_mem_cons] at blank
          have apart : c ≠ '"' := fun quote => noQuote (quote ▸ List.mem_cons_self)
          simp only [scanTokens, Bool.false_eq_true, if_false, apart, blank.1, if_true]
          rw [inductionHypothesis blank.2 fun listed => noQuote (List.mem_cons_of_mem _ listed)]
          exact List.append_nil _
  | cons c t inductionHypothesis =>
      rw [List.cons_append, scanTokens, scanTokens]
      have closes : '"' ∈ t ++ spaces ↔ '"' ∈ t := by simp [noQuote]
      by_cases inside : quoted = true
      · rw [if_pos inside, if_pos inside]
        apply inductionHypothesis
        intro still
        rcases List.mem_cons.mp (closed inside) with quote | later
        · exact absurd quote.symm (of_decide_eq_true still)
        · exact later
      · have outside (token : Text) :
            scanTokens token false (t ++ spaces) = scanTokens token false t :=
          inductionHypothesis (by simp)
        rw [if_neg inside, if_neg inside, outside, outside]
        simp only [closes]
        by_cases opens : '"' ∈ t
        · rw [inductionHypothesis fun _ => opens]
        · rw [if_neg opens, if_neg opens]

theorem scanTokens_of_spaces {spaces : Text} (blank : ∀ c ∈ spaces, isScriptSpace c = true)
    (t : Text) : tokenizeArgs (spaces ++ t) = tokenizeArgs t := by
  induction spaces with
  | nil => rfl
  | cons c spaces inductionHypothesis =>
      rw [List.forall_mem_cons] at blank
      have apart : c ≠ '"' := by
        rintro rfl
        exact absurd blank.1 (by decide)
      rw [tokenizeArgs, List.cons_append]
      simp only [scanTokens, Bool.false_eq_true, if_false, apart, blank.1, if_true]
      exact inductionHypothesis blank.2

theorem tokenizeArgs_scriptTrim (t : Text) : tokenizeArgs (scriptTrim t) = tokenizeArgs t := by
  obtain ⟨before, behind, blank, blank', split⟩ := scriptTrim_split t
  conv_rhs => rw [split, List.append_assoc]
  rw [scanTokens_of_spaces blank]
  exact (scanTokens_append_spaces blank' (by simp)).symm

theorem IsArgument.scriptTrim_eq {t : Text} (argument : IsArgument t) : scriptTrim t = t := by
  have short := length_scanTokens [] false (scriptTrim t)
  have same : scanTokens [] false (scriptTrim t) = [t] :=
    (tokenizeArgs_scriptTrim t).trans argument
  rw [same] at short
  apply (scriptTrim_isInfix t).eq_of_length_le
  simpa using short

/-- The text neither begins nor ends with white space. -/
theorem scriptTrim_eq_self_iff {t : Text} :
    scriptTrim t = t ↔ (∀ c ∈ t.head?, isScriptSpace c = false) ∧
      ∀ c ∈ t.getLast?, isScriptSpace c = false := by
  constructor
  · intro same
    have kept : t.dropWhile isScriptSpace = t := by
      apply (List.dropWhile_suffix _).eq_of_length_le
      have short := (List.rdropWhile_prefix isScriptSpace (l := t.dropWhile isScriptSpace)).length_le
      rwa [show List.rdropWhile isScriptSpace (t.dropWhile isScriptSpace) = t from same] at short
    have keptBehind : t.rdropWhile isScriptSpace = t := by
      have trimmed := same
      rwa [scriptTrim, kept] at trimmed
    constructor
    · intro c first
      cases t with
      | nil => cases first
      | cons d rest =>
          obtain rfl := Option.some.inj first
          by_contra space
          rw [List.dropWhile_cons_of_pos (Bool.eq_true_of_not_eq_false space)] at kept
          have short := (List.dropWhile_suffix (l := rest) isScriptSpace).length_le
          rw [kept] at short
          exact absurd short (by simp)
    · intro c last
      have nonempty : t ≠ [] := by
        rintro rfl
        cases last
      have ends := List.rdropWhile_eq_self_iff.mp keptBehind nonempty
      rw [List.getLast?_eq_some_getLast nonempty] at last
      rw [Option.some.inj last] at ends
      exact Bool.eq_false_of_not_eq_true ends
  · rintro ⟨first, last⟩
    have kept : t.dropWhile isScriptSpace = t := by
      cases t with
      | nil => rfl
      | cons c t => exact List.dropWhile_cons_of_neg (by simp [first c rfl])
    rw [scriptTrim, kept]
    apply List.rdropWhile_eq_self_iff.mpr
    intro nonempty space
    rw [last _ (List.getLast?_eq_some_getLast nonempty)] at space
    cases space

theorem scriptTrim_scriptTrim (t : Text) : scriptTrim (scriptTrim t) = scriptTrim t := by
  have kept : (scriptTrim t).dropWhile isScriptSpace = scriptTrim t := by
    cases trimmed : scriptTrim t with
    | nil => rfl
    | cons c rest =>
        apply List.dropWhile_cons_of_neg
        intro space
        obtain ⟨behind, split⟩ := List.rdropWhile_prefix isScriptSpace (l := t.dropWhile isScriptSpace)
        have same : List.rdropWhile isScriptSpace (t.dropWhile isScriptSpace) = c :: rest := trimmed
        rw [same, List.cons_append] at split
        have first := List.head?_dropWhile_not isScriptSpace t
        rw [← split] at first
        simp [space] at first
  rw [scriptTrim, kept]
  exact List.rdropWhile_idempotent _ _

theorem scriptTrim_join {tokens : List Text} (arguments : ∀ token ∈ tokens, IsArgument token) :
    scriptTrim (join [' '] tokens) = join [' '] tokens := by
  induction tokens with
  | nil => rfl
  | cons token rest inductionHypothesis =>
      have one := arguments token List.mem_cons_self
      have later := inductionHypothesis fun other among =>
        arguments other (List.mem_cons_of_mem _ among)
      by_cases last : rest = []
      · subst last
        rw [join_singleton]
        exact one.scriptTrim_eq
      · have nonempty : join [' '] rest ≠ [] :=
          join_full_ne_nil [' '] (fun other among =>
            (arguments other (List.mem_cons_of_mem _ among)).ne_nil) last
        rw [scriptTrim_eq_self_iff] at later ⊢
        have ends := scriptTrim_eq_self_iff.mp one.scriptTrim_eq
        rw [join_space_cons token last]
        constructor
        · rw [List.head?_append_of_ne_nil _ one.ne_nil]
          exact ends.1
        · rw [List.getLast?_append_of_ne_nil _ (List.cons_ne_nil _ _),
            List.getLast?_cons_of_ne_nil nonempty]
          exact later.2

/-! ### Taking options apart -/

/-- The input elements for the argument of an option. -/
inductive OptionInput
  | httpHost
  | tlsSni
  | spkiPin
  | iface
  | setMark
  | blacklistIp
  | whitelistIp
  | tcpKa
  deriving DecidableEq

namespace OptionInput

/-- In the order in which the options are written. -/
def all : List OptionInput :=
  [httpHost, tlsSni, spkiPin, iface, setMark, blacklistIp, whitelistIp, tcpKa]

def flag : OptionInput → Text
  | httpHost => "-http-host"
  | tlsSni => "-host-name"
  | spkiPin => "-spki-pin"
  | iface => "-interface"
  | setMark => "-set-mark"
  | blacklistIp => "-blacklist-ip"
  | whitelistIp => "-whitelist-ip"
  | tcpKa => "-tcp-keepalive"

end OptionInput

def tlsHostVerifyFlag : Text := "-tls-host-verify"

def noCheckCertFlag : Text := "-no-check-certificate"

@[ext] structure UpOpts where
  argument : OptionInput → Text := fun _ => []
  tlsHostVerify : Bool := false
  noCheckCert : Bool := false
  extra : Text := []

/-- The option whose argument is the next token, if there is one. -/
def inputOf (token : Text) : Option OptionInput :=
  OptionInput.all.find? fun input => decide (input.flag = token)

/-- A token that is no option with an argument. -/
def addToken (o : UpOpts) (token : Text) : UpOpts :=
  if token = tlsHostVerifyFlag then { o with tlsHostVerify := true }
  else if token = noCheckCertFlag then { o with noCheckCert := true }
  else { o with extra := o.extra ++ (if o.extra = [] then [] else [' ']) ++ token }

/-- The loop of `parseUpOpts`.  No token is empty, so that `tokens[i+1]` is false behind the
last token only. -/
def scanUpOpts (o : UpOpts) : List Text → UpOpts
  | [] => o
  | [token] => addToken o token
  | token :: next :: rest =>
      match inputOf token with
      | some input =>
          scanUpOpts { o with argument := Function.update o.argument input next } rest
      | none => scanUpOpts (addToken o token) (next :: rest)

def parseUpOpts (opts : Text) : UpOpts := scanUpOpts {} (tokenizeArgs opts)

/-- What an input element contributes. -/
def argumentText (o : UpOpts) (input : OptionInput) : Text :=
  let value := scriptTrim (o.argument input)
  if value = [] then [] else input.flag ++ [' '] ++ value

/-- The options that are saved. -/
def renderUpOpts (o : UpOpts) : Text :=
  join [' '] ((OptionInput.all.map (argumentText o) ++
    [if o.tlsHostVerify then tlsHostVerifyFlag else [],
      if o.noCheckCert then noCheckCertFlag else [], scriptTrim o.extra]).filter (· ≠ []))

def UpOpts.trimmed (o : UpOpts) : UpOpts :=
  { o with
    argument := fun input => scriptTrim (o.argument input)
    extra := scriptTrim o.extra }

/-! ### The options as a list -/

/-- The options that have an element of their own. -/
inductive KnownOption
  | argument (input : OptionInput)
  | tlsHostVerify
  | noCheckCert
  deriving DecidableEq

inductive UpOption
  | argument (input : OptionInput) (value : Text)
  | tlsHostVerify
  | noCheckCert
  | other (token : Text)
  deriving DecidableEq

namespace UpOption

def tokens : UpOption → List Text
  | argument input value => [input.flag, value]
  | tlsHostVerify => [tlsHostVerifyFlag]
  | noCheckCert => [noCheckCertFlag]
  | other token => [token]

def known : UpOption → Option KnownOption
  | argument input _ => some (.argument input)
  | tlsHostVerify => some .tlsHostVerify
  | noCheckCert => some .noCheckCert
  | other _ => none

def token : UpOption → Option Text
  | other token => some token
  | _ => none

def ofToken (token : Text) : UpOption :=
  if token = tlsHostVerifyFlag then tlsHostVerify
  else if token = noCheckCertFlag then noCheckCert
  else other token

/-- The effect on what the elements hold. -/
def apply (o : UpOpts) : UpOption → UpOpts
  | argument input value => { o with argument := Function.update o.argument input value }
  | tlsHostVerify => { o with tlsHostVerify := true }
  | noCheckCert => { o with noCheckCert := true }
  | other token => { o with extra := o.extra ++ (if o.extra = [] then [] else [' ']) ++ token }

end UpOption

/-- The options that a list of tokens gives. -/
def readUpOptions : List Text → List UpOption
  | [] => []
  | [token] => [.ofToken token]
  | token :: next :: rest =>
      match inputOf token with
      | some input => .argument input next :: readUpOptions rest
      | none => .ofToken token :: readUpOptions (next :: rest)

theorem apply_ofToken (o : UpOpts) (token : Text) :
    UpOption.apply o (.ofToken token) = addToken o token := by
  unfold UpOption.ofToken addToken
  by_cases verify : token = tlsHostVerifyFlag
  · rw [if_pos verify, if_pos verify]
    rfl
  · rw [if_neg verify, if_neg verify]
    by_cases noCheck : token = noCheckCertFlag
    · rw [if_pos noCheck, if_pos noCheck]
      rfl
    · rw [if_neg noCheck, if_neg noCheck]
      rfl

theorem tokens_ofToken (token : Text) : (UpOption.ofToken token).tokens = [token] := by
  unfold UpOption.ofToken
  split_ifs with verify noCheck
  · rw [verify]
    rfl
  · rw [noCheck]
    rfl
  · rfl

theorem flag_of_inputOf {token : Text} {input : OptionInput} (found : inputOf token = some input) :
    input.flag = token := by
  unfold inputOf at found
  have met := List.find?_some found
  exact of_decide_eq_true met

theorem inputOf_flag (input : OptionInput) : inputOf input.flag = some input := by
  cases input <;> decide

/-- The loop carries out the options one after the other. -/
theorem scanUpOpts_eq (o : UpOpts) (tokens : List Text) :
    scanUpOpts o tokens = (readUpOptions tokens).foldl UpOption.apply o := by
  fun_induction scanUpOpts o tokens with
  | case1 o => rfl
  | case2 o token => exact (apply_ofToken o token).symm
  | case3 o token next rest input found inductionHypothesis =>
      rw [inductionHypothesis, readUpOptions, found]
      rfl
  | case4 o token next rest missing inductionHypothesis =>
      rw [inductionHypothesis, readUpOptions, missing, ← apply_ofToken]
      rfl

/-- No token is lost. -/
theorem flatMap_tokens_readUpOptions (tokens : List Text) :
    (readUpOptions tokens).flatMap UpOption.tokens = tokens := by
  fun_induction readUpOptions tokens with
  | case1 => rfl
  | case2 token => simp [tokens_ofToken]
  | case3 token next rest input found inductionHypothesis =>
      rw [List.flatMap_cons, inductionHypothesis]
      simp [UpOption.tokens, flag_of_inputOf found]
  | case4 token next rest missing inductionHypothesis =>
      rw [List.flatMap_cons, inductionHypothesis, tokens_ofToken]
      rfl

/-! ### What the elements hold -/

/-- The tokens are read as they stand. -/
def IsPassive (tokens : List Text) : Prop := readUpOptions tokens = tokens.map .other

/-- The last argument given to an option. -/
def lastGiven (input : OptionInput) (options : List UpOption) : Option Text :=
  (options.filterMap fun option =>
    match option with
    | .argument other value => if other = input then some value else none
    | _ => none).getLast?

theorem isPassive_others (tokens : List Text) :
    IsPassive ((readUpOptions tokens).filterMap UpOption.token) := by
  have others (token : Text) : (UpOption.ofToken token).token = none ∨
      (UpOption.ofToken token = .other token) := by
    unfold UpOption.ofToken
    split_ifs
    · exact Or.inl rfl
    · exact Or.inl rfl
    · exact Or.inr rfl
  fun_induction readUpOptions tokens with
  | case1 => rfl
  | case2 token =>
      rcases others token with none | other
      · simp [none, IsPassive, readUpOptions]
      · simp only [other, UpOption.token, List.filterMap_cons, List.filterMap_nil]
        rw [IsPassive, readUpOptions, other]
        rfl
  | case3 token next rest input found inductionHypothesis => exact inductionHypothesis
  | case4 token next rest missing inductionHypothesis =>
      rcases others token with none | other
      · rw [List.filterMap_cons_none none]
        exact inductionHypothesis
      · rw [List.filterMap_cons_some (b := token) (by rw [other]; rfl)]
        unfold IsPassive at inductionHypothesis ⊢
        cases passed : (readUpOptions (next :: rest)).filterMap UpOption.token with
        | nil => rw [readUpOptions, other]; rfl
        | cons second others =>
            rw [passed] at inductionHypothesis
            rw [readUpOptions, missing, inductionHypothesis, other]
            rfl

theorem argument_foldl_apply (options : List UpOption) (o : UpOpts) (input : OptionInput) :
    (options.foldl UpOption.apply o).argument input =
      (lastGiven input options).getD (o.argument input) := by
  induction options using List.reverseRecOn with
  | nil => rfl
  | append_singleton options option inductionHypothesis =>
      rw [List.foldl_append, List.foldl_cons, List.foldl_nil, lastGiven, List.filterMap_append]
      cases option with
      | argument other value =>
          by_cases same : other = input
          · subst same
            simp [UpOption.apply]
          · have elsewhere : input ≠ other := fun equal => same equal.symm
            simp [UpOption.apply, same, elsewhere, inductionHypothesis, lastGiven]
      | tlsHostVerify => simpa [UpOption.apply, lastGiven] using inductionHypothesis
      | noCheckCert => simpa [UpOption.apply, lastGiven] using inductionHypothesis
      | other token => simpa [UpOption.apply, lastGiven] using inductionHypothesis

theorem tlsHostVerify_foldl_apply (options : List UpOption) (o : UpOpts) :
    (options.foldl UpOption.apply o).tlsHostVerify =
      (o.tlsHostVerify || decide (.tlsHostVerify ∈ options)) := by
  induction options generalizing o with
  | nil => simp
  | cons option options inductionHypothesis =>
      rw [List.foldl_cons, inductionHypothesis]
      cases option <;> simp [UpOption.apply]

theorem noCheckCert_foldl_apply (options : List UpOption) (o : UpOpts) :
    (options.foldl UpOption.apply o).noCheckCert =
      (o.noCheckCert || decide (.noCheckCert ∈ options)) := by
  induction options generalizing o with
  | nil => simp
  | cons option options inductionHypothesis =>
      rw [List.foldl_cons, inductionHypothesis]
      cases option <;> simp [UpOption.apply]

theorem extra_foldl_apply {options : List UpOption} {o : UpOpts} {tokens : List Text}
    (held : o.extra = join [' '] tokens) (full : ∀ token ∈ tokens, token ≠ [])
    (full' : ∀ token ∈ options.filterMap UpOption.token, token ≠ []) :
    (options.foldl UpOption.apply o).extra =
      join [' '] (tokens ++ options.filterMap UpOption.token) := by
  induction options generalizing o tokens with
  | nil => simpa using held
  | cons option options inductionHypothesis =>
      cases option with
      | argument input value => exact inductionHypothesis held full full'
      | tlsHostVerify => exact inductionHypothesis held full full'
      | noCheckCert => exact inductionHypothesis held full full'
      | other token =>
          have shape : tokens ++ (UpOption.other token :: options).filterMap UpOption.token =
              (tokens ++ [token]) ++ options.filterMap UpOption.token := by
            simp [UpOption.token]
          have nonempty := full' token (by simp [UpOption.token])
          rw [List.foldl_cons, shape]
          apply inductionHypothesis
          · by_cases first : tokens = []
            · subst first
              simp [UpOption.apply, held, join]
            · have begun := join_full_ne_nil [' '] full first
              simp only [UpOption.apply, held, if_neg begun]
              rw [join_append_of_ne_nil _ first (by simp), join_singleton]
          · intro other listed
            rcases List.mem_append.mp listed with before | last
            · exact full other before
            · rwa [List.mem_singleton.mp last]
          · exact fun other listed => full' other (List.mem_cons_of_mem _ listed)

/-- What the elements can hold after options are taken apart. -/
structure HoldsOptions (o : UpOpts) : Prop where
  argument : ∀ input, o.argument input = [] ∨ IsArgument (o.argument input)
  extra : ∃ tokens, (∀ token ∈ tokens, IsArgument token) ∧ IsPassive tokens ∧
    o.extra = join [' '] tokens

/-- Every token of an option is one of the text. -/
theorem mem_of_mem_tokens {tokens : List Text} {option : UpOption} {token : Text}
    (listed : option ∈ readUpOptions tokens) (inside : token ∈ option.tokens) : token ∈ tokens := by
  rw [← flatMap_tokens_readUpOptions tokens]
  exact List.mem_flatMap.mpr ⟨option, listed, inside⟩

theorem lastGiven_mem {input : OptionInput} {options : List UpOption} {value : Text}
    (given : lastGiven input options = some value) : .argument input value ∈ options := by
  obtain ⟨option, listed, found⟩ := List.mem_filterMap.mp (List.mem_of_getLast? given)
  cases option with
  | argument other argument =>
      by_cases same : other = input
      · subst same
        simp only [if_true, Option.some.injEq] at found
        exact found ▸ listed
      · simp [same] at found
  | tlsHostVerify => cases found
  | noCheckCert => cases found
  | other token => cases found

theorem token_eq_some {option : UpOption} {token : Text} (found : option.token = some token) :
    option = .other token := by
  cases option with
  | other text => exact congrArg UpOption.other (Option.some.inj found)
  | argument input value => cases found
  | tlsHostVerify => cases found
  | noCheckCert => cases found

theorem holdsOptions_scanUpOpts {tokens : List Text}
    (arguments : ∀ token ∈ tokens, IsArgument token) : HoldsOptions (scanUpOpts {} tokens) := by
  have others : ∀ token ∈ (readUpOptions tokens).filterMap UpOption.token, IsArgument token := by
    intro token listed
    obtain ⟨option, given, found⟩ := List.mem_filterMap.mp listed
    rw [token_eq_some found] at given
    exact arguments token (mem_of_mem_tokens given List.mem_cons_self)
  rw [scanUpOpts_eq]
  constructor
  · intro input
    rw [argument_foldl_apply]
    cases given : lastGiven input (readUpOptions tokens) with
    | none => exact Or.inl rfl
    | some value =>
        have listed := lastGiven_mem given
        refine Or.inr (arguments value (mem_of_mem_tokens listed ?_))
        simp [UpOption.tokens]
  · refine ⟨_, others, isPassive_others tokens, ?_⟩
    exact @extra_foldl_apply _ _ [] rfl nofun fun token listed => (others token listed).ne_nil

theorem holdsOptions_parseUpOpts (opts : Text) : HoldsOptions (parseUpOpts opts) :=
  holdsOptions_scanUpOpts fun _ => isArgument_of_mem_tokenizeArgs

theorem HoldsOptions.trimmed_eq {o : UpOpts} (holds : HoldsOptions o) : o.trimmed = o := by
  obtain ⟨tokens, arguments, -, extra⟩ := holds.extra
  have argument : (fun input => scriptTrim (o.argument input)) = o.argument := by
    funext input
    rcases holds.argument input with empty | one
    · rw [empty]
      rfl
    · exact one.scriptTrim_eq
  have rest : scriptTrim o.extra = o.extra := by
    rw [extra]
    exact scriptTrim_join arguments
  rw [UpOpts.trimmed, argument, rest]

/-! ### Writing options -/

/-- The option of an input element that is not empty. -/
def givenArgument (o : UpOpts) (input : OptionInput) : Option UpOption :=
  if o.argument input = [] then none else some (.argument input (o.argument input))

def givenArguments (o : UpOpts) (inputs : List OptionInput) : List UpOption :=
  inputs.filterMap (givenArgument o)

/-- The known options in the order in which they are written. -/
def givenOptions (o : UpOpts) : List UpOption :=
  givenArguments o OptionInput.all ++
    ((if o.tlsHostVerify then [.tlsHostVerify] else []) ++
      (if o.noCheckCert then [.noCheckCert] else []))

theorem filter_argumentText {o : UpOpts} (holds : HoldsOptions o) (inputs : List OptionInput) :
    (inputs.map (argumentText o)).filter (· ≠ []) =
      (givenArguments o inputs).map fun option => join [' '] option.tokens := by
  induction inputs with
  | nil => rfl
  | cons input inputs inductionHypothesis =>
      have trimmed : scriptTrim (o.argument input) = o.argument input :=
        congrArg (fun o : UpOpts => o.argument input) holds.trimmed_eq
      rw [List.map_cons, givenArguments]
      by_cases empty : o.argument input = []
      · have absent : givenArgument o input = none := if_pos empty
        have nothing : argumentText o input = [] := by
          unfold argumentText
          rw [empty]
          rfl
        rw [List.filterMap_cons_none absent, nothing]
        exact inductionHypothesis
      · have present : givenArgument o input = some (.argument input (o.argument input)) :=
          if_neg empty
        have something : argumentText o input = join [' '] [input.flag, o.argument input] := by
          rw [join_space_cons _ (List.cons_ne_nil _ _), join_singleton, argumentText]
          simp [trimmed, empty]
        have nonempty : argumentText o input ≠ [] := by
          rw [something, join_space_cons _ (List.cons_ne_nil _ _)]
          simp
        have kept := List.filter_cons_of_pos (p := fun text : Text => decide (text ≠ []))
          (l := inputs.map (argumentText o)) (decide_eq_true nonempty)
        rw [kept, inductionHypothesis, List.filterMap_cons_some present, something]
        rfl

theorem tokens_ne_nil (option : UpOption) : option.tokens ≠ [] := by
  cases option <;> exact List.cons_ne_nil _ _

/-- What is written are the tokens of the options. -/
theorem renderUpOpts_eq {o : UpOpts} (holds : HoldsOptions o) {tokens : List Text}
    (arguments : ∀ token ∈ tokens, IsArgument token) (extra : o.extra = join [' '] tokens) :
    renderUpOpts o = join [' '] ((givenOptions o).flatMap UpOption.tokens ++ tokens) := by
  have rest : ([scriptTrim o.extra].filter fun text : Text => decide (text ≠ [])) =
      (if tokens = [] then [] else [tokens]).map (join [' ']) := by
    rw [extra, scriptTrim_join arguments]
    by_cases empty : tokens = []
    · subst empty
      rfl
    · have nonempty := join_full_ne_nil [' '] (fun token listed =>
        (arguments token listed).ne_nil) empty
      simp [empty, nonempty]
  have flag (set : Bool) (option : UpOption) (flag : Text) (single : option.tokens = [flag])
      (nonempty : flag ≠ []) :
      ([if set then flag else []].filter fun text : Text => decide (text ≠ [])) =
        (if set then [option] else []).map fun option => join [' '] option.tokens := by
    cases set <;> simp [single, nonempty]
  have verify := flag o.tlsHostVerify .tlsHostVerify tlsHostVerifyFlag rfl (by decide)
  have noCheck := flag o.noCheckCert .noCheckCert noCheckCertFlag rfl (by decide)
  have parts : ((OptionInput.all.map (argumentText o) ++
      [if o.tlsHostVerify then tlsHostVerifyFlag else [],
        if o.noCheckCert then noCheckCertFlag else [], scriptTrim o.extra]).filter (· ≠ [])) =
      ((givenOptions o).map UpOption.tokens ++
        (if tokens = [] then [] else [tokens])).map (join [' ']) := by
    have shape : [if o.tlsHostVerify then tlsHostVerifyFlag else [],
        if o.noCheckCert then noCheckCertFlag else [], scriptTrim o.extra] =
        [if o.tlsHostVerify then tlsHostVerifyFlag else []] ++
          ([if o.noCheckCert then noCheckCertFlag else []] ++ [scriptTrim o.extra]) := rfl
    rw [shape, List.filter_append, List.filter_append, List.filter_append,
      filter_argumentText holds, verify, noCheck, rest, givenOptions]
    simp only [List.map_append, List.map_map, List.append_assoc, Function.comp_def]
  have full : ∀ part ∈ (givenOptions o).map UpOption.tokens ++
      (if tokens = [] then [] else [tokens]), part ≠ [] := by
    intro part listed
    rcases List.mem_append.mp listed with given | last
    · obtain ⟨option, -, rfl⟩ := List.mem_map.mp given
      exact tokens_ne_nil option
    · split_ifs at last with empty
      · cases last
      · rwa [List.mem_singleton.mp last]
  rw [renderUpOpts, parts, join_map_join [' '] full, List.flatten_append, List.flatMap]
  congr 2
  by_cases empty : tokens = [] <;> simp [empty]

theorem readUpOptions_append {options : List UpOption} (known : ∀ option ∈ options,
    option.known ≠ none) (tokens : List Text) :
    readUpOptions (options.flatMap UpOption.tokens ++ tokens) = options ++ readUpOptions tokens := by
  have flag (token : Text) (missing : inputOf token = none) (tokens : List Text) :
      readUpOptions (token :: tokens) = .ofToken token :: readUpOptions tokens := by
    cases tokens with
    | nil => rfl
    | cons next rest => rw [readUpOptions, missing]
  induction options with
  | nil => rfl
  | cons option options inductionHypothesis =>
      have later := inductionHypothesis fun other listed => known other (List.mem_cons_of_mem _ listed)
      rw [List.flatMap_cons, List.append_assoc]
      cases option with
      | argument input value =>
          simp only [UpOption.tokens, List.cons_append, List.nil_append]
          rw [readUpOptions, inputOf_flag, later]
      | tlsHostVerify =>
          simp only [UpOption.tokens, List.cons_append, List.nil_append]
          rw [flag _ (by decide), later]
          rfl
      | noCheckCert =>
          simp only [UpOption.tokens, List.cons_append, List.nil_append]
          rw [flag _ (by decide), later]
          rfl
      | other token => exact absurd rfl (known (.other token) List.mem_cons_self)

theorem known_givenOptions (o : UpOpts) : ∀ option ∈ givenOptions o, option.known ≠ none := by
  intro option listed
  rcases List.mem_append.mp listed with argument | flag
  · obtain ⟨input, -, found⟩ := List.mem_filterMap.mp argument
    unfold givenArgument at found
    split_ifs at found
    cases found
    nofun
  · rcases List.mem_append.mp flag with verify | noCheck
    · split_ifs at verify
      · rw [List.mem_singleton.mp verify]
        nofun
      · cases verify
    · split_ifs at noCheck
      · rw [List.mem_singleton.mp noCheck]
        nofun
      · cases noCheck

theorem isArgument_flag (input : OptionInput) : IsArgument input.flag := by
  cases input <;> decide

theorem isArgument_tokens_givenOptions {o : UpOpts} (holds : HoldsOptions o) :
    ∀ token ∈ (givenOptions o).flatMap UpOption.tokens, IsArgument token := by
  intro token listed
  obtain ⟨option, given, inside⟩ := List.mem_flatMap.mp listed
  rcases List.mem_append.mp given with argument | flag
  · obtain ⟨input, -, found⟩ := List.mem_filterMap.mp argument
    unfold givenArgument at found
    split_ifs at found with empty
    cases found
    rcases List.mem_cons.mp inside with rfl | value
    · exact isArgument_flag input
    · rw [List.mem_singleton.mp value]
      exact (holds.argument input).resolve_left empty
  · rcases List.mem_append.mp flag with verify | noCheck
    · split_ifs at verify
      · rw [List.mem_singleton.mp verify] at inside
        rw [List.mem_singleton.mp inside]
        decide
      · cases verify
    · split_ifs at noCheck
      · rw [List.mem_singleton.mp noCheck] at inside
        rw [List.mem_singleton.mp inside]
        decide
      · cases noCheck

/-- The options that are read from what is written. -/
theorem readUpOptions_renderUpOpts {o : UpOpts} (holds : HoldsOptions o) {tokens : List Text}
    (arguments : ∀ token ∈ tokens, IsArgument token) (passive : IsPassive tokens)
    (extra : o.extra = join [' '] tokens) :
    tokenizeArgs (renderUpOpts o) = (givenOptions o).flatMap UpOption.tokens ++ tokens ∧
      readUpOptions (tokenizeArgs (renderUpOpts o)) = givenOptions o ++ tokens.map .other := by
  have read : tokenizeArgs (renderUpOpts o) =
      (givenOptions o).flatMap UpOption.tokens ++ tokens := by
    rw [renderUpOpts_eq holds arguments extra]
    apply tokenizeArgs_join
    intro token listed
    rcases List.mem_append.mp listed with given | other
    · exact isArgument_tokens_givenOptions holds token given
    · exact arguments token other
  refine ⟨read, ?_⟩
  rw [read, readUpOptions_append (known_givenOptions o), passive]

theorem foldl_givenArguments (o : UpOpts) (inputs : List OptionInput) :
    (givenArguments o inputs).foldl UpOption.apply {} =
      { argument := fun input => if input ∈ inputs then o.argument input else [] } := by
  induction inputs using List.reverseRecOn with
  | nil => simp [givenArguments]
  | append_singleton inputs last inductionHypothesis =>
      rw [givenArguments, List.filterMap_append, List.foldl_append, ← givenArguments,
        inductionHypothesis]
      by_cases empty : o.argument last = []
      · have absent : givenArgument o last = none := if_pos empty
        rw [List.filterMap_cons_none absent]
        ext input
        · by_cases same : input = last
          · subst same
            simp [empty]
          · simp [same]
        · rfl
        · rfl
        · rfl
      · have present : givenArgument o last = some (.argument last (o.argument last)) :=
          if_neg empty
        rw [List.filterMap_cons_some present]
        ext input
        · by_cases same : input = last
          · subst same
            simp [UpOption.apply]
          · simp [UpOption.apply, same]
        · rfl
        · rfl
        · rfl

/-- The options that are written set the elements to what they hold. -/
theorem foldl_givenOptions {o : UpOpts} {tokens : List Text}
    (full : ∀ token ∈ tokens, token ≠ []) (extra : o.extra = join [' '] tokens) :
    (givenOptions o ++ tokens.map UpOption.other).foldl UpOption.apply {} = o := by
  have arguments : (fun input => if input ∈ OptionInput.all then o.argument input else []) =
      o.argument := by
    funext input
    have listed : input ∈ OptionInput.all := by cases input <;> decide
    exact if_pos listed
  have flags : (givenOptions o).foldl UpOption.apply {} = { o with extra := [] } := by
    rw [givenOptions, List.foldl_append, foldl_givenArguments, arguments]
    cases o.tlsHostVerify <;> cases o.noCheckCert <;> rfl
  have others : (tokens.map UpOption.other).filterMap UpOption.token = tokens := by
    rw [List.filterMap_map]
    exact List.filterMap_some
  rw [List.foldl_append, flags]
  ext input
  · rw [argument_foldl_apply]
    have none : lastGiven input (tokens.map UpOption.other) = none := by
      simp [lastGiven, List.filterMap_map]
    rw [none]
    rfl
  · rw [tlsHostVerify_foldl_apply]
    simp
  · rw [noCheckCert_foldl_apply]
    simp
  · have written := @extra_foldl_apply (tokens.map .other) { o with extra := [] } [] rfl nofun
      (by rwa [others])
    rw [written, others, extra]
    rfl

theorem renderUpOpts_trimmed (o : UpOpts) : renderUpOpts o.trimmed = renderUpOpts o := by
  have same (input : OptionInput) : argumentText o.trimmed input = argumentText o input := by
    unfold argumentText UpOpts.trimmed
    rw [scriptTrim_scriptTrim]
  unfold renderUpOpts
  rw [List.map_congr_left fun input _ => same input]
  simp only [UpOpts.trimmed, scriptTrim_scriptTrim]
  rfl

/-- What is entered is shown again exactly when each argument is a single token or none, and the
extra options are tokens that are read as they stand, with single spaces between them. -/
theorem parseUpOpts_renderUpOpts_iff (o : UpOpts) :
    parseUpOpts (renderUpOpts o) = o.trimmed ↔ HoldsOptions o.trimmed := by
  constructor
  · intro same
    rw [← same]
    exact holdsOptions_parseUpOpts _
  · intro holds
    obtain ⟨tokens, arguments, passive, extra⟩ := holds.extra
    have read := (readUpOptions_renderUpOpts holds arguments passive extra).2
    rw [← renderUpOpts_trimmed, parseUpOpts, scanUpOpts_eq, read]
    exact foldl_givenOptions (fun token listed => (arguments token listed).ne_nil) extra

theorem parseUpOpts_renderUpOpts {o : UpOpts} (holds : HoldsOptions o) :
    parseUpOpts (renderUpOpts o) = o := by
  have read := (parseUpOpts_renderUpOpts_iff o).mpr (by rwa [holds.trimmed_eq])
  rwa [holds.trimmed_eq] at read

/-! ### Which tokens are kept -/

/-- No option with an element of its own is given twice. -/
def GivesOnce (options : List UpOption) : Prop := (options.filterMap UpOption.known).Nodup

instance (options : List UpOption) : Decidable (GivesOnce options) :=
  inferInstanceAs (Decidable (List.Nodup _))

theorem map_known {options : List UpOption} (known : ∀ option ∈ options, option.known ≠ none) :
    options.map UpOption.known = (options.filterMap UpOption.known).map some := by
  induction options with
  | nil => rfl
  | cons option options inductionHypothesis =>
      rw [List.forall_mem_cons] at known
      obtain ⟨name, found⟩ := Option.ne_none_iff_exists'.mp known.1
      rw [List.map_cons, inductionHypothesis known.2, List.filterMap_cons_some found, found,
        List.map_cons]

theorem GivesOnce.nodup {options : List UpOption} (once : GivesOnce options)
    (known : ∀ option ∈ options, option.known ≠ none) : options.Nodup := by
  apply List.Nodup.of_map UpOption.known
  rw [map_known known]
  exact once.map (Option.some_injective _)

def knownOptions (options : List UpOption) : List UpOption :=
  options.filter fun option => option.known.isSome

theorem known_knownOptions {options : List UpOption} :
    ∀ option ∈ knownOptions options, option.known ≠ none := by
  intro option listed
  exact Option.isSome_iff_ne_none.mp (List.mem_filter.mp listed).2

theorem mem_knownOptions {options : List UpOption} {option : UpOption} (listed : option ∈ options)
    (known : option.known ≠ none) : option ∈ knownOptions options :=
  List.mem_filter.mpr ⟨listed, Option.isSome_iff_ne_none.mpr known⟩

theorem filterMap_knownOptions (options : List UpOption) :
    (knownOptions options).filterMap UpOption.known = options.filterMap UpOption.known := by
  rw [knownOptions, List.filterMap_filter]
  apply List.filterMap_congr
  intro option _
  cases known : option.known <;> rfl

theorem GivesOnce.knownOptions {options : List UpOption} (once : GivesOnce options) :
    GivesOnce (knownOptions options) := by
  unfold GivesOnce
  rwa [filterMap_knownOptions]

theorem GivesOnce.eq_of_known {options : List UpOption} (once : GivesOnce options)
    {option other : UpOption} (listed : option ∈ options) (among : other ∈ options)
    {name : KnownOption} (found : option.known = some name) (same : other.known = some name) :
    option = other := by
  have distinct : ((SmartDnsPlusUi.knownOptions options).map UpOption.known).Nodup := by
    rw [map_known known_knownOptions]
    exact once.knownOptions.map (Option.some_injective _)
  apply List.inj_on_of_nodup_map distinct
  · exact mem_knownOptions listed (by simp [found])
  · exact mem_knownOptions among (by simp [same])
  · rw [found, same]

theorem filterMap_known_givenArguments (o : UpOpts) (inputs : List OptionInput) :
    (givenArguments o inputs).filterMap UpOption.known =
      (inputs.filter fun input => decide (o.argument input ≠ [])).map .argument := by
  induction inputs with
  | nil => rfl
  | cons input inputs inductionHypothesis =>
      unfold givenArguments at inductionHypothesis ⊢
      by_cases empty : o.argument input = []
      · have absent : givenArgument o input = none := if_pos empty
        rw [List.filterMap_cons_none absent, inductionHypothesis]
        simp [empty]
      · have present : givenArgument o input = some (.argument input (o.argument input)) :=
          if_neg empty
        rw [List.filterMap_cons_some present]
        simp [empty, UpOption.known, inductionHypothesis]

theorem givesOnce_givenOptions (o : UpOpts) : GivesOnce (givenOptions o) := by
  have arguments : ((givenArguments o OptionInput.all).filterMap UpOption.known).Nodup := by
    rw [filterMap_known_givenArguments]
    apply List.Nodup.map
    · rintro first second ⟨⟩
      rfl
    · exact (by decide : OptionInput.all.Nodup).filter _
  unfold GivesOnce givenOptions
  rw [List.filterMap_append, List.nodup_append]
  refine ⟨arguments, ?_, ?_⟩
  · cases o.tlsHostVerify <;> cases o.noCheckCert <;> decide
  · rw [filterMap_known_givenArguments]
    intro name listed other flag same
    obtain ⟨input, -, rfl⟩ := List.mem_map.mp listed
    subst same
    cases verify : o.tlsHostVerify <;> cases noCheck : o.noCheckCert <;>
      simp [verify, noCheck, UpOption.known] at flag

/-- The known options that take effect are some of those that are given. -/
theorem mem_of_mem_givenOptions {options : List UpOption} {option : UpOption}
    (effective : option ∈ givenOptions (options.foldl UpOption.apply {})) : option ∈ options := by
  rcases List.mem_append.mp effective with argument | flag
  · obtain ⟨input, -, found⟩ := List.mem_filterMap.mp argument
    unfold givenArgument at found
    rw [argument_foldl_apply] at found
    cases given : lastGiven input options with
    | none => simp [given] at found
    | some value =>
        rw [given] at found
        split_ifs at found
        cases found
        exact lastGiven_mem given
  · rw [tlsHostVerify_foldl_apply, noCheckCert_foldl_apply] at flag
    rcases List.mem_append.mp flag with verify | noCheck
    · split_ifs at verify with set
      · rw [List.mem_singleton.mp verify]
        simpa using set
      · cases verify
    · split_ifs at noCheck with set
      · rw [List.mem_singleton.mp noCheck]
        simpa using set
      · cases noCheck

/-- An option that is given once takes effect. -/
theorem GivesOnce.mem_givenOptions {options : List UpOption} (once : GivesOnce options)
    (full : ∀ input value, .argument input value ∈ options → value ≠ [])
    {option : UpOption} (listed : option ∈ options) (known : option.known ≠ none) :
    option ∈ givenOptions (options.foldl UpOption.apply {}) := by
  unfold givenOptions
  rw [tlsHostVerify_foldl_apply, noCheckCert_foldl_apply]
  cases option with
  | argument input value =>
      apply List.mem_append_left
      apply List.mem_filterMap.mpr
      refine ⟨input, by cases input <;> decide, ?_⟩
      have given : lastGiven input options = some value := by
        cases found : lastGiven input options with
        | none =>
            have missing := List.getLast?_eq_none_iff.mp found
            rw [List.filterMap_eq_nil_iff] at missing
            exact absurd (missing _ listed) (by simp)
        | some other =>
            have same := once.eq_of_known listed (lastGiven_mem found) rfl rfl
            cases same
            rfl
      unfold givenArgument
      rw [argument_foldl_apply, given]
      exact if_neg (full input value listed)
  | tlsHostVerify => simp [listed]
  | noCheckCert => simp [listed]
  | other token => exact absurd rfl known

theorem perm_of_known (options : List UpOption) :
    (knownOptions options ++ (options.filterMap UpOption.token).map UpOption.other).Perm options := by
  have rest : (options.filterMap UpOption.token).map UpOption.other =
      options.filter fun option => !option.known.isSome := by
    induction options with
    | nil => rfl
    | cons option options inductionHypothesis =>
        cases option with
        | other token => exact congrArg (UpOption.other token :: ·) inductionHypothesis
        | argument input value => exact inductionHypothesis
        | tlsHostVerify => exact inductionHypothesis
        | noCheckCert => exact inductionHypothesis
  rw [rest]
  exact List.filter_append_perm _ _

/-- Writing what was taken apart keeps all tokens exactly when no known option is given twice. -/
theorem perm_tokens_iff {tokens : List Text} (full : ∀ token ∈ tokens, token ≠ []) :
    ((givenOptions (scanUpOpts {} tokens)).flatMap UpOption.tokens ++
        (readUpOptions tokens).filterMap UpOption.token).Perm tokens ↔
      GivesOnce (readUpOptions tokens) := by
  rw [scanUpOpts_eq]
  have whole := flatMap_tokens_readUpOptions tokens
  have values : ∀ input value, UpOption.argument input value ∈ readUpOptions tokens →
      value ≠ [] := by
    intro input value listed
    exact full value (mem_of_mem_tokens listed (by simp [UpOption.tokens]))
  generalize readUpOptions tokens = options at whole values ⊢
  have others : ((options.filterMap UpOption.token).map UpOption.other).flatMap UpOption.tokens =
      options.filterMap UpOption.token := by
    rw [List.flatMap_map]
    exact List.flatMap_singleton' _
  have split := (perm_of_known options).flatMap_right UpOption.tokens
  rw [List.flatMap_append, others, whole] at split
  have effective := givesOnce_givenOptions (options.foldl UpOption.apply {})
  have distinct := effective.nodup (known_givenOptions _)
  have subset : (givenOptions (options.foldl UpOption.apply {})).Subperm (knownOptions options) := by
    apply distinct.subperm
    intro option listed
    exact mem_knownOptions (mem_of_mem_givenOptions listed) (known_givenOptions _ option listed)
  constructor
  · intro kept
    obtain ⟨arranged, rearranged, sublist⟩ := subset
    obtain ⟨lost, whole⟩ := sublist.exists_perm_append
    have all := (rearranged.symm.append_right lost).trans whole.symm
    have flat := (all.flatMap_right UpOption.tokens).length_eq
    have before := split.length_eq
    have behind := kept.length_eq
    rw [List.flatMap_append, List.length_append] at flat
    rw [List.length_append] at before behind
    have none : lost = [] := by
      cases lost with
      | nil => rfl
      | cons option rest =>
          have some := List.length_pos_of_ne_nil (tokens_ne_nil option)
          rw [List.flatMap_cons, List.length_append] at flat
          omega
    rw [none, List.append_nil] at all
    unfold GivesOnce
    rw [← filterMap_knownOptions]
    exact (all.filterMap UpOption.known).nodup effective
  · intro once
    have same : (givenOptions (options.foldl UpOption.apply {})).Perm (knownOptions options) := by
      apply (List.perm_ext_iff_of_nodup distinct (once.knownOptions.nodup known_knownOptions)).mpr
      intro option
      constructor
      · exact fun listed => subset.subset listed
      · intro listed
        exact once.mem_givenOptions values (List.mem_filter.mp listed).1
          (known_knownOptions option listed)
    exact ((same.flatMap_right UpOption.tokens).append_right _).trans split

end SmartDnsPlusUi
