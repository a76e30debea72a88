import Mathlib.Data.Fintype.EquivFin
import Mathlib.Data.List.Lex
import Mathlib.Logic.Function.Basic
import SmartDnsPlusUi.Table.BestMatch
import SmartDnsPlusUi.Text.Basic

/-!
# The routes of the API

A route is registered under a method and a pattern.  The slot of a pattern is found by
looking the text of the pattern up as if it were a path.
-/

namespace SmartDnsPlusUi.Api

open Table

/-! ### Patterns -/

/-- What stands between two slashes of a pattern. -/
inductive Segment where
  | static (text : Text)
  | param (name : Text)
deriving DecidableEq

abbrev Pattern := List Segment

/-- The texts between the slashes of a path. -/
abbrev Path := List Text

/-- Braces of a static segment are doubled. -/
def escapeBraces (text : Text) : Text :=
  text.flatMap fun c => if c = '{' ∨ c = '}' then [c, c] else [c]

def Segment.source : Segment → Text
  | .static text => escapeBraces text
  | .param name => '{' :: name ++ ['}']

/-- The text of the pattern, read as a path. -/
def source (pattern : Pattern) : Path := pattern.map Segment.source

def Segment.isMatch : Segment → Text → Bool
  | .static text, part => text = part
  | .param _, part => part ≠ []

def isMatch : Pattern → Path → Bool
  | [], [] => true
  | segment :: pattern, part :: path => segment.isMatch part && isMatch pattern path
  | _, _ => false

/-- A static segment beats a parameter. -/
def Segment.rank : Segment → Nat
  | .static _ => 0
  | .param _ => 1

def rank (pattern : Pattern) : List Nat := pattern.map Segment.rank

/-- The pattern up to the names of its parameters. -/
def Segment.shape : Segment → Option Text
  | .static text => some text
  | .param _ => none

def shape (pattern : Pattern) : List (Option Text) := pattern.map Segment.shape

def params : Pattern → Path → List (Text × Text)
  | .param name :: pattern, part :: path => (name, part) :: params pattern path
  | .static _ :: pattern, _ :: path => params pattern path
  | _, _ => []

/-! ### The router -/

section

variable {Method Handler : Type} [DecidableEq Method]

structure ApiRouter (Method Handler : Type) where
  method : Method
  auth : Bool
  handler : Handler

/-- The patterns that were inserted, each with the routes of its methods, newest first. -/
structure Router (Method Handler : Type) where
  patterns : List Pattern := []
  methods : Pattern → List (Method × ApiRouter Method Handler) := fun _ => []

def Router.at (router : Router Method Handler) (path : Path) : Option Pattern :=
  best isMatch rank router.patterns path

/-- A pattern that differs from a present one in the names of its parameters at most is
refused. -/
def Router.insert (router : Router Method Handler) (pattern : Pattern) :
    Option (Router Method Handler) :=
  if router.patterns.any fun present => shape present = shape pattern then none
  else some { router with patterns := router.patterns ++ [pattern] }

def Router.put (router : Router Method Handler) (slot : Pattern)
    (routeData : ApiRouter Method Handler) : Router Method Handler :=
  { router with
    methods := Function.update router.methods slot
      ((routeData.method, routeData) :: router.methods slot) }

/-- A call of `register`. -/
structure Registration (Method Handler : Type) where
  method : Method
  path : Pattern
  auth : Bool
  handler : Handler

def Registration.key (registration : Registration Method Handler) : Method × Pattern :=
  (registration.method, registration.path)

def Registration.routeData (registration : Registration Method Handler) :
    ApiRouter Method Handler where
  method := registration.method
  auth := registration.auth
  handler := registration.handler

def Router.register (router : Router Method Handler)
    (registration : Registration Method Handler) : Router Method Handler :=
  match router.at (source registration.path) with
  | some slot => router.put slot registration.routeData
  | none =>
      let inserted := (router.insert registration.path).getD router
      match inserted.at (source registration.path) with
      | some slot => inserted.put slot registration.routeData
      | none => inserted

def Router.getRouter (router : Router Method Handler) (method : Method) (path : Path) :
    Option (ApiRouter Method Handler × List (Text × Text)) :=
  (router.at path).bind fun slot =>
    ((router.methods slot).lookup method).map fun routeData => (routeData, params slot path)

def registerAll (registrations : List (Registration Method Handler)) : Router Method Handler :=
  registrations.foldl Router.register {}

/-! ### What the lookup is for -/

/-- The route of the method under the most specific pattern that matches the path. -/
def specifiedRoute (registrations : List (Registration Method Handler)) (method : Method)
    (path : Path) : Option (ApiRouter Method Handler) :=
  (best isMatch rank (registrations.map (·.path)) path).bind fun pattern =>
    (registrations.find? fun registration => registration.key = (method, pattern)).map
      Registration.routeData

/-- Patterns that can be inserted together. -/
def Compatible (patterns : List Pattern) : Prop :=
  ∀ first ∈ patterns, ∀ second ∈ patterns, shape first = shape second → first = second

instance (patterns : List Pattern) : Decidable (Compatible patterns) :=
  inferInstanceAs (Decidable (∀ first ∈ patterns, ∀ second ∈ patterns, _ → _))

def LooksUpAll (registrations : List (Registration Method Handler)) : Prop :=
  ∀ method path, ((registerAll registrations).getRouter method path).map (·.1) =
    specifiedRoute registrations method path

/-- No static segment has a brace. -/
def IsPlain (pattern : Pattern) : Prop :=
  ∀ segment ∈ pattern, ∀ text, segment = .static text → '{' ∉ text ∧ '}' ∉ text

/-- The pattern was registered before, or it has no brace in a static segment and its text
is matched by no pattern that was. -/
def IsFree (before : List Pattern) (pattern : Pattern) : Prop :=
  pattern ∈ before ∨
    IsPlain pattern ∧ ∀ earlier ∈ before, isMatch earlier (source pattern) = false

def NeverCaptured : List Pattern → List (Method × Pattern) → Prop
  | _, [] => True
  | before, (_, pattern) :: later => IsFree before pattern ∧ NeverCaptured (pattern :: before) later

end

/-! ### Patterns and paths -/

section

variable {pattern other : Pattern} {path : Path} {patterns : List Pattern}

theorem isMatch_cons (segment : Segment) (pattern : Pattern) (part : Text) (path : Path) :
    isMatch (segment :: pattern) (part :: path) = true ↔
      segment.isMatch part = true ∧ isMatch pattern path = true := by
  rw [isMatch, Bool.and_eq_true]

theorem exists_of_isMatch_cons {part : Text} (matched : isMatch pattern (part :: path) = true) :
    ∃ segment rest, pattern = segment :: rest ∧ segment.isMatch part = true ∧
      isMatch rest path = true := by
  cases pattern with
  | nil => cases matched
  | cons segment rest =>
      rw [isMatch_cons] at matched
      exact ⟨segment, rest, rfl, matched⟩

theorem eq_nil_of_isMatch_nil (matched : isMatch pattern [] = true) : pattern = [] := by
  cases pattern with
  | nil => rfl
  | cons => cases matched

theorem Segment.shape_eq_of_rank_eq {segment other : Segment} {part : Text}
    (same : segment.rank = other.rank) (matched : segment.isMatch part = true)
    (also : other.isMatch part = true) : segment.shape = other.shape := by
  cases segment with
  | static text =>
      cases other with
      | static otherText =>
          rw [Segment.isMatch, decide_eq_true_eq] at matched also
          rw [matched, also]
      | param => cases same
  | param name =>
      cases other with
      | static => cases same
      | param => rfl

/-- Two patterns of one rank that match one path differ in names at most. -/
theorem shape_eq_of_rank_eq (same : rank pattern = rank other)
    (matched : isMatch pattern path = true) (also : isMatch other path = true) :
    shape pattern = shape other := by
  induction path generalizing pattern other with
  | nil => rw [eq_nil_of_isMatch_nil matched, eq_nil_of_isMatch_nil also]
  | cons part path inductionHypothesis =>
      obtain ⟨segment, rest, rfl, first, matched⟩ := exists_of_isMatch_cons matched
      obtain ⟨otherSegment, otherRest, rfl, second, also⟩ := exists_of_isMatch_cons also
      rw [rank, rank, List.map_cons, List.map_cons, List.cons.injEq] at same
      rw [shape, shape, List.map_cons, List.map_cons,
        Segment.shape_eq_of_rank_eq same.1 first second]
      exact congrArg _ (inductionHypothesis same.2 matched also)

theorem Compatible.separates (compatible : Compatible patterns) :
    Separates isMatch rank patterns :=
  fun first listed second also same _ matched alsoMatched =>
    compatible first listed second also (shape_eq_of_rank_eq same matched alsoMatched)

theorem Compatible.subset {others : List Pattern} (compatible : Compatible patterns)
    (inside : others ⊆ patterns) : Compatible others :=
  fun first listed second also => compatible first (inside listed) second (inside also)

/-! ### The text of a pattern -/

theorem escapeBraces_eq_self_iff (text : Text) :
    escapeBraces text = text ↔ '{' ∉ text ∧ '}' ∉ text := by
  have longer : ∀ text : Text, text.length ≤ (escapeBraces text).length := by
    intro text
    induction text with
    | nil => exact Nat.le_refl _
    | cons c text inductionHypothesis =>
        rw [escapeBraces, List.flatMap_cons, List.length_append]
        rw [escapeBraces] at inductionHypothesis
        split <;> simp only [List.length_cons, List.length_nil] <;> omega
  induction text with
  | nil => simp [escapeBraces]
  | cons c text inductionHypothesis =>
      rw [escapeBraces, List.flatMap_cons, ← escapeBraces]
      by_cases brace : c = '{' ∨ c = '}'
      · rw [if_pos brace]
        constructor
        · intro same
          have short := congrArg List.length same
          have long := longer text
          simp only [List.length_append, List.length_cons, List.length_nil] at short
          omega
        · intro free
          rcases brace with rfl | rfl
          · exact absurd List.mem_cons_self free.1
          · exact absurd List.mem_cons_self free.2
      · rw [not_or] at brace
        rw [if_neg (not_or.2 brace), List.singleton_append, List.cons.injEq, and_iff_right rfl,
          List.mem_cons, List.mem_cons, not_or, not_or]
        refine inductionHypothesis.trans ?_
        exact ⟨fun free => ⟨⟨Ne.symm brace.1, free.1⟩, ⟨Ne.symm brace.2, free.2⟩⟩,
          fun both => ⟨both.1.2, both.2.2⟩⟩

theorem isPlain_cons (segment : Segment) (pattern : Pattern) :
    IsPlain (segment :: pattern) ↔
      (∀ text, segment = .static text → '{' ∉ text ∧ '}' ∉ text) ∧ IsPlain pattern :=
  List.forall_mem_cons

/-- A pattern matches its own text unless a brace is in the way. -/
theorem isMatch_source_iff : isMatch pattern (source pattern) = true ↔ IsPlain pattern := by
  induction pattern with
  | nil => exact ⟨fun _ _ listed => absurd listed List.not_mem_nil, fun _ => rfl⟩
  | cons segment pattern inductionHypothesis =>
      rw [source, List.map_cons, isMatch_cons, isPlain_cons, ← source, inductionHypothesis]
      refine and_congr_left fun _ => ?_
      cases segment with
      | static text =>
          rw [Segment.isMatch, decide_eq_true_eq, Segment.source, eq_comm,
            escapeBraces_eq_self_iff]
          exact ⟨fun free _ same => by cases same; exact free, fun free => free text rfl⟩
      | param name =>
          exact ⟨fun _ _ same => (nomatch same), fun _ => rfl⟩

/-- Where its parameters take values that no static segment of another pattern has, a
pattern has the least rank. -/
theorem rank_le_of_isMatch_map {value : Segment → Text}
    (avoids : ∀ name text, .static text ∈ other → text ≠ value (.param name))
    (matched : isMatch other (pattern.map value) = true) : rank pattern ≤ rank other := by
  induction pattern generalizing other with
  | nil => exact le_of_not_gt (List.not_lt_nil _)
  | cons segment pattern inductionHypothesis =>
      obtain ⟨first, rest, rfl, here, later⟩ := exists_of_isMatch_cons matched
      have tail := inductionHypothesis
        (fun name text listed => avoids name text (List.mem_cons_of_mem _ listed)) later
      have head : segment.rank ≤ first.rank := by
        cases segment with
        | static => exact Nat.zero_le _
        | param name =>
            cases first with
            | static text => exact absurd (of_decide_eq_true here) (avoids name text List.mem_cons_self)
            | param => exact Nat.le_refl _
      rw [rank, rank, List.map_cons, List.map_cons]
      rcases Nat.lt_or_eq_of_le head with less | same
      · exact le_of_lt (List.Lex.rel less)
      · rw [same]
        exact List.cons_le_cons _ tail

/-- On the text of a pattern no plain pattern has a lower rank. -/
theorem rank_le_of_isMatch_source (plain : IsPlain other)
    (matched : isMatch other (source pattern) = true) : rank pattern ≤ rank other := by
  refine rank_le_of_isMatch_map (fun name text listed equality => ?_) matched
  have free := (plain _ listed text rfl).1
  rw [equality] at free
  exact free List.mem_cons_self

/-! ### A path of its own -/

def instantiate (value : Text) : Segment → Text
  | .static text => text
  | .param _ => value

theorem isMatch_map_instantiate {value : Text} (nonempty : value ≠ []) (pattern : Pattern) :
    isMatch pattern (pattern.map (instantiate value)) = true := by
  induction pattern with
  | nil => rfl
  | cons segment pattern inductionHypothesis =>
      rw [List.map_cons, isMatch_cons]
      refine ⟨?_, inductionHypothesis⟩
      cases segment with
      | static text => exact decide_eq_true rfl
      | param name => exact decide_eq_true nonempty

def Segment.staticText? : Segment → Option Text
  | .static text => some text
  | .param _ => none

/-- Some text is no static segment of any of the patterns. -/
theorem exists_fresh (patterns : List Pattern) :
    ∃ value : Text, value ≠ [] ∧ ∀ pattern ∈ patterns, .static value ∉ pattern := by
  obtain ⟨value, fresh⟩ := Infinite.exists_notMem_finset
    ([] :: patterns.flatten.filterMap Segment.staticText?).toFinset
  rw [List.mem_toFinset, List.mem_cons, not_or] at fresh
  refine ⟨value, fresh.1, fun pattern listed inside => fresh.2 ?_⟩
  exact List.mem_filterMap.2 ⟨.static value, List.mem_flatten.2 ⟨pattern, listed, inside⟩, rfl⟩

/-- Among compatible patterns each one is the best match of some path. -/
theorem exists_isBest (member : pattern ∈ patterns) :
    ∃ path, IsBest isMatch rank patterns path pattern := by
  obtain ⟨value, nonempty, fresh⟩ := exists_fresh patterns
  refine ⟨pattern.map (instantiate value), member, isMatch_map_instantiate nonempty pattern, ?_⟩
  intro other listed matched
  refine rank_le_of_isMatch_map (fun name text inside equality => ?_) matched
  have same : text = value := equality
  exact fresh other listed (same ▸ inside)

end

end SmartDnsPlusUi.Api
