import Mathlib.Data.Fintype.Pigeonhole
import Mathlib.Data.Set.Finite.Basic
import Mathlib.Logic.Relation

/-!
# Chains

Each node leads to at most one next node.  The chain of a node follows the nodes until one
of them leads nowhere.  It ends exactly when it reaches finitely many nodes and none of
them comes back.
-/

namespace SmartDnsPlusUi.Graph

variable {Node : Type}

/-- The nodes from a first one to one that leads nowhere. -/
inductive Chain (next : Node → Option Node) : Node → List Node → Prop where
  | last {node : Node} : next node = none → Chain next node [node]
  | link {node following : Node} {path : List Node} : next node = some following →
      Chain next following path → Chain next node (node :: path)

def Ends (next : Node → Option Node) (node : Node) : Prop := ∃ path, Chain next node path

def Link (next : Node → Option Node) (node following : Node) : Prop := next node = some following

/-- One or more links lead from the first node to the second. -/
def LeadsTo (next : Node → Option Node) : Node → Node → Prop := Relation.TransGen (Link next)

def Reaches (next : Node → Option Node) : Node → Node → Prop := Relation.ReflTransGen (Link next)

/-- Finitely many nodes are reached, and no node that is reached comes back. -/
structure WithoutReturn (next : Node → Option Node) (node : Node) : Prop where
  finite : {reached | Reaches next node reached}.Finite
  noReturn : ∀ reached, Reaches next node reached → ¬ LeadsTo next reached reached

section

variable {next : Node → Option Node} {node following other : Node} {path : List Node}

theorem Chain.ne_nil (chain : Chain next node path) : path ≠ [] := by
  cases chain <;> exact List.cons_ne_nil _ _

theorem chain_iff_of_none (leads : next node = none) :
    Chain next node path ↔ path = [node] := by
  refine ⟨fun chain => ?_, fun equality => equality ▸ .last leads⟩
  cases chain with
  | last => rfl
  | link leadsOn => rw [leads] at leadsOn; cases leadsOn

theorem chain_iff_of_some (leads : next node = some following) :
    Chain next node path ↔ ∃ rest, path = node :: rest ∧ Chain next following rest := by
  constructor
  · intro chain
    cases chain with
    | last leadsNowhere => rw [leads] at leadsNowhere; cases leadsNowhere
    | link leadsOn rest =>
        cases leads.symm.trans leadsOn
        exact ⟨_, rfl, rest⟩
  · rintro ⟨rest, rfl, chain⟩
    exact .link leads chain

theorem Chain.unique {second : List Node} (chain : Chain next node path)
    (also : Chain next node second) : path = second := by
  induction chain generalizing second with
  | last leads => exact ((chain_iff_of_none leads).1 also).symm
  | link leads _ inductionHypothesis =>
      obtain ⟨rest, rfl, chain⟩ := (chain_iff_of_some leads).1 also
      rw [inductionHypothesis chain]

theorem ends_of_none (leads : next node = none) : Ends next node := ⟨_, .last leads⟩

theorem ends_iff_of_some (leads : next node = some following) :
    Ends next node ↔ Ends next following := by
  constructor
  · rintro ⟨path, chain⟩
    obtain ⟨rest, -, following⟩ := (chain_iff_of_some leads).1 chain
    exact ⟨rest, following⟩
  · rintro ⟨path, chain⟩
    exact ⟨_, .link leads chain⟩

/-- The chain of a later node is shorter. -/
theorem Chain.length_lt {rest : List Node} (leads : LeadsTo next node other)
    (chain : Chain next node path) (later : Chain next other rest) :
    rest.length < path.length := by
  induction leads using Relation.TransGen.head_induction_on generalizing path with
  | single link =>
      obtain ⟨tail, rfl, following⟩ := (chain_iff_of_some link).1 chain
      rw [following.unique later]
      exact Nat.lt_succ_self _
  | head link _ inductionHypothesis =>
      obtain ⟨tail, rfl, following⟩ := (chain_iff_of_some link).1 chain
      exact Nat.lt_succ_of_lt (inductionHypothesis following)

/-- A node that comes back has no end. -/
theorem LeadsTo.not_ends (leads : LeadsTo next node node) : ¬ Ends next node := by
  rintro ⟨path, chain⟩
  exact absurd (chain.length_lt leads chain) (lt_irrefl _)

/-! ### Chains that end -/

/-- The node after a number of links, where each link so far leads on. -/
def walk (next : Node → Option Node) (node : Node) : Nat → Option Node
  | 0 => some node
  | count + 1 => (walk next node count).bind next

theorem ends_of_walk_eq_none {count : Nat} (stops : walk next node count = none) :
    Ends next node := by
  have ends : ∀ count, (∀ reached, walk next node count = some reached → Ends next reached) →
      Ends next node := by
    intro count
    induction count with
    | zero => exact fun atReached => atReached node rfl
    | succ count inductionHypothesis =>
        intro atReached
        apply inductionHypothesis
        intro reached walked
        cases leads : next reached with
        | none => exact ends_of_none leads
        | some following =>
            rw [ends_iff_of_some leads]
            apply atReached
            rw [walk, walked]
            exact leads
  apply ends count
  intro reached walked
  rw [stops] at walked
  cases walked

theorem leadsTo_of_walk {first later : Nat} {reached : Node} (before : first < later)
    (atFirst : walk next node first = some reached) (atLater : walk next node later = some other) :
    LeadsTo next reached other := by
  induction later generalizing other with
  | zero => exact absurd before (Nat.not_lt_zero _)
  | succ later inductionHypothesis =>
      rw [walk, Option.bind_eq_some_iff] at atLater
      obtain ⟨middle, atMiddle, link⟩ := atLater
      by_cases adjacent : first = later
      · subst adjacent
        cases atFirst.symm.trans atMiddle
        exact .single link
      · exact .tail (inductionHypothesis (by omega) atMiddle) link

theorem reaches_of_walk {count : Nat} (walked : walk next node count = some other) :
    Reaches next node other := by
  induction count generalizing other with
  | zero =>
      cases walked
      exact .refl
  | succ count inductionHypothesis =>
      rw [walk, Option.bind_eq_some_iff] at walked
      obtain ⟨middle, atMiddle, link⟩ := walked
      exact .tail (inductionHypothesis atMiddle) link

/-- Without an end, a chain walks on for ever. -/
theorem exists_walk_of_not_ends (endless : ¬ Ends next node) (count : Nat) :
    ∃ reached, walk next node count = some reached := by
  cases walked : walk next node count with
  | none => exact absurd (ends_of_walk_eq_none walked) endless
  | some reached => exact ⟨reached, rfl⟩

theorem Chain.mem_of_reaches (chain : Chain next node path) (reaches : Reaches next node other) :
    other ∈ path := by
  induction chain with
  | last leads =>
      rcases Relation.ReflTransGen.cases_head reaches with rfl | ⟨following, link, -⟩
      · exact List.mem_singleton_self _
      · rw [Link, leads] at link
        cases link
  | link leads _ inductionHypothesis =>
      rcases Relation.ReflTransGen.cases_head reaches with rfl | ⟨following, link, rest⟩
      · exact List.mem_cons_self
      · cases leads.symm.trans link
        exact List.mem_cons_of_mem _ (inductionHypothesis rest)

theorem Reaches.ends (reaches : Reaches next node other) (ends : Ends next node) :
    Ends next other := by
  induction reaches with
  | refl => exact ends
  | tail _ link inductionHypothesis => exact (ends_iff_of_some link).1 inductionHypothesis

theorem ends_iff_withoutReturn : Ends next node ↔ WithoutReturn next node := by
  constructor
  · intro ends
    obtain ⟨path, chain⟩ := ends
    refine ⟨path.finite_toSet.subset fun reached reaches => chain.mem_of_reaches reaches, ?_⟩
    intro reached reaches back
    exact back.not_ends (reaches.ends ⟨path, chain⟩)
  · intro without
    by_contra endless
    choose visited walked using exists_walk_of_not_ends endless
    have _ := without.finite.to_subtype
    obtain ⟨first, later, different, equality⟩ := Finite.exists_ne_map_eq_of_infinite
      fun count : Nat =>
        (⟨visited count, reaches_of_walk (walked count)⟩ : {reached | Reaches next node reached})
    have same : visited first = visited later := congrArg Subtype.val equality
    have back : ∀ first later, first < later → visited first = visited later → False := by
      intro first later before same
      have returns := leadsTo_of_walk before (walked first) (walked later)
      rw [← same] at returns
      exact without.noReturn _ (reaches_of_walk (walked first)) returns
    rcases Nat.lt_or_gt_of_ne different with before | after
    · exact back first later before same
    · exact back later first after same.symm

end

end SmartDnsPlusUi.Graph
