import Mathlib.Data.Finset.Card
import Mathlib.Data.Set.Function
import Mathlib.Logic.Relation
import SmartDnsPlusUi.Run.Basic

/-!
# Depth-first traversal

A traversal visits a node and then the nodes that it leads to, one after the other, unless
a node with the same key was visited before.  It ends when the keys are finitely many, and
it lists the reachable nodes exactly when no two of them have the same key.
-/

namespace SmartDnsPlusUi.Graph

open Run

variable {Node Key : Type}

/-- What was visited: the keys, and the nodes in the order of their visits. -/
structure Visits (Node Key : Type) where
  visited : List Key := []
  order : List Node := []

def Visits.push (key : Node → Key) (visits : Visits Node Key) (node : Node) :
    Visits Node Key where
  visited := key node :: visits.visited
  order := visits.order ++ [node]

/-- `none` when the fuel is spent. -/
def visit [DecidableEq Key] (successors : Node → List Node) (key : Node → Key) :
    Nat → Visits Node Key → Node → Option (Visits Node Key)
  | 0, _, _ => none
  | fuel + 1, visits, node =>
      if key node ∈ visits.visited then some visits
      else
        run (fun visits next => visit successors key fuel visits next) (visits.push key node)
          (successors node)

def Reachable (successors : Node → List Node) : Node → Node → Prop :=
  Relation.ReflTransGen fun node next => next ∈ successors node

theorem Reachable.within {successors : Node → List Node} {within : Node → Prop} {root node : Node}
    (reachable : Reachable successors root node) (start : within root)
    (closed : ∀ node, within node → ∀ next ∈ successors node, within next) : within node := by
  induction reachable with
  | refl => exact start
  | tail _ leads inductionHypothesis => exact closed _ inductionHypothesis _ leads

/-- The nodes that a root reaches, each once, after the root and after a node that leads
to it. -/
structure IsTraversal (successors : Node → List Node) (root : Node) (order : List Node) :
    Prop where
  nodup : order.Nodup
  mem_iff : ∀ node, node ∈ order ↔ Reachable successors root node
  after : ∀ before node later, order = before ++ node :: later →
    before = [] ∧ node = root ∨ ∃ parent ∈ before, node ∈ successors parent

section

variable {successors : Node → List Node} {key : Node → Key}

/-! ### The traversal ends -/

/-- With more fuel than there are keys left, a visit ends. -/
theorem exists_visit [DecidableEq Key] {keys : Finset Key} {within : Node → Prop}
    (bounded : ∀ node, within node → key node ∈ keys)
    (closed : ∀ node, within node → ∀ next ∈ successors node, within next) (fuel : Nat)
    {visits : Visits Node Key} {node : Node} (inside : within node)
    (enough : (keys \ visits.visited.toFinset).card < fuel) :
    ∃ result, visit successors key fuel visits node = some result ∧
      visits.visited ⊆ result.visited := by
  induction fuel generalizing visits node with
  | zero => exact absurd enough (Nat.not_lt_zero _)
  | succ fuel inductionHypothesis =>
      rw [visit]
      by_cases known : key node ∈ visits.visited
      · rw [if_pos known]
        exact ⟨visits, rfl, List.Subset.refl _⟩
      rw [if_neg known]
      have fewer : (keys \ (visits.push key node).visited.toFinset).card <
          (keys \ visits.visited.toFinset).card := by
        apply Finset.card_lt_card
        rw [Finset.ssubset_iff_of_subset]
        · refine ⟨key node, ?_, ?_⟩
          · simp [bounded node inside, known]
          · simp [Visits.push]
        · apply Finset.sdiff_subset_sdiff (Finset.Subset.refl _)
          intro found member
          simp_all [Visits.push]
      -- the keys that are left only become fewer during the loop
      have possible : ∀ state : Visits Node Key,
          (visits.push key node).visited ⊆ state.visited → ∀ next ∈ successors node,
            ∃ result, visit successors key fuel state next = some result ∧
              (visits.push key node).visited ⊆ result.visited := by
        intro state grown next member
        have left : (keys \ state.visited.toFinset).card ≤
            (keys \ (visits.push key node).visited.toFinset).card := by
          apply Finset.card_le_card
          apply Finset.sdiff_subset_sdiff (Finset.Subset.refl _)
          intro found visited
          rw [List.mem_toFinset] at visited ⊢
          exact grown visited
        obtain ⟨result, ended, more⟩ :=
          @inductionHypothesis state next (closed node inside next member) (by omega)
        exact ⟨result, ended, List.Subset.trans grown more⟩
      obtain ⟨result, ended, grown⟩ := exists_run possible (List.Subset.refl _)
      exact ⟨result, ended, fun found member => grown (List.mem_cons_of_mem _ member)⟩

/-! ### What the traversal lists -/

/-- No key comes twice, and each node comes after one that leads to it. -/
structure IsVisiting (successors : Node → List Node) (key : Node → Key) (root : Node)
    (visits : Visits Node Key) : Prop where
  visited : ∀ found, found ∈ visits.visited ↔ ∃ node ∈ visits.order, key node = found
  distinct : (visits.order.map key).Nodup
  after : ∀ before node later, visits.order = before ++ node :: later →
    before = [] ∧ node = root ∨ ∃ parent ∈ before, node ∈ successors parent

/-- The visits go on from earlier ones, and all that the new nodes lead to is visited. -/
structure Continues (successors : Node → List Node) (key : Node → Key)
    (earlier visits : Visits Node Key) : Prop where
  order : earlier.order <+: visits.order
  visited : earlier.visited ⊆ visits.visited
  closed : ∀ node ∈ visits.order, node ∈ earlier.order ∨
    ∀ next ∈ successors node, key next ∈ visits.visited

theorem Continues.refl (visits : Visits Node Key) : Continues successors key visits visits :=
  ⟨List.prefix_refl _, List.Subset.refl _, fun _ member => .inl member⟩

theorem Continues.trans {first second third : Visits Node Key}
    (start : Continues successors key first second)
    (rest : Continues successors key second third) : Continues successors key first third := by
  refine ⟨start.order.trans rest.order, List.Subset.trans start.visited rest.visited, ?_⟩
  intro node member
  rcases rest.closed node member with old | closed
  · rcases start.closed node old with older | closed
    · exact .inl older
    · exact .inr fun next leads => rest.visited (closed next leads)
  · exact .inr closed

theorem isVisiting_push {root node : Node} {visits : Visits Node Key}
    (visiting : IsVisiting successors key root visits) (fresh : key node ∉ visits.visited)
    (follows : visits.order = [] ∧ node = root ∨
      ∃ parent ∈ visits.order, node ∈ successors parent) :
    IsVisiting successors key root (visits.push key node) := by
  refine ⟨?_, ?_, ?_⟩
  · intro found
    simp only [Visits.push, List.mem_cons, visiting.visited found, List.mem_append,
      List.not_mem_nil, or_false]
    constructor
    · rintro (rfl | ⟨other, member, same⟩)
      · exact ⟨node, .inr rfl, rfl⟩
      · exact ⟨other, .inl member, same⟩
    · rintro ⟨other, member | rfl, same⟩
      · exact .inr ⟨other, member, same⟩
      · exact .inl same.symm
  · simp only [Visits.push, List.map_append, List.map_cons, List.map_nil]
    refine visiting.distinct.append (List.nodup_singleton _) ?_
    intro found old new
    rw [List.mem_singleton.mp new, List.mem_map] at old
    exact fresh ((visiting.visited _).mpr old)
  · intro before other later split
    rcases List.eq_nil_or_concat' later with rfl | ⟨front, last, rfl⟩
    · obtain ⟨rfl, same⟩ := List.append_inj' split rfl
      cases List.singleton_injective same
      exact follows
    · rw [← List.cons_append, ← List.append_assoc] at split
      exact visiting.after before other front (List.append_inj' split rfl).1

/-- The loop over what a node leads to, when each visit goes on from the one before. -/
theorem isVisiting_run {step : Visits Node Key → Node → Option (Visits Node Key)} {root : Node}
    (steps : ∀ {visits result node}, IsVisiting successors key root visits →
      (visits.order = [] ∧ node = root ∨ ∃ parent ∈ visits.order, node ∈ successors parent) →
      step visits node = some result → IsVisiting successors key root result ∧
        Continues successors key visits result ∧ key node ∈ result.visited)
    {nodes : List Node} {visits result : Visits Node Key}
    (visiting : IsVisiting successors key root visits)
    (follow : ∀ node ∈ nodes, ∃ parent ∈ visits.order, node ∈ successors parent)
    (ended : run step visits nodes = some result) :
    IsVisiting successors key root result ∧ Continues successors key visits result ∧
      ∀ node ∈ nodes, key node ∈ result.visited := by
  induction nodes generalizing visits with
  | nil =>
      cases ended
      exact ⟨visiting, Continues.refl _, nofun⟩
  | cons node nodes inductionHypothesis =>
      obtain ⟨next, stepped, rest⟩ := run_cons_eq_some ended
      rw [List.forall_mem_cons] at follow
      obtain ⟨kept, grown, visited⟩ := steps visiting (.inr follow.1) stepped
      obtain ⟨atEnd, grows, all⟩ := inductionHypothesis kept (fun other member => by
        obtain ⟨parent, earlier, leads⟩ := follow.2 other member
        exact ⟨parent, grown.order.subset earlier, leads⟩) rest
      exact ⟨atEnd, grown.trans grows, List.forall_mem_cons.mpr ⟨grows.visited visited, all⟩⟩

theorem isVisiting_visit [DecidableEq Key] {root : Node} (fuel : Nat) {visits result : Visits Node Key}
    {node : Node} (visiting : IsVisiting successors key root visits)
    (follows : visits.order = [] ∧ node = root ∨
      ∃ parent ∈ visits.order, node ∈ successors parent)
    (ended : visit successors key fuel visits node = some result) :
    IsVisiting successors key root result ∧ Continues successors key visits result ∧
      key node ∈ result.visited := by
  induction fuel generalizing visits result node with
  | zero => cases ended
  | succ fuel inductionHypothesis =>
      rw [visit] at ended
      by_cases known : key node ∈ visits.visited
      · rw [if_pos known] at ended
        cases ended
        exact ⟨visiting, Continues.refl _, known⟩
      rw [if_neg known] at ended
      have pushed := isVisiting_push visiting known follows
      have own : node ∈ (visits.push key node).order := by simp [Visits.push]
      obtain ⟨atEnd, grown, all⟩ := isVisiting_run inductionHypothesis pushed
        (fun next member => ⟨node, own, member⟩) ended
      refine ⟨atEnd, ⟨?_, ?_, ?_⟩, grown.visited List.mem_cons_self⟩
      · exact (List.prefix_append _ _).trans grown.order
      · exact fun found member => grown.visited (List.mem_cons_of_mem _ member)
      · intro other member
        rcases grown.closed other member with old | closed
        · rcases List.mem_append.mp old with earlier | new
          · exact .inl earlier
          · rw [List.mem_singleton.mp new]
            exact .inr all
        · exact .inr closed

/-! ### The traversal is exact where the keys are -/

variable {root : Node} {fuel : Nat} {result : Visits Node Key}

theorem isVisiting_nil : IsVisiting successors key root {} := by
  refine ⟨?_, List.nodup_nil, ?_⟩
  · intro found
    simp
  · intro before node later split
    simp at split

theorem reachable_of_mem {visits : Visits Node Key}
    (visiting : IsVisiting successors key root visits) {node : Node}
    (member : node ∈ visits.order) : Reachable successors root node := by
  obtain ⟨before, later, split⟩ := List.append_of_mem member
  induction length : before.length using Nat.strong_induction_on generalizing before node later with
  | _ bound inductionHypothesis =>
      rcases visiting.after before node later split with ⟨-, rfl⟩ | ⟨parent, earlier, leads⟩
      · exact .refl
      · obtain ⟨front, back, rfl⟩ := List.append_of_mem earlier
        have shorter : front.length < bound := by
          rw [← length, List.length_append, List.length_cons]
          omega
        have position : visits.order = front ++ parent :: (back ++ node :: later) := by
          rw [split]
          simp
        refine .tail (inductionHypothesis _ shorter ?_ front _ position rfl) leads
        rw [position]
        simp

theorem visited_of_reachable [DecidableEq Key]
    (ended : visit successors key fuel {} root = some result) {node : Node}
    (reachable : Reachable successors root node)
    (injective : Set.InjOn key { node | Reachable successors root node }) :
    node ∈ result.order := by
  obtain ⟨visiting, grown, first⟩ := isVisiting_visit fuel isVisiting_nil (.inl ⟨rfl, rfl⟩) ended
  have listed : ∀ {other}, Reachable successors root other → key other ∈ result.visited →
      other ∈ result.order := by
    intro other reaches visited
    obtain ⟨found, member, same⟩ := (visiting.visited _).mp visited
    rwa [← injective (reachable_of_mem visiting member) reaches same]
  induction reachable with
  | refl => exact listed .refl first
  | @tail parent next reaches leads inductionHypothesis =>
      apply listed (reaches.tail leads)
      rcases grown.closed _ inductionHypothesis with old | closed
      · exact absurd old List.not_mem_nil
      · exact closed next leads

/-- The traversal lists the reachable nodes exactly when their keys tell them apart. -/
theorem isTraversal_iff [DecidableEq Key]
    (ended : visit successors key fuel {} root = some result) :
    IsTraversal successors root result.order ↔
      Set.InjOn key { node | Reachable successors root node } := by
  have visiting := (isVisiting_visit fuel isVisiting_nil (.inl ⟨rfl, rfl⟩) ended).1
  constructor
  · intro traversal one reaches other reachesOther same
    apply List.inj_on_of_nodup_map visiting.distinct _ _ same
    · exact (traversal.mem_iff one).mpr reaches
    · exact (traversal.mem_iff other).mpr reachesOther
  · intro injective
    refine ⟨visiting.distinct.of_map _, fun node => ⟨?_, ?_⟩, visiting.after⟩
    · exact reachable_of_mem visiting
    · exact fun reachable => visited_of_reachable ended reachable injective

end

end SmartDnsPlusUi.Graph
