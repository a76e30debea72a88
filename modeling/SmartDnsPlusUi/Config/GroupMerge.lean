import SmartDnsPlusUi.Config.Assets
import SmartDnsPlusUi.Table.Merge
import SmartDnsPlusUi.Text.Collect

/-!
# Groups merged by name

The list of groups starts without matchers; every closed group brings its matchers
into the first listed group with its name, and its parent if that one has none.
-/

namespace SmartDnsPlusUi

open Text Table

def ManagedRuleGroup.cleared (group : ManagedRuleGroup) : ManagedRuleGroup :=
  { group with matchers := [] }

def ManagedRuleGroup.realize (group dynamic : ManagedRuleGroup) : ManagedRuleGroup :=
  { group with
    matchers := dynamic.matchers
    inherit := if group.inherit = [] then dynamic.inherit else group.inherit }

theorem cleared_eq_self_iff (group : ManagedRuleGroup) :
    group.cleared = group ↔ group.matchers = [] := by
  cases group
  simp [ManagedRuleGroup.cleared, eq_comm]

theorem realize_cleared_self (group : ManagedRuleGroup) : group.cleared.realize group = group := by
  have kept : (if group.inherit = [] then group.inherit else group.inherit) = group.inherit :=
    ite_self _
  exact congrArg (ManagedRuleGroup.mk group.name · group.matchers) kept

@[simp] theorem name_realize (group dynamic : ManagedRuleGroup) :
    (group.realize dynamic).name = group.name := rfl

theorem name_foldl_realize (group : ManagedRuleGroup) (others : List ManagedRuleGroup) :
    (others.foldl ManagedRuleGroup.realize group).name = group.name := by
  induction others generalizing group with
  | nil => rfl
  | cons other others inductionHypothesis => exact inductionHypothesis _

/-- The first option that is not empty stays. -/
theorem inherit_foldl_realize (group : ManagedRuleGroup) (others : List ManagedRuleGroup) :
    (others.foldl ManagedRuleGroup.realize group).inherit =
      if group.inherit = [] then ((others.map (·.inherit)).find? (· ≠ [])).getD []
      else group.inherit := by
  induction others generalizing group with
  | nil => simp
  | cons other others inductionHypothesis =>
      rw [List.foldl_cons, inductionHypothesis]
      by_cases empty : group.inherit = []
      · by_cases otherEmpty : other.inherit = []
        · simp [ManagedRuleGroup.realize, empty, otherEmpty]
        · simp [ManagedRuleGroup.realize, empty, otherEmpty]
      · simp [ManagedRuleGroup.realize, empty]

theorem matchers_foldl_realize {others : List ManagedRuleGroup}
    (empty : ∀ other ∈ others, other.matchers = []) (group : ManagedRuleGroup) :
    (others.foldl ManagedRuleGroup.realize group).matchers =
      if others = [] then group.matchers else [] := by
  induction others generalizing group with
  | nil => rfl
  | cons other others inductionHypothesis =>
      rw [List.forall_mem_cons] at empty
      rw [List.foldl_cons, inductionHypothesis empty.2, if_neg (List.cons_ne_nil _ _)]
      split
      · exact empty.1
      · rfl

theorem foldl_realize_eq_self_iff {others : List ManagedRuleGroup}
    (empty : ∀ other ∈ others, other.matchers = []) (group : ManagedRuleGroup) :
    others.foldl ManagedRuleGroup.realize group = group ↔
      (others ≠ [] → group.matchers = []) ∧
        (group.inherit = [] → ∀ other ∈ others, other.inherit = []) := by
  have fields : ∀ first second : ManagedRuleGroup, first = second ↔
      first.name = second.name ∧ first.inherit = second.inherit ∧
        first.matchers = second.matchers := by
    rintro ⟨_, _, _⟩ ⟨_, _, _⟩
    simp
  have inherits : (others.foldl ManagedRuleGroup.realize group).inherit = group.inherit ↔
      (group.inherit = [] → ∀ other ∈ others, other.inherit = []) := by
    rw [inherit_foldl_realize]
    by_cases own : group.inherit = []
    · rw [if_pos own, own]
      cases found : (others.map (·.inherit)).find? (· ≠ []) with
      | none => simpa using found
      | some inherit =>
          have named : inherit ≠ [] := by simpa using List.find?_some found
          have listed := List.mem_of_find?_eq_some found
          obtain ⟨other, isOther, rfl⟩ := List.mem_map.mp listed
          exact iff_of_false (by simpa using named) fun all => named (all rfl other isOther)
    · simp [own]
  have keeps : (others.foldl ManagedRuleGroup.realize group).matchers = group.matchers ↔
      (others ≠ [] → group.matchers = []) := by
    rw [matchers_foldl_realize empty]
    by_cases alone : others = []
    · simp [alone]
    · simp [alone, eq_comm]
  rw [fields, name_foldl_realize, inherits, keeps]
  exact ⟨fun all => ⟨all.2.2, all.2.1⟩, fun both => ⟨rfl, both.2, both.1⟩⟩

/-- What lets the groups with accepted names be told apart. -/
structure Unconfused (accepted : Text → Bool) (closed : List ManagedRuleGroup) : Prop where
  others : ∀ group ∈ closed, accepted group.name = false → group.matchers = []
  matchers : closed.Pairwise fun first second =>
    first.name = second.name → first.matchers = [] ∧ second.matchers = []
  inherit : ∀ group ∈ closed, accepted group.name = true →
    ∀ first ∈ closed.find? (·.name = group.name), first.inherit = [] → group.inherit = []

theorem unconfused_cons_of_accepted {accepted : Text → Bool} {group : ManagedRuleGroup}
    (isAccepted : accepted group.name = true) (closed : List ManagedRuleGroup) :
    (closed.filter (·.name = group.name)).foldl ManagedRuleGroup.realize group = group ∧
        Unconfused (fun name => accepted name && name != group.name) closed ↔
      Unconfused accepted (group :: closed) := by
  have find (name : Text) (different : name ≠ group.name) :
      (group :: closed).find? (·.name = name) = closed.find? (·.name = name) :=
    List.find?_cons_of_neg (by simpa using different.symm)
  have find_own : (group :: closed).find? (·.name = group.name) = some group :=
    List.find?_cons_of_pos (by simp)
  constructor
  · rintro ⟨fixed, unconfused⟩
    have empty : ∀ other ∈ closed.filter (·.name = group.name), other.matchers = [] := by
      intro other listed
      obtain ⟨isOther, named⟩ := List.mem_filter.mp listed
      exact unconfused.others other isOther (by simp [of_decide_eq_true named])
    obtain ⟨alone, inherits⟩ := (foldl_realize_eq_self_iff empty group).mp fixed
    refine ⟨?_, List.pairwise_cons.mpr ⟨?_, unconfused.matchers⟩, ?_⟩
    · intro other listed rejected
      rcases List.mem_cons.mp listed with rfl | isOther
      · exact absurd isAccepted (by simp [rejected])
      · exact unconfused.others other isOther (by simp [rejected])
    · intro other isOther named
      have listed : other ∈ closed.filter (·.name = group.name) :=
        List.mem_filter.mpr ⟨isOther, by simp [named]⟩
      exact ⟨alone (List.ne_nil_of_mem listed), empty other listed⟩
    · intro other listed otherAccepted first found
      by_cases named : other.name = group.name
      · rw [named, find_own, Option.mem_some_iff] at found
        subst found
        intro none
        rcases List.mem_cons.mp listed with rfl | isOther
        · exact none
        · exact inherits none other (List.mem_filter.mpr ⟨isOther, by simp [named]⟩)
      · rw [find _ named] at found
        rcases List.mem_cons.mp listed with rfl | isOther
        · exact absurd rfl named
        · exact unconfused.inherit other isOther (by simp [otherAccepted, named]) first found
  · intro unconfused
    obtain ⟨apart, matchers⟩ := List.pairwise_cons.mp unconfused.matchers
    have empty : ∀ other ∈ closed.filter (·.name = group.name), other.matchers = [] := by
      intro other listed
      obtain ⟨isOther, named⟩ := List.mem_filter.mp listed
      exact (apart other isOther (of_decide_eq_true named).symm).2
    refine ⟨(foldl_realize_eq_self_iff empty group).mpr ⟨?_, ?_⟩, ?_, matchers, ?_⟩
    · intro nonempty
      obtain ⟨other, listed⟩ := List.exists_mem_of_ne_nil _ nonempty
      obtain ⟨isOther, named⟩ := List.mem_filter.mp listed
      exact (apart other isOther (of_decide_eq_true named).symm).1
    · intro none other listed
      obtain ⟨isOther, named⟩ := List.mem_filter.mp listed
      have same : other.name = group.name := of_decide_eq_true named
      exact unconfused.inherit other (List.mem_cons_of_mem _ isOther) (same ▸ isAccepted) group
        (same ▸ find_own) none
    · intro other isOther rejected
      by_cases named : other.name = group.name
      · exact (apart other isOther named.symm).2
      · refine unconfused.others other (List.mem_cons_of_mem _ isOther) ?_
        simpa [named] using rejected
    · intro other isOther both first found
      obtain ⟨otherAccepted, named⟩ := Bool.and_eq_true_iff.mp both
      have different : other.name ≠ group.name := bne_iff_ne.mp named
      rw [← find _ different] at found
      exact unconfused.inherit other (List.mem_cons_of_mem _ isOther) otherAccepted first found

theorem unconfused_cons_of_rejected {accepted : Text → Bool} {group : ManagedRuleGroup}
    (isRejected : ¬ accepted group.name = true) (closed : List ManagedRuleGroup) :
    group.matchers = [] ∧ Unconfused accepted closed ↔ Unconfused accepted (group :: closed) := by
  have rejected : accepted group.name = false := Bool.eq_false_iff.mpr isRejected
  have different {other : ManagedRuleGroup} (otherAccepted : accepted other.name = true) :
      group.name ≠ other.name := fun named => isRejected (named ▸ otherAccepted)
  constructor
  · rintro ⟨own, unconfused⟩
    refine ⟨?_, List.pairwise_cons.mpr ⟨?_, unconfused.matchers⟩, ?_⟩
    · exact List.forall_mem_cons.mpr ⟨fun _ => own, unconfused.others⟩
    · intro other isOther named
      exact ⟨own, unconfused.others other isOther (named ▸ rejected)⟩
    · intro other listed otherAccepted first found
      rw [List.find?_cons_of_neg (by simpa using different otherAccepted)] at found
      rcases List.mem_cons.mp listed with rfl | isOther
      · exact absurd otherAccepted isRejected
      · exact unconfused.inherit other isOther otherAccepted first found
  · intro unconfused
    obtain ⟨own, others⟩ := List.forall_mem_cons.mp unconfused.others
    refine ⟨own rejected, others, (List.pairwise_cons.mp unconfused.matchers).2, ?_⟩
    intro other isOther otherAccepted first found
    refine unconfused.inherit other (List.mem_cons_of_mem _ isOther) otherAccepted first ?_
    rwa [List.find?_cons_of_neg (by simpa using different otherAccepted)]

/-- Merging the closed groups into all groups without their matchers gives the groups
again, exactly if those with the accepted names can be told apart and the others
have no matchers. -/
theorem mergeAll_cleared_eq_iff (closed unclosed : List ManagedRuleGroup) (accepted : Text → Bool) :
    mergeAll ManagedRuleGroup.name ManagedRuleGroup.realize
        ((closed ++ unclosed).map ManagedRuleGroup.cleared)
        (closed.filter fun group => accepted group.name) = closed ++ unclosed ↔
      (∀ group ∈ unclosed, group.matchers = []) ∧ Unconfused accepted closed := by
  induction closed generalizing accepted with
  | nil =>
      have empty : Unconfused accepted [] := ⟨nofun, .nil, nofun⟩
      have fixed := map_eq_self_iff (f := ManagedRuleGroup.cleared) unclosed
      simpa [cleared_eq_self_iff, empty] using fixed
  | cons group closed inductionHypothesis =>
      have keeps : ∀ first element : ManagedRuleGroup,
          (first.realize element).name = first.name := fun _ _ => rfl
      rw [List.cons_append, List.map_cons, mergeAll_into_cons keeps, List.cons.injEq]
      let acceptedGroup (other : ManagedRuleGroup) := accepted other.name
      by_cases isAccepted : accepted group.name = true
      · have same : ((group :: closed).filter fun other => accepted other.name).filter
            (·.name = group.cleared.name) = group :: closed.filter (·.name = group.name) := by
          rw [List.filter_cons_of_pos (p := acceptedGroup) isAccepted,
            List.filter_cons_of_pos (by simp [ManagedRuleGroup.cleared]), List.filter_filter]
          refine congrArg _ (List.filter_congr fun other _ => ?_)
          by_cases named : other.name = group.name
          · simp [acceptedGroup, ManagedRuleGroup.cleared, named, isAccepted]
          · simp [ManagedRuleGroup.cleared, named]
        have different : ((group :: closed).filter fun other => accepted other.name).filter
            (·.name ≠ group.cleared.name) =
              closed.filter fun other => accepted other.name && other.name != group.name := by
          rw [List.filter_cons_of_pos (p := acceptedGroup) isAccepted,
            List.filter_cons_of_neg (by simp [ManagedRuleGroup.cleared]), List.filter_filter]
          refine List.filter_congr fun other _ => ?_
          by_cases named : other.name = group.name
          · simp [ManagedRuleGroup.cleared, named]
          · simp [acceptedGroup, ManagedRuleGroup.cleared, named]
        rw [same, different, List.foldl_cons, realize_cleared_self,
          inductionHypothesis fun name => accepted name && name != group.name]
        rw [and_left_comm, unconfused_cons_of_accepted isAccepted]
      · have same : ((group :: closed).filter fun other => accepted other.name).filter
            (·.name = group.cleared.name) = [] := by
          rw [List.filter_cons_of_neg (p := acceptedGroup) isAccepted, List.filter_filter,
            List.filter_eq_nil_iff]
          intro other _ both
          have named : other.name = group.name :=
            of_decide_eq_true (Bool.and_eq_true_iff.mp both).1
          exact isAccepted (named ▸ (Bool.and_eq_true_iff.mp both).2)
        have different : ((group :: closed).filter fun other => accepted other.name).filter
            (·.name ≠ group.cleared.name) = closed.filter fun other => accepted other.name := by
          rw [List.filter_cons_of_neg (p := acceptedGroup) isAccepted, List.filter_eq_self]
          intro other listed
          have otherAccepted := (List.mem_filter.mp listed).2
          refine decide_eq_true fun named : other.name = group.name => isAccepted ?_
          exact named ▸ otherAccepted
        rw [same, different, List.foldl_nil, cleared_eq_self_iff, inductionHypothesis accepted]
        rw [and_left_comm, unconfused_cons_of_rejected isAccepted]

end SmartDnsPlusUi
