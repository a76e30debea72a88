import Mathlib.Data.List.Basic
import Mathlib.Data.List.Count
import Mathlib.Data.List.Induction
import Mathlib.Data.List.Perm.Basic
import Mathlib.Algebra.BigOperators.Group.List.Basic
import Mathlib.Algebra.GroupWithZero.Nat

/-!
# Tallies

Occurrences of keys are tallied in counters that wrap at a modulus.  The
entries of a tally are then added, in any order, to a table of totals.
-/

namespace SmartDnsPlusUi.Table

/-- A table with a unique key: the row of each key, if it has one. -/
abbrev Rows (Key Row : Type) := Key → Option Row

variable {Key : Type} [DecidableEq Key]

/-- Increment the counter of the key, starting it at one. -/
def tallyKey (modulus : Nat) (key : Key) : List (Key × Nat) → List (Key × Nat)
  | [] => [(key, 1)]
  | (other, count) :: rest =>
      if other = key then (other, (count + 1) % modulus) :: rest
      else (other, count) :: tallyKey modulus key rest

def tally (modulus : Nat) (keys : List Key) : List (Key × Nat) :=
  keys.foldl (fun counts key => tallyKey modulus key counts) []

/-- Insert the entry, or add its count to the row that is there. -/
def addCount (table : Rows Key Nat) (entry : Key × Nat) : Rows Key Nat := fun key =>
  if key = entry.1 then
    match table key with
    | none => some entry.2
    | some count => some (count + entry.2)
  else table key

def addAll (table : Rows Key Nat) (entries : List (Key × Nat)) : Rows Key Nat :=
  entries.foldl addCount table

/-- What the entries of a key add up to. -/
def amount (entries : List (Key × Nat)) (key : Key) : Nat :=
  ((entries.filter (·.1 = key)).map (·.2)).sum

@[simp] theorem amount_nil (key : Key) : amount [] key = 0 := rfl

theorem amount_cons (entry : Key × Nat) (entries : List (Key × Nat)) (key : Key) :
    amount (entry :: entries) key =
      if entry.1 = key then entry.2 + amount entries key else amount entries key := by
  by_cases same : entry.1 = key <;> simp [amount, same]

theorem amount_eq_zero {entries : List (Key × Nat)} {key : Key}
    (absent : key ∉ entries.map (·.1)) : amount entries key = 0 := by
  induction entries with
  | nil => rfl
  | cons entry entries inductionHypothesis =>
      rw [List.map_cons, List.mem_cons, not_or] at absent
      rw [amount_cons, if_neg (Ne.symm absent.1), inductionHypothesis absent.2]

theorem amount_perm {entries others : List (Key × Nat)} (same : entries.Perm others) (key : Key) :
    amount entries key = amount others key :=
  ((same.filter _).map _).sum_eq

/-! ## The tally of a sequence of keys -/

theorem keys_tallyKey (modulus : Nat) (key other : Key) (counts : List (Key × Nat)) :
    other ∈ (tallyKey modulus key counts).map (·.1) ↔ other = key ∨ other ∈ counts.map (·.1) := by
  induction counts with
  | nil => simp [tallyKey]
  | cons entry counts inductionHypothesis =>
      unfold tallyKey
      by_cases same : entry.1 = key
      · subst same
        simp
      · rw [if_neg same, List.map_cons, List.mem_cons, inductionHypothesis, List.map_cons,
          List.mem_cons]
        exact or_left_comm

theorem nodup_tallyKey (modulus : Nat) (key : Key) {counts : List (Key × Nat)}
    (unique : (counts.map (·.1)).Nodup) : ((tallyKey modulus key counts).map (·.1)).Nodup := by
  induction counts with
  | nil => simp [tallyKey]
  | cons entry counts inductionHypothesis =>
      unfold tallyKey
      by_cases same : entry.1 = key
      · rw [if_pos same]
        exact unique
      · rw [List.map_cons, List.nodup_cons] at unique
        rw [if_neg same, List.map_cons, List.nodup_cons]
        refine ⟨fun inside => ?_, inductionHypothesis unique.2⟩
        rcases (keys_tallyKey modulus key _ counts).mp inside with found | inside
        · exact same found
        · exact unique.1 inside

theorem amount_tallyKey {modulus : Nat} (wide : 1 < modulus) (key other : Key)
    {counts : List (Key × Nat)} (unique : (counts.map (·.1)).Nodup) :
    amount (tallyKey modulus key counts) other =
      if key = other then (amount counts other + 1) % modulus else amount counts other := by
  induction counts with
  | nil =>
      by_cases same : key = other
      · simp [tallyKey, amount_cons, same, Nat.mod_eq_of_lt wide]
      · simp [tallyKey, amount_cons, same]
  | cons entry counts inductionHypothesis =>
      rw [List.map_cons, List.nodup_cons] at unique
      unfold tallyKey
      by_cases found : entry.1 = key
      · subst found
        rw [if_pos rfl, amount_cons, amount_cons]
        by_cases same : entry.1 = other
        · subst same
          simp [amount_eq_zero unique.1]
        · simp [same]
      · rw [if_neg found, amount_cons, amount_cons, inductionHypothesis unique.2]
        by_cases same : entry.1 = other
        · have differ : ¬ key = other := fun equal => found (same.trans equal.symm)
          simp [same, differ]
        · simp [same]

/-- The counts are the tally of the keys. -/
structure IsTally (modulus : Nat) (keys : List Key) (counts : List (Key × Nat)) : Prop where
  nodup : (counts.map (·.1)).Nodup
  mem_iff : ∀ key, key ∈ counts.map (·.1) ↔ key ∈ keys
  amount_eq : ∀ key, amount counts key = keys.count key % modulus

theorem tally_append (modulus : Nat) (keys : List Key) (key : Key) :
    tally modulus (keys ++ [key]) = tallyKey modulus key (tally modulus keys) := by
  simp [tally, List.foldl_append]

theorem isTally_tally {modulus : Nat} (wide : 1 < modulus) (keys : List Key) :
    IsTally modulus keys (tally modulus keys) := by
  induction keys using List.reverseRecOn with
  | nil => exact ⟨List.nodup_nil, by simp [tally], by simp [tally]⟩
  | append_singleton keys key inductionHypothesis =>
      rw [tally_append]
      refine ⟨nodup_tallyKey modulus key inductionHypothesis.nodup, fun other => ?_,
        fun other => ?_⟩
      · rw [keys_tallyKey, inductionHypothesis.mem_iff, List.mem_append, List.mem_singleton,
          or_comm]
      · rw [amount_tallyKey wide key other inductionHypothesis.nodup,
          inductionHypothesis.amount_eq, List.count_append]
        by_cases same : key = other
        · subst same
          simp
        · simp [same]

theorem IsTally.perm {modulus : Nat} {keys : List Key} {counts others : List (Key × Nat)}
    (isTally : IsTally modulus keys counts) (same : others.Perm counts) :
    IsTally modulus keys others :=
  ⟨((same.map _).nodup_iff).mpr isTally.nodup,
    fun key => ((same.map _).mem_iff).trans (isTally.mem_iff key),
    fun key => (amount_perm same key).trans (isTally.amount_eq key)⟩

/-! ## Adding a tally to a table -/

theorem addAll_apply (table : Rows Key Nat) (entries : List (Key × Nat)) (key : Key) :
    addAll table entries key =
      if key ∈ entries.map (·.1) then some ((table key).getD 0 + amount entries key)
      else table key := by
  induction entries generalizing table with
  | nil => simp [addAll]
  | cons entry entries inductionHypothesis =>
      have step : addAll table (entry :: entries) = addAll (addCount table entry) entries := rfl
      rw [step, inductionHypothesis, amount_cons]
      simp only [List.map_cons, List.mem_cons]
      by_cases same : key = entry.1
      · subst same
        rcases row : table entry.1 with _ | count <;>
          by_cases later : entry.1 ∈ entries.map (·.1) <;>
          simp [addCount, row, later, amount_eq_zero, Nat.add_assoc]
      · by_cases later : key ∈ entries.map (·.1)
        · rw [if_pos later, if_pos (Or.inr later), if_neg (Ne.symm same)]
          simp [addCount, same]
        · rw [if_neg later, if_neg (not_or.mpr ⟨same, later⟩)]
          simp [addCount, same]

/-- The rows after a tally is added: the key of every occurrence has a row, and
its total has grown by the wrapped number of occurrences. -/
theorem IsTally.addAll_apply {modulus : Nat} {keys : List Key} {counts : List (Key × Nat)}
    (isTally : IsTally modulus keys counts) (table : Rows Key Nat) (key : Key) :
    addAll table counts key =
      if key ∈ keys then some ((table key).getD 0 + keys.count key % modulus)
      else table key := by
  rw [Table.addAll_apply, isTally.amount_eq]
  simp only [isTally.mem_iff]

theorem sum_map_mod_le (modulus : Nat) (counts : List Nat) :
    (counts.map (· % modulus)).sum ≤ counts.sum := by
  induction counts with
  | nil => exact Nat.le_refl 0
  | cons count counts inductionHypothesis =>
      have wrapped := Nat.mod_le count modulus
      simp only [List.map_cons, List.sum_cons]
      omega

/-- Wrapping loses nothing exactly when nothing wraps. -/
theorem sum_map_mod_eq_iff {modulus : Nat} (positive : 0 < modulus) (counts : List Nat) :
    (counts.map (· % modulus)).sum = counts.sum ↔ ∀ count ∈ counts, count < modulus := by
  induction counts with
  | nil => simp
  | cons count counts inductionHypothesis =>
      have wrapped := Nat.mod_le count modulus
      have others := sum_map_mod_le modulus counts
      rw [List.map_cons, List.sum_cons, List.sum_cons, List.forall_mem_cons,
        ← inductionHypothesis]
      constructor
      · intro same
        have exact : count % modulus = count := by omega
        exact ⟨exact ▸ Nat.mod_lt count positive, by omega⟩
      · rintro ⟨small, same⟩
        rw [Nat.mod_eq_of_lt small, same]

end SmartDnsPlusUi.Table
