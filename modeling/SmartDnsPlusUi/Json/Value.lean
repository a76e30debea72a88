import Mathlib.Algebra.Group.Nat.Defs
import Mathlib.Data.List.Basic
import SmartDnsPlusUi.Text.Json

/-!
# JSON values

A value is a tree.  An object keeps its members sorted by their keys, whatever the
order in which they were inserted.  A number is an integer of 64 bits or an `f64`,
kept as its bits.
-/

namespace SmartDnsPlusUi.Json

open Text

inductive Number where
  | posInt (n : UInt64)
  | negInt (n : Int64)
  | float (bits : UInt64)
  deriving DecidableEq

/-- The exponent of an infinity or of no number has all its bits set. -/
def isFiniteF64 (bits : UInt64) : Bool := (bits >>> 52) &&& 0x7ff ≠ 0x7ff

inductive Value where
  | null
  | bool (b : Bool)
  | number (n : Number)
  | string (t : Text)
  | array (items : List Value)
  | object (members : List (Text × Value))

namespace Value

/-! ### Building values -/

/-- Insert a member at its place, or replace the member with the same key. -/
def insertMember (key : Text) (value : Value) : List (Text × Value) → List (Text × Value)
  | [] => [(key, value)]
  | (first, held) :: rest =>
      if key = first then (key, value) :: rest
      else if keyLe key first then (key, value) :: (first, held) :: rest
      else (first, held) :: insertMember key value rest

/-- Insert the members one after the other. -/
def insertAll (members start : List (Text × Value)) : List (Text × Value) :=
  members.foldl (fun map entry => insertMember entry.1 entry.2 map) start

def ofMembers (members : List (Text × Value)) : Value := .object (insertAll members [])

def ofU64 (n : UInt64) : Value := .number (.posInt n)

def ofI64 (n : Int64) : Value :=
  if n < 0 then .number (.negInt n) else .number (.posInt n.toUInt64)

/-- There is no number for an infinity. -/
def ofF64 (bits : UInt64) : Value :=
  if isFiniteF64 bits then .number (.float bits) else .null

/-! ### Reading values -/

/-- The member with the key, or null. -/
def get (key : Text) : Value → Value
  | .object members => (members.lookup key).getD .null
  | _ => .null

/-- The item at the index, or null. -/
def item (index : Nat) : Value → Value
  | .array items => (items[index]?).getD .null
  | _ => .null

def asBool : Value → Option Bool
  | .bool b => some b
  | _ => none

def asStr : Value → Option Text
  | .string t => some t
  | _ => none

def asArray : Value → Option (List Value)
  | .array items => some items
  | _ => none

def asU64 : Value → Option UInt64
  | .number (.posInt n) => some n
  | _ => none

def asI64 : Value → Option Int64
  | .number (.posInt n) => if n.toNat < 2 ^ 63 then some n.toInt64 else none
  | .number (.negInt n) => some n
  | _ => none

/-- The bits of the `f64` nearest to a natural number. -/
def f64OfNat (n : Nat) : Nat :=
  if n = 0 then 0
  else
    let exponent := Nat.log2 n
    let mantissa :=
      if exponent ≤ 52 then n * 2 ^ (52 - exponent)
      else
        let unit := 2 ^ (exponent - 52)
        let quotient := n / unit
        if n % unit * 2 > unit ∨ n % unit * 2 = unit ∧ quotient % 2 = 1 then quotient + 1
        else quotient
    (exponent + 1023) * 2 ^ 52 + (mantissa - 2 ^ 52)

/-- A conversion that rounds to the nearest `f64`, to an even one if two are nearest. -/
def f64OfInt (n : Int) : UInt64 :=
  UInt64.ofNat (if n < 0 then 2 ^ 63 + f64OfNat n.natAbs else f64OfNat n.natAbs)

def asF64 : Value → Option UInt64
  | .number (.posInt n) => some (f64OfInt n.toNat)
  | .number (.negInt n) => some (f64OfInt n.toInt)
  | .number (.float bits) => some bits
  | _ => none

/-! ### Reading what was built -/

theorem lookup_cons_ite (other key : Text) (value : Value) (members : List (Text × Value)) :
    ((key, value) :: members).lookup other =
      if other = key then some value else members.lookup other := by
  by_cases same : other = key
  · subst same
    rw [List.lookup_cons_self, if_pos rfl]
  · rw [List.lookup_cons, beq_eq_false_iff_ne.mpr same, if_neg same]

theorem lookup_insertMember (key other : Text) (value : Value) (members : List (Text × Value)) :
    (insertMember key value members).lookup other =
      if other = key then some value else members.lookup other := by
  induction members with
  | nil => rw [insertMember, lookup_cons_ite]
  | cons entry members inductionHypothesis =>
      obtain ⟨first, held⟩ := entry
      rw [insertMember, lookup_cons_ite other first]
      by_cases replaced : key = first
      · rw [if_pos replaced, lookup_cons_ite]
        by_cases same : other = key
        · rw [if_pos same, if_pos same]
        · rw [if_neg same, if_neg same, if_neg fun equal => same (equal.trans replaced.symm)]
      · rw [if_neg replaced]
        by_cases before : keyLe key first = true
        · rw [if_pos before, lookup_cons_ite, lookup_cons_ite]
        · rw [if_neg before, lookup_cons_ite, inductionHypothesis]
          by_cases same : other = key
          · rw [if_pos same, if_pos same, if_neg fun equal => replaced (same.symm.trans equal)]
          · rw [if_neg same, if_neg same]

theorem lookup_insertAll_of_not_mem {key : Text} {members : List (Text × Value)}
    (absent : key ∉ members.map Prod.fst) (start : List (Text × Value)) :
    (insertAll members start).lookup key = start.lookup key := by
  induction members generalizing start with
  | nil => rfl
  | cons entry members inductionHypothesis =>
      rw [List.map_cons, List.mem_cons, not_or] at absent
      rw [insertAll, List.foldl_cons, ← insertAll, inductionHypothesis absent.2,
        lookup_insertMember, if_neg absent.1]

theorem lookup_insertAll_of_mem {key : Text} {value : Value} {members : List (Text × Value)}
    (distinct : (members.map Prod.fst).Nodup) (member : (key, value) ∈ members)
    (start : List (Text × Value)) : (insertAll members start).lookup key = some value := by
  induction members generalizing start with
  | nil => simp at member
  | cons entry members inductionHypothesis =>
      rw [List.map_cons, List.nodup_cons] at distinct
      rw [insertAll, List.foldl_cons, ← insertAll]
      rcases List.mem_cons.mp member with rfl | later
      · rw [lookup_insertAll_of_not_mem distinct.1, lookup_insertMember, if_pos rfl]
      · exact inductionHypothesis distinct.2 later _

/-- Members with different keys are all found. -/
theorem get_ofMembers {key : Text} {value : Value} {members : List (Text × Value)}
    (distinct : (members.map Prod.fst).Nodup) (member : (key, value) ∈ members) :
    (ofMembers members).get key = value := by
  have found := lookup_insertAll_of_mem distinct member []
  rw [ofMembers, get, found, Option.getD_some]

theorem get_of_members {record : Value} {members : List (Text × Value)}
    (built : record = ofMembers members) (distinct : (members.map Prod.fst).Nodup) :
    ∀ entry ∈ members, record.get entry.1 = entry.2 := by
  intro entry member
  rw [built]
  exact get_ofMembers distinct member

theorem get_ofMembers_of_not_mem {key : Text} {members : List (Text × Value)}
    (absent : key ∉ members.map Prod.fst) : (ofMembers members).get key = .null := by
  have found := lookup_insertAll_of_not_mem absent []
  rw [ofMembers, get, found, List.lookup_nil, Option.getD_none]

/-! ### Canonical values -/

end Value

open Value

/-- Integers that are not negative are kept without sign, and floats are finite. -/
def Number.IsCanonical : Number → Prop
  | .posInt _ => True
  | .negInt n => n < 0
  | .float bits => isFiniteF64 bits = true

/-- Strictly sorted by the keys. -/
def IsSorted (members : List (Text × Value)) : Prop :=
  members.Pairwise fun entry later => keyLe entry.1 later.1 = true ∧ entry.1 ≠ later.1

/-- The values that the functions above build. -/
inductive IsCanonical : Value → Prop where
  | null : IsCanonical .null
  | bool (b : Bool) : IsCanonical (.bool b)
  | number {n : Number} (canonical : n.IsCanonical) : IsCanonical (.number n)
  | string (t : Text) : IsCanonical (.string t)
  | array {items : List Value} (each : ∀ item ∈ items, IsCanonical item) :
      IsCanonical (.array items)
  | object {members : List (Text × Value)} (sorted : IsSorted members)
      (each : ∀ entry ∈ members, IsCanonical entry.2) : IsCanonical (.object members)

theorem mem_insertMember {key : Text} {value : Value} {members : List (Text × Value)}
    {entry : Text × Value} (listed : entry ∈ insertMember key value members) :
    entry = (key, value) ∨ entry ∈ members := by
  induction members with
  | nil => simpa [insertMember] using listed
  | cons first members inductionHypothesis =>
      rw [insertMember] at listed
      split_ifs at listed
      · rcases List.mem_cons.mp listed with rfl | later
        · exact .inl rfl
        · exact .inr (List.mem_cons_of_mem _ later)
      · rcases List.mem_cons.mp listed with rfl | later
        · exact .inl rfl
        · exact .inr later
      · rcases List.mem_cons.mp listed with rfl | later
        · exact .inr List.mem_cons_self
        · exact (inductionHypothesis later).imp_right (List.mem_cons_of_mem _)

theorem isSorted_insertMember {key : Text} {value : Value} {members : List (Text × Value)}
    (sorted : IsSorted members) : IsSorted (insertMember key value members) := by
  induction members with
  | nil => simp [insertMember, IsSorted]
  | cons first members inductionHypothesis =>
      obtain ⟨head, tail⟩ := List.pairwise_cons.mp sorted
      rw [insertMember]
      split_ifs with same before
      · exact List.pairwise_cons.mpr ⟨fun later listed => same ▸ head later listed, tail⟩
      · refine List.pairwise_cons.mpr ⟨fun later listed => ?_, sorted⟩
        rcases List.mem_cons.mp listed with rfl | listed
        · exact ⟨before, same⟩
        · have next := head later listed
          refine ⟨keyLe_trans _ _ _ before next.1, ?_⟩
          rintro rfl
          exact same (keyLe_antisymm before next.1)
      · refine List.pairwise_cons.mpr ⟨fun later listed => ?_, inductionHypothesis tail⟩
        rcases mem_insertMember listed with rfl | listed
        · have total := keyLe_total key first.1
          rw [Bool.or_eq_true] at total
          exact ⟨total.resolve_left before, Ne.symm same⟩
        · exact head later listed

theorem mem_insertAll {members start : List (Text × Value)} {entry : Text × Value}
    (listed : entry ∈ insertAll members start) : entry ∈ members ∨ entry ∈ start := by
  induction members generalizing start with
  | nil => exact .inr listed
  | cons first members inductionHypothesis =>
      rw [insertAll, List.foldl_cons, ← insertAll] at listed
      rcases inductionHypothesis listed with later | inserted
      · exact .inl (List.mem_cons_of_mem _ later)
      · rcases mem_insertMember inserted with rfl | held
        · exact .inl List.mem_cons_self
        · exact .inr held

theorem isSorted_insertAll (members : List (Text × Value)) {start : List (Text × Value)}
    (sorted : IsSorted start) : IsSorted (insertAll members start) := by
  induction members generalizing start with
  | nil => exact sorted
  | cons first members inductionHypothesis =>
      rw [insertAll, List.foldl_cons, ← insertAll]
      exact inductionHypothesis (isSorted_insertMember sorted)

theorem IsSorted.nodup {members : List (Text × Value)} (sorted : IsSorted members) :
    (members.map Prod.fst).Nodup :=
  List.pairwise_map.mpr (sorted.imp fun both => both.2)

theorem perm_insertMember {key : Text} {value : Value} {members : List (Text × Value)}
    (absent : key ∉ members.map Prod.fst) :
    (insertMember key value members).Perm ((key, value) :: members) := by
  induction members with
  | nil => exact .refl _
  | cons first members inductionHypothesis =>
      rw [List.map_cons, List.mem_cons, not_or] at absent
      rw [insertMember, if_neg absent.1]
      split_ifs
      · exact .refl _
      · exact ((inductionHypothesis absent.2).cons first).trans (.swap _ _ _)

/-- Members with different keys are all kept. -/
theorem perm_insertAll {members start : List (Text × Value)}
    (distinct : ((start ++ members).map Prod.fst).Nodup) :
    (insertAll members start).Perm (start ++ members) := by
  induction members generalizing start with
  | nil => exact (List.append_nil start).symm ▸ .refl _
  | cons first members inductionHypothesis =>
      have moved : (start ++ first :: members).Perm (first :: start ++ members) :=
        List.perm_middle
      have distinctMoved := (moved.map Prod.fst).nodup_iff.mp distinct
      have absent : first.1 ∉ start.map Prod.fst := by
        rw [List.cons_append, List.map_cons, List.nodup_cons, List.map_append] at distinctMoved
        exact fun listed => distinctMoved.1 (List.mem_append_left _ listed)
      have inserted : (insertMember first.1 first.2 start).Perm _ := perm_insertMember absent
      rw [insertAll, List.foldl_cons, ← insertAll]
      have whole := inserted.append_right members
      exact (inductionHypothesis ((whole.map Prod.fst).nodup_iff.mpr distinctMoved)).trans
        (whole.trans moved.symm)

theorem insertMember_of_last {key : Text} {value : Value} {members : List (Text × Value)}
    (later : ∀ entry ∈ members, keyLe entry.1 key = true ∧ entry.1 ≠ key) :
    insertMember key value members = members ++ [(key, value)] := by
  induction members with
  | nil => rfl
  | cons first members inductionHypothesis =>
      rw [List.forall_mem_cons] at later
      have before : ¬ keyLe key first.1 = true := fun before =>
        later.1.2 (keyLe_antisymm later.1.1 before)
      rw [insertMember, if_neg (Ne.symm later.1.2), if_neg before, inductionHypothesis later.2,
        List.cons_append]

/-- Members that are sorted are kept as they are. -/
theorem insertAll_of_isSorted {members start : List (Text × Value)}
    (sorted : IsSorted (start ++ members)) : insertAll members start = start ++ members := by
  induction members generalizing start with
  | nil => exact (List.append_nil start).symm
  | cons first members inductionHypothesis =>
      have last : insertMember first.1 first.2 start = _ := insertMember_of_last fun entry listed =>
        (List.pairwise_append.mp sorted).2.2 entry listed first List.mem_cons_self
      have shape : start ++ first :: members = (start ++ [first]) ++ members := by simp
      rw [insertAll, List.foldl_cons, ← insertAll, last, shape]
      exact inductionHypothesis (shape ▸ sorted)

theorem isCanonical_ofMembers {members : List (Text × Value)}
    (each : ∀ entry ∈ members, IsCanonical entry.2) : IsCanonical (ofMembers members) :=
  .object (isSorted_insertAll members List.Pairwise.nil) fun entry listed =>
    each entry ((mem_insertAll listed).resolve_right (by simp))

theorem isCanonical_ofU64 (n : UInt64) : IsCanonical (ofU64 n) := .number trivial

theorem isCanonical_ofI64 (n : Int64) : IsCanonical (ofI64 n) := by
  by_cases negative : n < 0
  · rw [ofI64, if_pos negative]
    exact .number negative
  · rw [ofI64, if_neg negative]
    exact .number trivial

theorem isCanonical_ofF64 (bits : UInt64) : IsCanonical (ofF64 bits) := by
  by_cases finite : isFiniteF64 bits = true
  · rw [ofF64, if_pos finite]
    exact .number finite
  · rw [ofF64, if_neg finite]
    exact .null

/-! ### Numbers -/

@[simp] theorem asU64_ofU64 (n : UInt64) : (ofU64 n).asU64 = some n := rfl

theorem asF64_ofF64 {bits : UInt64} (finite : isFiniteF64 bits = true) :
    (ofF64 bits).asF64 = some bits := by
  rw [ofF64, if_pos finite, asF64]

theorem asI64_ofI64 (n : Int64) : (ofI64 n).asI64 = some n := by
  by_cases negative : n < 0
  · rw [ofI64, if_pos negative, asI64]
  · have nonneg := Int64.not_lt.mp negative
    have small : n.toUInt64.toNat < 2 ^ 63 := by
      rw [Int64.toNat_toUInt64_of_le nonneg]
      exact n.toNatClampNeg_lt
    rw [ofI64, if_neg negative, asI64, if_pos small, Int64.toInt64_toUInt64]

/-- A library that writes values as texts and reads them back. -/
structure Library where
  toString : Value → Text
  fromStr : Text → Except Text Value
  fromStr_toString : ∀ value, IsCanonical value → fromStr (toString value) = .ok value

end SmartDnsPlusUi.Json
