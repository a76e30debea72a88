import Mathlib.Algebra.Order.Floor.Div
import Mathlib.Data.List.Sort

/-!
# Pages by number and by offset

The pages of a list are its runs of one size.  There are as many as the length divided by
the size and rounded up, and together they are the list.  A walk that goes on from the
offset behind each page, as long as there is more, ends and receives the list.
-/

namespace SmartDnsPlusUi.Table

variable {Row : Type}

/-- The page with a number, from one on. -/
def numberedPage (size : Nat) (rows : List Row) (number : Nat) : List Row :=
  (rows.drop ((number - 1) * size)).take size

/-- The pages with the numbers up to a total are the rows, in runs of one size. -/
structure IsPaged (page : Nat → List Row) (size total : Nat) (rows : List Row) : Prop where
  rows : (List.range total).flatMap (fun index => page (index + 1)) = rows
  full : ∀ number, 1 ≤ number → number < total → (page number).length = size

theorem flatMap_numberedPage (size : Nat) (rows : List Row) (total : Nat) :
    (List.range total).flatMap (fun index => numberedPage size rows (index + 1)) =
      rows.take (total * size) := by
  induction total with
  | zero => simp
  | succ total inductionHypothesis =>
      rw [List.range_succ, List.flatMap_append, inductionHypothesis, Nat.succ_mul, List.take_add,
        List.flatMap_singleton]
      rfl

theorem length_numberedPage (size : Nat) (rows : List Row) (number : Nat) :
    (numberedPage size rows number).length = min size (rows.length - (number - 1) * size) := by
  rw [numberedPage, List.length_take, List.length_drop]

theorem isPaged_numberedPage {size : Nat} (positive : 1 ≤ size) (rows : List Row) :
    IsPaged (numberedPage size rows) size (rows.length ⌈/⌉ size) rows := by
  have enough : rows.length ≤ (rows.length ⌈/⌉ size) * size := by
    rw [Nat.mul_comm, ← smul_eq_mul]
    exact le_smul_ceilDiv positive
  refine ⟨?_, fun number first notLast => ?_⟩
  · rw [flatMap_numberedPage, List.take_of_length_le enough]
  · rw [length_numberedPage]
    refine min_eq_left ?_
    have below : number * size < rows.length := by
      by_contra reached
      have last : rows.length ⌈/⌉ size ≤ number := by
        rw [ceilDiv_le_iff_le_smul positive, smul_eq_mul, Nat.mul_comm]
        exact not_lt.mp reached
      exact absurd notLast (not_lt.mpr last)
    obtain ⟨before, rfl⟩ := Nat.exists_eq_succ_of_ne_zero (Nat.ne_of_gt first)
    rw [Nat.succ_eq_add_one, Nat.add_sub_cancel]
    rw [Nat.succ_mul] at below
    omega

theorem numberedPage_past {size : Nat} (positive : 1 ≤ size) (rows : List Row) {number : Nat}
    (past : rows.length ⌈/⌉ size < number) : numberedPage size rows number = [] := by
  have behind : rows.length ≤ (number - 1) * size := by
    have bound : rows.length ⌈/⌉ size ≤ number - 1 := by omega
    rw [ceilDiv_le_iff_le_smul positive, smul_eq_mul] at bound
    rwa [Nat.mul_comm]
  rw [numberedPage, List.drop_eq_nil_of_le behind, List.take_nil]

/-! ### Pages by offset -/

/-- Ask for pages, each at the offset behind the one before, as long as there is more:
`none` when a page is not given, or when the fuel is spent. -/
def walkOffsets (page : Nat → Option (List Row × Bool)) : Nat → Nat → Option (List (List Row))
  | 0, _ => none
  | fuel + 1, offset =>
      (page offset).bind fun found =>
        if found.2 then (walkOffsets page fuel (offset + found.1.length)).map (found.1 :: ·)
        else some [found.1]

/-- The page at an offset, and whether there are rows behind it. -/
def offsetPage (size : Nat) (rows : List Row) (offset : Nat) : List Row × Bool :=
  ((rows.drop offset).take size,
    decide (offset + ((rows.drop offset).take size).length < rows.length))

theorem drop_offsetPage (size : Nat) (rows : List Row) (offset : Nat) :
    rows.drop offset =
      (offsetPage size rows offset).1 ++
        rows.drop (offset + (offsetPage size rows offset).1.length) := by
  simp only [offsetPage, List.length_take, List.length_drop]
  rw [← List.drop_drop]
  by_cases whole : size ≤ rows.length - offset
  · rw [Nat.min_eq_left whole, List.take_append_drop]
  · have short : (rows.drop offset).length ≤ size := by
      rw [List.length_drop]
      omega
    have shorter : rows.length - offset ≤ size := by omega
    rw [Nat.min_eq_right shorter, List.take_of_length_le short, ← List.length_drop,
      List.drop_length, List.append_nil]

/-- With more fuel than there are rows left, the walk ends and its pages are those rows. -/
theorem walkOffsets_offsetPage {page : Nat → Option (List Row × Bool)} {size : Nat}
    (positive : 1 ≤ size) {rows : List Row}
    (pages : ∀ offset, page offset = some (offsetPage size rows offset)) (fuel : Nat)
    {offset : Nat} (enough : rows.length - offset < fuel) :
    ∃ received, walkOffsets page fuel offset = some received ∧
      received.flatten = rows.drop offset := by
  induction fuel generalizing offset with
  | zero => exact absurd enough (Nat.not_lt_zero _)
  | succ fuel inductionHypothesis =>
      have split := drop_offsetPage size rows offset
      rw [walkOffsets, pages, Option.bind_some]
      by_cases more : (offsetPage size rows offset).2 = true
      · have ahead : offset + (offsetPage size rows offset).1.length < rows.length :=
          of_decide_eq_true more
        have nonempty : 1 ≤ (offsetPage size rows offset).1.length := by
          simp only [offsetPage, List.length_take, List.length_drop] at ahead ⊢
          omega
        have fewer : rows.length - (offset + (offsetPage size rows offset).1.length) < fuel := by
          omega
        obtain ⟨received, walked, later⟩ := inductionHypothesis fewer
        refine ⟨(offsetPage size rows offset).1 :: received, ?_, ?_⟩
        · rw [if_pos more, walked]
          rfl
        · rw [List.flatten_cons, later, ← split]
      · have behind : rows.length ≤ offset + (offsetPage size rows offset).1.length :=
          Nat.le_of_not_lt fun ahead => more (decide_eq_true ahead)
        rw [List.drop_eq_nil_of_le behind, List.append_nil] at split
        refine ⟨[(offsetPage size rows offset).1], if_neg more, ?_⟩
        rw [List.flatten_singleton, split]

end SmartDnsPlusUi.Table
