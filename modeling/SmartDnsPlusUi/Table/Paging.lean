import Mathlib.Data.List.DropRight
import Mathlib.Data.List.Sort

/-!
# Walking through pages

A page is asked for with the last row received as the cursor, until a page is
empty.  When a page has the first rows behind its cursor, in a strict order, the
walk receives all of them, once each and in that order.
-/

namespace SmartDnsPlusUi.Table

variable {Row : Type}

/-- Ask for pages until one is empty: all rows received, if the fuel lasts. -/
def walk (page : Option Row → List Row) : Nat → Option Row → Option (List Row)
  | 0, _ => none
  | fuel + 1, cursor =>
      match (page cursor).getLast? with
      | none => some []
      | some last => (walk page fuel (some last)).map (page cursor ++ ·)

/-- The walk from a cursor ends with these rows. -/
def Walks (page : Option Row → List Row) (cursor : Option Row) (rows : List Row) : Prop :=
  ∃ fuel, walk page fuel cursor = some rows

theorem walks_of_empty {page : Option Row → List Row} {cursor : Option Row}
    (empty : page cursor = []) : Walks page cursor [] :=
  ⟨1, by simp [walk, empty]⟩

theorem walks_append {page : Option Row → List Row} {cursor : Option Row} {last : Row}
    {rows : List Row} (ends : (page cursor).getLast? = some last)
    (later : Walks page (some last) rows) : Walks page cursor (page cursor ++ rows) := by
  obtain ⟨fuel, walked⟩ := later
  refine ⟨fuel + 1, ?_⟩
  simp [walk, ends, walked]

theorem walks_cases {page : Option Row → List Row} {cursor : Option Row} {rows : List Row}
    (walks : Walks page cursor rows) :
    (page cursor = [] ∧ rows = []) ∨
      ∃ last later, (page cursor).getLast? = some last ∧ Walks page (some last) later ∧
        rows = page cursor ++ later := by
  obtain ⟨fuel, walked⟩ := walks
  cases fuel with
  | zero => cases walked
  | succ fuel =>
      unfold walk at walked
      cases ends : (page cursor).getLast? with
      | none =>
          rw [ends] at walked
          exact Or.inl ⟨List.getLast?_eq_none_iff.mp ends, (Option.some.inj walked).symm⟩
      | some last =>
          rw [ends] at walked
          obtain ⟨later, walkedLater, rfl⟩ := Option.map_eq_some_iff.mp walked
          exact Or.inr ⟨last, later, rfl, ⟨fuel, walkedLater⟩, rfl⟩

/-- A walk can end in one way only. -/
theorem Walks.unique {page : Option Row → List Row} {cursor : Option Row} {rows others : List Row}
    (walks : Walks page cursor rows) (walks_other : Walks page cursor others) : rows = others := by
  obtain ⟨fuel, walked⟩ := walks
  induction fuel generalizing cursor rows others with
  | zero => cases walked
  | succ fuel inductionHypothesis =>
      unfold walk at walked
      rcases walks_cases walks_other with ⟨empty, rfl⟩ | ⟨last, later, ends, walks_later, rfl⟩
      · rw [empty] at walked
        exact (Option.some.inj walked).symm
      · rw [ends] at walked
        obtain ⟨tail, walkedTail, rfl⟩ := Option.map_eq_some_iff.mp walked
        rw [inductionHypothesis walks_later walkedTail]

theorem Walks.page_subset {page : Option Row → List Row} {cursor : Option Row} {rows : List Row}
    (walks : Walks page cursor rows) : page cursor ⊆ rows := by
  rcases walks_cases walks with ⟨empty, rfl⟩ | ⟨last, later, -, -, rfl⟩
  · rw [empty]
    exact List.nil_subset _
  · exact List.subset_append_left _ _

/-! ### Rows in a strict order -/

section Ordered

variable {before : Row → Row → Bool}

/-- The rows behind a row of a list in strict order are those after it. -/
theorem filter_behind_last {rows later : List Row} {last : Row}
    (irreflexive : ∀ row, before row row = false)
    (asymmetric : ∀ row other, before row other = true → before other row = false)
    (ordered : (rows ++ later).Pairwise fun row other => before row other = true)
    (ends : rows.getLast? = some last) : (rows ++ later).filter (before last) = later := by
  rw [List.pairwise_append] at ordered
  obtain ⟨orderedRows, -, across⟩ := ordered
  obtain ⟨front, rfl⟩ := List.getLast?_eq_some_iff.mp ends
  rw [List.pairwise_append] at orderedRows
  have passed : (front ++ [last]).filter (before last) = [] := by
    refine List.filter_eq_nil_iff.mpr fun row listed => ?_
    rcases List.mem_append.mp listed with inFront | isLast
    · rw [asymmetric row last (orderedRows.2.2 row inFront last List.mem_cons_self)]
      exact Bool.false_ne_true
    · rw [List.mem_singleton.mp isLast, irreflexive]
      exact Bool.false_ne_true
  have ahead : later.filter (before last) = later :=
    List.filter_eq_self.mpr (across last (List.mem_append_right _ List.mem_cons_self))
  rw [List.filter_append, passed, ahead, List.nil_append]

/-- Pages with the first rows behind the cursor: the walk from a cursor receives
all rows behind it, in order. -/
theorem walks_behind {page : Option Row → List Row} {rows : List Row} {size : Nat}
    (irreflexive : ∀ row, before row row = false)
    (asymmetric : ∀ row other, before row other = true → before other row = false)
    (transitive : ∀ row other third, before row other = true → before other third = true →
      before row third = true)
    (ordered : rows.Pairwise fun row other => before row other = true) (positive : 1 ≤ size)
    (pages : ∀ cursor, page (some cursor) = (rows.filter (before cursor)).take size)
    (cursor : Row) : Walks page (some cursor) (rows.filter (before cursor)) := by
  induction behind : (rows.filter (before cursor)).length using Nat.strong_induction_on
    generalizing cursor with
  | _ count inductionHypothesis =>
      subst behind
      cases ends : (page (some cursor)).getLast? with
      | none =>
          have empty := List.getLast?_eq_none_iff.mp ends
          rw [pages, List.take_eq_nil_iff] at empty
          have nothing : rows.filter (before cursor) = [] := by
            rcases empty with zero | nothing
            · omega
            · exact nothing
          rw [nothing]
          apply walks_of_empty
          rw [pages, nothing, List.take_nil]
      | some last =>
          have split : (rows.filter (before cursor)).take size ++
              (rows.filter (before cursor)).drop size = rows.filter (before cursor) :=
            List.take_append_drop size _
          have endsTake := ends
          rw [pages] at endsTake
          have member : last ∈ rows.filter (before cursor) :=
            List.mem_of_mem_take (List.mem_of_getLast? endsTake)
          have rest : (rows.filter (before cursor)).filter (before last) =
              (rows.filter (before cursor)).drop size := by
            have orderedSplit := ordered.filter (before cursor)
            rw [← split] at orderedSplit
            conv_lhs => rw [← split]
            exact filter_behind_last irreflexive asymmetric orderedSplit endsTake
          have beyond : rows.filter (before last) = (rows.filter (before cursor)).drop size := by
            rw [← rest, List.filter_filter]
            refine List.filter_congr fun row _ => ?_
            have chain := transitive cursor last row (List.mem_filter.mp member).2
            cases later : before last row with
            | true => rw [chain later]; rfl
            | false => rfl
          have shorter : (rows.filter (before last)).length <
              (rows.filter (before cursor)).length := by
            have some_row := List.length_pos_of_mem member
            rw [beyond, List.length_drop]
            omega
          have later := inductionHypothesis _ shorter last rfl
          have all := walks_append ends later
          rwa [pages, beyond, split] at all

/-! #### Pages on the wrong side of the cursor

A page that has the first rows before its cursor turns back: it shows rows of
the page before again, unless it has no more than one. -/

/-- The rows before a row of those before the cursor. -/
theorem filter_before_filter {rows : List Row}
    (transitive : ∀ row other third, before row other = true → before other third = true →
      before row third = true)
    {last cursor : Row} (earlier : before last cursor = true) :
    (rows.filter (before · cursor)).filter (before · last) = rows.filter (before · last) := by
  rw [List.filter_filter]
  refine List.filter_congr fun row _ => ?_
  cases first : before row last with
  | true => rw [transitive row last cursor first earlier]; rfl
  | false => rfl

theorem walks_turned {page : Option Row → List Row} {rows : List Row} {size : Nat}
    (irreflexive : ∀ row, before row row = false)
    (asymmetric : ∀ row other, before row other = true → before other row = false)
    (transitive : ∀ row other third, before row other = true → before other third = true →
      before row third = true)
    (ordered : rows.Pairwise fun row other => before row other = true)
    (pages : ∀ cursor, page (some cursor) = (rows.filter (before · cursor)).take size)
    {cursor : Row} (short : (page (some cursor)).length ≤ 1) :
    Walks page (some cursor) (page (some cursor)) := by
  cases shown : page (some cursor) with
  | nil => exact walks_of_empty shown
  | cons first more =>
      rw [shown, List.length_cons] at short
      have alone : more = [] := List.length_eq_zero_iff.mp (by omega)
      subst alone
      rw [pages] at shown
      have split := List.take_append_drop size (rows.filter (before · cursor))
      rw [shown] at split
      have member : first ∈ rows.filter (before · cursor) := by
        rw [← split]
        exact List.mem_cons_self
      have earlier := (List.mem_filter.mp member).2
      have nothing : rows.filter (before · first) = [] := by
        have orderedSplit := ordered.filter (before · cursor)
        rw [← split, List.singleton_append, List.pairwise_cons] at orderedSplit
        rw [← filter_before_filter transitive earlier, ← split]
        refine List.filter_eq_nil_iff.mpr fun row listed => ?_
        rcases List.mem_cons.mp listed with same | later
        · rw [same, irreflexive]
          exact Bool.false_ne_true
        · rw [asymmetric first row (orderedSplit.1 row later)]
          exact Bool.false_ne_true
      have last_page : page (some first) = [] := by rw [pages, nothing, List.take_nil]
      have ends : (page (some cursor)).getLast? = some first := by rw [pages, shown]; rfl
      have all := walks_append ends (walks_of_empty last_page)
      rwa [pages, shown, List.append_nil] at all

theorem not_nodup_of_turned {page : Option Row → List Row} {rows visited : List Row} {size : Nat}
    (transitive : ∀ row other third, before row other = true → before other third = true →
      before row third = true)
    (ordered : rows.Pairwise fun row other => before row other = true) (positive : 1 ≤ size)
    (pages : ∀ cursor, page (some cursor) = (rows.filter (before · cursor)).take size)
    {cursor : Row} (long : 2 ≤ (page (some cursor)).length)
    (walks : Walks page (some cursor) visited) : ¬ visited.Nodup := by
  rcases walks_cases walks with ⟨empty, -⟩ | ⟨last, later, ends, walks_later, rfl⟩
  · rw [empty] at long
    exact absurd long (Nat.not_succ_le_zero 1)
  · obtain ⟨front, shown⟩ := List.getLast?_eq_some_iff.mp ends
    cases front with
    | nil =>
        rw [shown] at long
        exact absurd long (Nat.not_succ_le_self 1)
    | cons first front =>
        have split := List.take_append_drop size (rows.filter (before · cursor))
        rw [← pages, shown] at split
        have member : last ∈ rows.filter (before · cursor) := by
          rw [← split]
          simp
        have orderedSplit := ordered.filter (before · cursor)
        rw [← split, List.cons_append, List.cons_append, List.pairwise_cons] at orderedSplit
        have ahead : before first last = true := orderedSplit.1 last (by simp)
        have again : first ∈ page (some last) := by
          rw [pages, ← filter_before_filter transitive (List.mem_filter.mp member).2, ← split,
            List.cons_append, List.cons_append, List.filter_cons, if_pos ahead]
          obtain ⟨smaller, rfl⟩ : ∃ smaller, size = smaller + 1 := ⟨size - 1, by omega⟩
          exact List.mem_cons_self
        intro unique
        rw [shown] at unique
        exact List.disjoint_of_nodup_append unique List.mem_cons_self (walks_later.page_subset again)

end Ordered

/-! ### Pages of two filters -/

section Compared

variable {before : Row → Row → Bool} {rows : List Row}

/-- Two filters give the same first rows exactly when a full page comes before every row on
which they differ. -/
theorem take_filter_eq_iff {p q : Row → Bool} (irreflexive : ∀ row, before row row = false)
    (asymmetric : ∀ row other, before row other = true → before other row = false)
    (ordered : rows.Pairwise fun row other => before row other = true) (size : Nat) :
    (rows.filter p).take size = (rows.filter q).take size ↔
      ∀ row ∈ rows, p row ≠ q row →
        size ≤ (rows.filter fun other => p other && before other row).length := by
  induction rows generalizing size with
  | nil => simp
  | cons first rest inductionHypothesis =>
      obtain ⟨ahead, orderedRest⟩ := List.pairwise_cons.mp ordered
      have nothing : ((first :: rest).filter fun other => p other && before other first) = [] := by
        refine List.filter_eq_nil_iff.mpr fun other membership => ?_
        rcases List.mem_cons.mp membership with rfl | later
        · simp [irreflexive]
        · simp [asymmetric first other (ahead other later)]
      have count : ∀ row ∈ rest,
          ((first :: rest).filter fun other => p other && before other row).length =
            (if p first then 1 else 0) +
              (rest.filter fun other => p other && before other row).length := by
        intro row membership
        rw [List.filter_cons, ahead row membership, Bool.and_true]
        split_ifs <;> simp [Nat.add_comm]
      have fresh : first ∉ rest := fun membership => by
        simpa [irreflexive] using ahead first membership
      rw [List.forall_mem_cons, nothing, List.length_nil]
      by_cases same : p first = q first
      · have later : (∀ row ∈ rest, p row ≠ q row → size ≤
            ((first :: rest).filter fun other => p other && before other row).length) ↔
            ∀ row ∈ rest, p row ≠ q row → size - (if p first then 1 else 0) ≤
              (rest.filter fun other => p other && before other row).length := by
          refine forall₂_congr fun row membership => ?_
          rw [count row membership, Nat.sub_le_iff_le_add']
        rw [later, ← inductionHypothesis orderedRest]
        simp only [same, ne_eq, not_true_eq_false, false_implies, true_and]
        cases shown : q first with
        | false => simp [same, shown]
        | true =>
            cases size with
            | zero => simp
            | succ size => simp [same, shown]
      · constructor
        · intro pages
          have empty : size = 0 := by
            by_contra positive
            obtain ⟨smaller, rfl⟩ := Nat.exists_eq_succ_of_ne_zero positive
            cases shown : p first with
            | true =>
                have hidden : q first = false := by simpa [shown] using Ne.symm same
                rw [List.filter_cons_of_pos shown, List.filter_cons_of_neg (by simp [hidden]),
                  List.take_succ_cons] at pages
                have membership : first ∈ (rest.filter q).take (smaller + 1) := by
                  rw [← pages]
                  exact List.mem_cons_self
                exact fresh (List.mem_of_mem_filter (List.mem_of_mem_take membership))
            | false =>
                have visible : q first = true := by simpa [shown] using Ne.symm same
                rw [List.filter_cons_of_pos visible, List.filter_cons_of_neg (by simp [shown]),
                  List.take_succ_cons] at pages
                have membership : first ∈ (rest.filter p).take (smaller + 1) := by
                  rw [pages]
                  exact List.mem_cons_self
                exact fresh (List.mem_of_mem_filter (List.mem_of_mem_take membership))
          subst empty
          exact ⟨fun _ => Nat.zero_le _, fun _ _ _ => Nat.zero_le _⟩
        · rintro ⟨none, -⟩
          rw [Nat.le_zero.mp (none same)]
          simp

/-- First rows of lists in opposite orders agree only where there is at most one. -/
theorem take_reverse_eq_take_iff {others : List Row}
    (asymmetric : ∀ row other, before row other = true → before other row = false)
    (ordered : rows.Pairwise fun row other => before row other = true)
    (ordered_others : others.Pairwise fun row other => before row other = true)
    {size : Nat} (positive : 1 ≤ size) :
    rows.reverse.take size = others.take size ↔
      rows = [] ∧ others = [] ∨
        ∃ row, rows.getLast? = some row ∧ others.head? = some row ∧
          (size = 1 ∨ rows = [row] ∧ others = [row]) := by
  obtain ⟨smaller, rfl⟩ : ∃ smaller, size = smaller + 1 := ⟨size - 1, by omega⟩
  rw [← List.head?_reverse]
  have backwards : rows.reverse.Pairwise fun row other => before other row = true :=
    List.pairwise_reverse.mpr ordered
  have single : ∀ row, rows = [row] ↔ rows.reverse = [row] := fun row =>
    ⟨fun same => by rw [same]; rfl, fun same => by simpa using congrArg List.reverse same⟩
  simp only [single, ← @List.reverse_eq_nil_iff _ rows]
  generalize rows.reverse = turned at *
  cases turned with
  | nil =>
      cases others with
      | nil => simp
      | cons other more => simp
  | cons row rest =>
      cases others with
      | nil => simp
      | cons other more =>
          simp only [List.take_succ_cons, List.cons.injEq, reduceCtorEq, false_and, false_or,
            List.head?_cons, Option.some.injEq]
          constructor
          · rintro ⟨rfl, later⟩
            refine ⟨row, rfl, rfl, ?_⟩
            by_cases one : smaller + 1 = 1
            · exact Or.inl one
            · right
              obtain ⟨tiny, rfl⟩ : ∃ tiny, smaller = tiny + 1 := ⟨smaller - 1, by omega⟩
              cases rest with
              | nil =>
                  cases more with
                  | nil => exact ⟨⟨rfl, rfl⟩, rfl, rfl⟩
                  | cons second more => simp at later
              | cons second rest =>
                  cases more with
                  | nil => simp at later
                  | cons third more =>
                      simp only [List.take_succ_cons, List.cons.injEq] at later
                      have down := (List.pairwise_cons.mp backwards).1 second List.mem_cons_self
                      have up := (List.pairwise_cons.mp ordered_others).1 third List.mem_cons_self
                      rw [← later.1] at up
                      rw [asymmetric row second up] at down
                      cases down
          · rintro ⟨_, rfl, rfl, one | ⟨⟨-, rfl⟩, -, rfl⟩⟩
            · have zero : smaller = 0 := by omega
              simp [zero]
            · simp

/-- Pages of one listing at two places agree only where the places do, or lie behind the end. -/
theorem take_drop_eq_iff (irreflexive : ∀ row, before row row = false)
    (ordered : rows.Pairwise fun row other => before row other = true) {size : Nat}
    (positive : 1 ≤ size) (place other : Nat) :
    (rows.drop place).take size = (rows.drop other).take size ↔
      place = other ∨ rows.length ≤ place ∧ rows.length ≤ other := by
  have distinct : rows.Nodup := ordered.imp fun {a b} ahead same => by
    rw [same, irreflexive] at ahead
    cases ahead
  constructor
  · intro pages
    have firsts := congrArg List.head? pages
    rw [List.head?_take, List.head?_take, if_neg (by omega), if_neg (by omega), List.head?_drop,
      List.head?_drop] at firsts
    by_cases inside : place < rows.length
    · left
      rw [List.getElem?_eq_getElem inside] at firsts
      obtain ⟨insideOther, same⟩ := List.getElem?_eq_some_iff.mp firsts.symm
      exact (List.Nodup.getElem_inj_iff distinct).mp same.symm
    · right
      rw [List.getElem?_eq_none (by omega)] at firsts
      exact ⟨by omega, List.getElem?_eq_none_iff.mp firsts.symm⟩
  · rintro (rfl | ⟨past, pastOther⟩)
    · rfl
    · rw [List.drop_eq_nil_of_le past, List.drop_eq_nil_of_le pastOther]

/-- Pages of a listing and of the opposite listing agree only behind the ends, or on one row
in the middle. -/
theorem take_drop_reverse_eq_iff (irreflexive : ∀ row, before row row = false)
    (asymmetric : ∀ row other, before row other = true → before other row = false)
    (ordered : rows.Pairwise fun row other => before row other = true) {size : Nat}
    (positive : 1 ≤ size) (place other : Nat) :
    (rows.reverse.drop place).take size = (rows.drop other).take size ↔
      rows.length ≤ place ∧ rows.length ≤ other ∨
        place + other + 1 = rows.length ∧ (size = 1 ∨ rows.length = 1) := by
  have distinct : rows.Nodup := ordered.imp fun {a b} ahead same => by
    rw [same, irreflexive] at ahead
    cases ahead
  rw [List.drop_reverse, take_reverse_eq_take_iff asymmetric
    (ordered.sublist (List.take_sublist _ _)) (ordered.sublist (List.drop_sublist _ _)) positive]
  constructor
  · rintro (⟨empty, emptyOther⟩ | ⟨row, last, head, single⟩)
    · left
      rw [List.take_eq_nil_iff] at empty
      rw [List.drop_eq_nil_iff] at emptyOther
      refine ⟨?_, emptyOther⟩
      rcases empty with zero | nothing
      · omega
      · rw [nothing]
        exact Nat.zero_le _
    · right
      rw [List.head?_drop] at head
      obtain ⟨inside, atOther⟩ := List.getElem?_eq_some_iff.mp head
      have inPlace : place < rows.length := by
        by_contra past
        rw [Nat.sub_eq_zero_of_le (not_lt.mp past), List.take_zero] at last
        cases last
      rw [List.getLast?_eq_getElem?, List.length_take, Nat.min_eq_left (Nat.sub_le _ _),
        List.getElem?_take_of_lt (by omega)] at last
      obtain ⟨insideLast, atLast⟩ := List.getElem?_eq_some_iff.mp last
      have same := (List.Nodup.getElem_inj_iff distinct).mp (atLast.trans atOther.symm)
      refine ⟨by omega, single.imp_right fun both => ?_⟩
      have lengths := congrArg List.length both.1
      have lengthsOther := congrArg List.length both.2
      rw [List.length_take, Nat.min_eq_left (Nat.sub_le _ _), List.length_singleton] at lengths
      rw [List.length_drop, List.length_singleton] at lengthsOther
      omega
  · rintro (⟨past, pastOther⟩ | ⟨middle, single⟩)
    · left
      rw [Nat.sub_eq_zero_of_le past, List.take_zero, List.drop_eq_nil_of_le pastOther]
      exact ⟨rfl, rfl⟩
    · right
      have inside : other < rows.length := by omega
      have last : rows.length - place = other + 1 := by omega
      refine ⟨rows[other], ?_, ?_, single.imp_right fun one => ?_⟩
      · rw [last, List.getLast?_eq_getElem?, List.length_take, Nat.min_eq_left (by omega),
          Nat.add_sub_cancel, List.getElem?_take_of_lt (by omega), List.getElem?_eq_getElem inside]
      · rw [List.head?_drop, List.getElem?_eq_getElem inside]
      · obtain ⟨row, rfl⟩ := List.length_eq_one_iff.mp one
        rw [List.length_singleton] at middle
        have zero : other = 0 := by omega
        have zeroPlace : place = 0 := by omega
        subst zero zeroPlace
        exact ⟨rfl, rfl⟩

end Compared
/-! ### Listings by a key -/

section Keyed

variable {key : Row → Nat}

/-- The second row comes later in a listing with rising or with falling keys. -/
def follows (key : Row → Nat) (rising : Bool) (row other : Row) : Bool :=
  if rising then key row < key other else key other < key row

theorem follows_irreflexive (rising : Bool) (row : Row) : follows key rising row row = false := by
  unfold follows
  cases rising <;> simp

theorem follows_asymmetric (rising : Bool) (row other : Row)
    (later : follows key rising row other = true) : follows key rising other row = false := by
  unfold follows at later ⊢
  cases rising <;> simp at later ⊢ <;> omega

theorem follows_not (rising : Bool) (row other : Row) :
    follows key (!rising) row other = follows key rising other row := by
  cases rising <;> rfl

/-- The rows in the order of rising or of falling keys. -/
structure IsListing (key : Row → Nat) (rows : List Row) (rising : Bool) (listed : List Row) :
    Prop where
  perm : listed.Perm rows
  ordered : listed.Pairwise fun row other => follows key rising row other = true

variable {rows listed other : List Row} {rising : Bool}

theorem IsListing.unique (listing : IsListing key rows rising listed)
    (listing_other : IsListing key rows rising other) : listed = other := by
  refine List.Perm.eq_of_pairwise (fun a b _ _ first second => ?_) listing.ordered
    listing_other.ordered (listing.perm.trans listing_other.perm.symm)
  rw [follows_asymmetric rising a b first] at second
  cases second

theorem IsListing.reverse (listing : IsListing key rows rising listed) :
    IsListing key rows (!rising) listed.reverse := by
  refine ⟨(List.reverse_perm listed).trans listing.perm, List.pairwise_reverse.mpr ?_⟩
  exact listing.ordered.imp fun later => (follows_not rising _ _).trans later

theorem IsListing.filter (listing : IsListing key rows rising listed) (p : Row → Bool) :
    IsListing key (rows.filter p) rising (listed.filter p) :=
  ⟨listing.perm.filter p, listing.ordered.filter p⟩

/-- The page nearest to a cursor on one side of it: the first rows behind it, or the last rows
before it. -/
def nearest (forward : Bool) (size : Nat) (listed : List Row) : List Row :=
  if forward then listed.take size else listed.rtake size

theorem nearest_eq_nil_iff {forward : Bool} {size : Nat} (positive : 1 ≤ size) (listed : List Row) :
    nearest forward size listed = [] ↔ listed = [] := by
  cases forward with
  | true => simp [nearest, List.take_eq_nil_iff, Nat.ne_of_gt positive]
  | false =>
      simp [nearest, List.rtake_eq_reverse_take_reverse, List.take_eq_nil_iff,
        Nat.ne_of_gt positive]

/-- A page read away from the cursor through one filter, and turned round where it was read
backwards, is the nearest page of another filter exactly when every row on which the filters
differ is further off than a full page. -/
theorem IsListing.nearest_iff {p q : Row → Bool} {forward : Bool} {away : List Row}
    (listing : IsListing key rows rising listed)
    (listing_away : IsListing key rows (rising == forward) away) (size : Nat) :
    (if forward then (away.filter p).take size else ((away.filter p).take size).reverse) =
        nearest forward size (listed.filter q) ↔
      ∀ row ∈ rows, p row ≠ q row → size ≤
        (rows.filter fun other => p other && follows key (rising == forward) other row).length := by
  have counts : (∀ row ∈ rows, p row ≠ q row → size ≤
        (rows.filter fun other => p other && follows key (rising == forward) other row).length) ↔
      ∀ row ∈ away, p row ≠ q row → size ≤
        (away.filter fun other => p other && follows key (rising == forward) other row).length := by
    constructor
    · intro far row membership differs
      rw [(listing_away.perm.filter _).length_eq]
      exact far row (listing_away.perm.mem_iff.mp membership) differs
    · intro far row membership differs
      rw [← (listing_away.perm.filter _).length_eq]
      exact far row (listing_away.perm.mem_iff.mpr membership) differs
  rw [counts, ← take_filter_eq_iff (follows_irreflexive _) (follows_asymmetric _)
    listing_away.ordered]
  cases forward with
  | true =>
      have same : away = listed := by
        rw [beq_true] at listing_away
        exact listing_away.unique listing
      simp [nearest, same]
  | false =>
      have same : away = listed.reverse := by
        rw [beq_false] at listing_away
        exact listing_away.unique listing.reverse
      simp [nearest, same, List.rtake_eq_reverse_take_reverse, List.filter_reverse]

end Keyed

end SmartDnsPlusUi.Table
