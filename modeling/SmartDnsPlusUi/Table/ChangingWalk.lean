import SmartDnsPlusUi.Table.Paging

/-!
# Walking through a table that changes

The pages are asked for one after another, each of the table as it is at that time.  Rows may
come and go in between.  When a page has the first rows behind its cursor in the order of the
keys, no row is received twice, and none is missed that is there all the time.
-/

namespace SmartDnsPlusUi.Table

variable {Row : Type} {key : Row → Nat} {rising : Bool}

/-- The pages received until one is empty, where each page is read at its own time. -/
inductive WalksOver (page : Nat → Option Row → List Row) : Nat → Option Row → List (List Row) → Prop
  | ends {time cursor} : page time cursor = [] → WalksOver page time cursor []
  | goesOn {time cursor last pages} :
      (page time cursor).getLast? = some last → WalksOver page (time + 1) (some last) pages →
      WalksOver page time cursor (page time cursor :: pages)

theorem follows_transitive {row other third : Row} (first : follows key rising row other = true)
    (second : follows key rising other third = true) : follows key rising row third = true := by
  unfold follows at first second ⊢
  cases rising <;> simp at first second ⊢ <;> omega

/-- The keys behind the cursor, all of them if there is none. -/
def Behind (key : Row → Nat) (rising : Bool) (cursor : Option Row) (later : Nat) : Prop :=
  ∀ row ∈ cursor, follows id rising (key row) later = true

instance (cursor : Option Row) (later : Nat) : Decidable (Behind key rising cursor later) :=
  inferInstanceAs (Decidable (∀ row ∈ cursor, _))

/-- Every page has the first rows behind its cursor; only the walk's first page has none. -/
structure PagesBehind (page : Nat → Option Row → List Row) (key : Row → Nat) (rising : Bool)
    (size : Nat) (listed : Nat → List Row) : Prop where
  positive : 1 ≤ size
  ordered : ∀ time, (listed time).Pairwise fun row other => follows key rising row other = true
  page_eq : ∀ time cursor, (cursor = none → time = 0) →
    page time cursor = ((listed time).filter fun row => Behind key rising cursor (key row)).take size

/-- What a walk through a changing table receives.  The row of a page is in the table as it
was when this page was read. -/
structure Receives (key : Row → Nat) (rising : Bool) (listed : Nat → List Row) (time : Nat)
    (cursor : Option Row) (received : List (List Row)) : Prop where
  ordered : received.flatten.Pairwise fun row other => follows key rising row other = true
  behind : ∀ row ∈ received.flatten, Behind key rising cursor (key row)
  was_there : ∀ number rows, received[number]? = some rows →
    ∀ row ∈ rows, row ∈ listed (time + number)
  stayed : ∀ later, Behind key rising cursor later →
    (∀ moment, time ≤ moment → later ∈ (listed moment).map key) →
      later ∈ received.flatten.map key

variable {page : Nat → Option Row → List Row} {size : Nat} {listed : Nat → List Row}
variable {time : Nat} {cursor : Option Row}

theorem behind_none (later : Nat) : Behind key rising none later := by
  intro row given
  cases given

theorem behind_of_follows {row other : Row} (behind : Behind key rising cursor (key row))
    (later : follows key rising row other = true) : Behind key rising cursor (key other) := by
  intro first there
  exact @follows_transitive _ key rising first row other (behind first there) later

theorem PagesBehind.empty (pages : PagesBehind page key rising size listed)
    (first : cursor = none → time = 0) (empty : page time cursor = []) :
    Receives key rising listed time cursor [] := by
  rw [pages.page_eq time cursor first, List.take_eq_nil_iff] at empty
  have nothing := empty.resolve_left (Nat.ne_of_gt pages.positive)
  refine ⟨List.Pairwise.nil, fun row none => absurd none List.not_mem_nil, ?_, ?_⟩
  · intro number rows page
    cases page
  intro later behind there
  obtain ⟨row, among, rfl⟩ := List.mem_map.mp (there time le_rfl)
  have shown : row ∈ (listed time).filter fun row => Behind key rising cursor (key row) :=
    List.mem_filter.mpr ⟨among, decide_eq_true behind⟩
  rw [nothing] at shown
  cases shown

theorem PagesBehind.next (pages : PagesBehind page key rising size listed)
    (first : cursor = none → time = 0) {last : Row} {rows : List (List Row)}
    (ends : (page time cursor).getLast? = some last)
    (receives : Receives key rising listed (time + 1) (some last) rows) :
    Receives key rising listed time cursor (page time cursor :: rows) := by
  have shown := pages.page_eq time cursor first
  have split := List.take_append_drop size
    ((listed time).filter fun row => Behind key rising cursor (key row))
  rw [← shown] at split
  have ordered := (pages.ordered time).filter fun row => decide (Behind key rising cursor (key row))
  rw [← split, List.pairwise_append] at ordered
  obtain ⟨orderedPage, -, across⟩ := ordered
  have listedPage : ∀ row ∈ page time cursor,
      row ∈ listed time ∧ Behind key rising cursor (key row) := by
    intro row among
    have member := List.mem_filter.mp (List.mem_of_mem_take (shown ▸ among))
    exact ⟨member.1, of_decide_eq_true member.2⟩
  have lastAmong := List.mem_of_getLast? ends
  have rowsBehind : ∀ row ∈ rows.flatten, follows key rising last row = true :=
    fun row among => receives.behind row among last rfl
  have upToLast : ∀ row ∈ page time cursor, row = last ∨ follows key rising row last = true := by
    obtain ⟨front, same⟩ := List.getLast?_eq_some_iff.mp ends
    rw [same] at orderedPage
    intro row among
    rcases List.mem_append.mp (same ▸ among) with before | atEnd
    · exact .inr ((List.pairwise_append.mp orderedPage).2.2 row before last List.mem_cons_self)
    · exact .inl (List.mem_singleton.mp atEnd)
  have flat : (page time cursor :: rows).flatten = page time cursor ++ rows.flatten :=
    List.flatten_cons
  constructor
  · rw [flat]
    apply List.pairwise_append.mpr
    refine ⟨orderedPage, receives.ordered, ?_⟩
    intro row among other amongOther
    rcases upToLast row among with rfl | before
    · exact rowsBehind other amongOther
    · exact follows_transitive before (rowsBehind other amongOther)
  · intro row among
    rw [flat] at among
    rcases List.mem_append.mp among with now | later
    · exact (listedPage row now).2
    · exact behind_of_follows (listedPage last lastAmong).2 (rowsBehind row later)
  · intro number shownRows shownNow row among
    cases number with
    | zero =>
        cases shownNow
        exact (listedPage row among).1
    | succ number =>
        have there := receives.was_there number shownRows shownNow row among
        rwa [Nat.add_assoc, Nat.add_comm 1] at there
  · intro later behind there
    rw [flat, List.map_append, List.mem_append]
    obtain ⟨row, among, rfl⟩ := List.mem_map.mp (there time le_rfl)
    have candidate : row ∈ (listed time).filter fun row => Behind key rising cursor (key row) :=
      List.mem_filter.mpr ⟨among, decide_eq_true behind⟩
    rw [← split] at candidate
    rcases List.mem_append.mp candidate with now | left
    · exact .inl (List.mem_map_of_mem now)
    · -- behind the page, so the later pages look for it
      right
      apply receives.stayed
      · rintro _ ⟨⟩
        exact across last lastAmong row left
      · exact fun moment after => there moment (by omega)

theorem PagesBehind.receives (pages : PagesBehind page key rising size listed)
    (first : cursor = none → time = 0) {received : List (List Row)}
    (walks : WalksOver page time cursor received) :
    Receives key rising listed time cursor received := by
  induction walks with
  | ends empty => exact pages.empty first empty
  | goesOn ends _ inductionHypothesis => exact pages.next first ends (inductionHypothesis nofun)

/-- With falling keys the walk comes to an end. -/
theorem PagesBehind.exists_walksOver (pages : PagesBehind page key false size listed) :
    ∃ received, WalksOver page time cursor received := by
  have fromRow : ∀ (bound time : Nat) (row : Row), key row ≤ bound →
      ∃ received, WalksOver page time (some row) received := by
    intro bound
    induction bound with
    | zero =>
        intro time row low
        refine ⟨[], .ends ?_⟩
        rw [pages.page_eq time (some row) nofun, List.take_eq_nil_iff]
        refine .inr (List.filter_eq_nil_iff.mpr fun other _ => ?_)
        rw [decide_eq_true_iff]
        intro behind
        have lower := behind row rfl
        simp [follows] at lower
        omega
    | succ bound inductionHypothesis =>
        intro time row low
        cases ends : (page time (some row)).getLast? with
        | none => exact ⟨[], .ends (List.getLast?_eq_none_iff.mp ends)⟩
        | some last =>
            have among := List.mem_of_getLast? ends
            rw [pages.page_eq time (some row) nofun] at among
            have behind := (List.mem_filter.mp (List.mem_of_mem_take among)).2
            have lower := of_decide_eq_true behind row rfl
            simp [follows] at lower
            obtain ⟨later, walks⟩ := inductionHypothesis (time + 1) last (by omega)
            exact ⟨_, .goesOn ends walks⟩
  cases ends : (page time cursor).getLast? with
  | none => exact ⟨[], .ends (List.getLast?_eq_none_iff.mp ends)⟩
  | some last =>
      obtain ⟨later, walks⟩ := fromRow (key last) (time + 1) last le_rfl
      exact ⟨_, .goesOn ends walks⟩

end SmartDnsPlusUi.Table
