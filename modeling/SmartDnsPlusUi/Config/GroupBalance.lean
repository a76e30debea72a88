import SmartDnsPlusUi.Config.Beginner
import SmartDnsPlusUi.Config.GroupLoss
import SmartDnsPlusUi.Text.Nesting

/-!
# What the validator says about the groups of a text

The validator looks at every physical line for itself; the parser goes by the first word
of a logical line.  Both readings give every physical line a mark, and they agree when
every line is seen alike.
-/

namespace SmartDnsPlusUi

open Text

/-- `1` for a line the validator takes for a `group-begin`, `-1` for a `group-end`. -/
def scanMark (line : Text) : Int :=
  if ("group-begin " : Text) <+: trim line then 1
  else if trim line = "group-end" then -1
  else 0

def groupMark (key : String) : Int :=
  if key = "group-begin" then 1 else if key = "group-end" then -1 else 0

/-- The first word of what `logical_lines` takes from a physical line. -/
def ownKey (line : Text) : String :=
  match lineKind line with
  | .continued piece => (splitDirective piece).key
  | .content trimmed => (splitDirective trimmed).key
  | .comment | .blank => ""

/-- Whether the line after this one is added to pieces that came before it. -/
def staysOpen (merging : Bool) (line : Text) : Bool :=
  match lineKind line with
  | .comment => merging
  | .continued piece => merging || decide (piece ≠ [])
  | .content _ | .blank => false

/-- The validator reads a physical line as the parser does: where a directive starts, a
`group-begin` is followed by a space and a `group-end` stands alone, and a line that goes on
with another one is no group line by itself. -/
structure SeenAlike (merging : Bool) (line : Text) : Prop where
  spaced : merging = false → ownKey line = "group-begin" → ("group-begin " : Text) <+: trim line
  bare : merging = false → ownKey line = "group-end" → trim line = "group-end"
  inner : merging = true → ¬ ("group-begin " : Text) <+: trim line ∧ trim line ≠ "group-end"

def AllSeenAlike (merging : Bool) : List Text → Prop
  | [] => True
  | line :: rest => SeenAlike merging line ∧ AllSeenAlike (staysOpen merging line) rest

/-- The marks of the directives, each at the physical line that its first word stands on. -/
def directiveMarks (merging : Bool) : List Text → List Int
  | [] => []
  | line :: rest =>
      (if merging then 0 else groupMark (ownKey line)) ::
        directiveMarks (staysOpen merging line) rest

/-- All lines that the validator misreads are misread in one direction. -/
def MisreadOneWay (text : Text) : Prop :=
  List.Forall₂ (· ≤ ·) ((lines text).map scanMark) (directiveMarks false (lines text)) ∨
    List.Forall₂ (· ≤ ·) (directiveMarks false (lines text)) ((lines text).map scanMark)

def superfluousEnd (number : Nat) : Text :=
  ("规则文件第 " : Text) ++ (Nat.repr number).toList ++ (" 行出现多余的 group-end。" : Text)

def unclosedGroup : Text := "规则文件中的 group-begin / group-end 未闭合。"

/-- The validator reports a superfluous `group-end` or a group that is not closed. -/
def ReportsGroupError (config : BeginnerConfig) (rulesText : Text) : Prop :=
  (∃ number, superfluousEnd number ∈ (validateBeginnerConfig config rulesText).errors) ∨
    unclosedGroup ∈ (validateBeginnerConfig config rulesText).errors

/-- Some prefix has more ends than begins, or the whole has more begins than ends. -/
def Unbalanced (ds : List Directive) : Prop :=
  (∃ earlier, earlier <+: ds ∧
      earlier.countP (·.key = "group-begin") < earlier.countP (·.key = "group-end")) ∨
    ds.countP (·.key = "group-end") < ds.countP (·.key = "group-begin")

/-! ### The validator's scan -/

theorem scanGroups_nested (depth number : Nat) (ls : List Text) :
    ((scanGroups depth number ls).1 = [] ∧ (scanGroups depth number ls).2 = 0) ↔
      NestedFrom depth (ls.map scanMark) := by
  induction ls generalizing depth number with
  | nil =>
      rw [scanGroups, List.map_nil, nestedFrom_nil]
      exact ⟨fun scanned => congrArg Int.ofNat scanned.2, fun zero => ⟨rfl, Int.ofNat.inj zero⟩⟩
  | cons line ls inductionHypothesis =>
      rw [List.map_cons, nestedFrom_cons, scanGroups.eq_def, scanMark,
        and_iff_right (Int.natCast_nonneg depth)]
      dsimp only
      by_cases opens : ("group-begin " : Text) <+: trim line
      · rw [if_pos opens, if_pos opens]
        exact inductionHypothesis (depth + 1) (number + 1)
      rw [if_neg opens, if_neg opens]
      by_cases closes : trim line = "group-end"
      · rw [if_pos closes, if_pos closes]
        cases depth with
        | zero =>
            refine ⟨fun scanned => absurd scanned.1 (List.cons_ne_nil _ _), fun nested => ?_⟩
            exact absurd nested.nonneg (by decide)
        | succ depth =>
            have same : ((depth + 1 : Nat) : Int) + -1 = (depth : Nat) := by omega
            rw [same]
            exact inductionHypothesis depth (number + 1)
      · rw [if_neg closes, if_neg closes, add_zero]
        exact inductionHypothesis depth (number + 1)

/-- The errors that are not about groups come first and are none of the two messages. -/
theorem errors_validateBeginnerConfig (config : BeginnerConfig) (rulesText : Text) :
    ∃ fieldErrors : List Text,
      (validateBeginnerConfig config rulesText).errors =
        fieldErrors ++ (scanGroups 0 1 (lines rulesText)).1.map superfluousEnd ++
          (if (scanGroups 0 1 (lines rulesText)).2 > 0 then [unclosedGroup] else []) ∧
      ∀ message : Text, message.head? = some '规' → message ∉ fieldErrors := by
  refine ⟨_, rfl, fun message head membership => ?_⟩
  have other : ∀ {p : Prop} [Decidable p] {text : Text}, text.head? ≠ some '规' →
      message ∉ (if p then pushLine text else []) := by
    intro p _ text differs membership
    split at membership
    · exact differs (List.mem_singleton.mp membership ▸ head)
    · exact absurd membership List.not_mem_nil
  rcases List.mem_append.mp membership with first | second
  · exact other (by decide) first
  · exact other (by decide) second

theorem reportsGroupError_iff (config : BeginnerConfig) (rulesText : Text) :
    ReportsGroupError config rulesText ↔ ¬ NestedFrom 0 ((lines rulesText).map scanMark) := by
  have scanned := scanGroups_nested 0 1 (lines rulesText)
  obtain ⟨fieldErrors, errors, noMessage⟩ := errors_validateBeginnerConfig config rulesText
  rw [← Int.natCast_zero, ← scanned, ReportsGroupError, errors]
  generalize (scanGroups 0 1 (lines rulesText)) = found
  obtain ⟨numbers, depth⟩ := found
  constructor
  · rintro reported ⟨noNumbers, noDepth⟩
    dsimp only at noNumbers noDepth
    rw [noNumbers, noDepth, List.map_nil, List.append_nil, if_neg (Nat.lt_irrefl 0),
      List.append_nil] at reported
    rcases reported with ⟨number, member⟩ | member
    · exact noMessage _ rfl member
    · exact noMessage _ rfl member
  · intro found
    cases numbers with
    | cons number rest =>
        left
        exact ⟨number, List.mem_append_left _ (List.mem_append_right _ List.mem_cons_self)⟩
    | nil =>
        have positive : 0 < depth := Nat.pos_of_ne_zero fun zero => found ⟨rfl, zero⟩
        right
        rw [if_pos positive]
        exact List.mem_append_right _ List.mem_cons_self

/-! ### The parser's first words -/

/-- White space after a token ends the keyword. -/
theorem key_splitDirective_append {word : Text} (token : IsToken word) {rest : Text}
    (boundary : ∀ c ∈ rest.head?, isWhitespace c = true) :
    (splitDirective (word ++ rest)).key = String.ofList word := by
  have head : ∀ c ∈ (word ++ rest).head?, isWhitespace c = false := by
    obtain ⟨c, tail, rfl⟩ := List.exists_cons_of_ne_nil token.1
    simpa using token.2 c List.mem_cons_self
  have trims : trim (word ++ rest) = trimEnd (word ++ rest) := by
    rw [trim, trimStart_of_head head]
  dsimp only [splitDirective]
  rw [trims, trimEnd_append]
  by_cases empty : trim rest = []
  · rw [if_pos empty, trimEnd_of_last token.trimmed.2, splitFirst_of_solid token.2,
      trim_eq_self token.trimmed]
  · rw [if_neg empty]
    have remains : trimEnd rest ≠ [] := fun gone =>
      empty ((trim_eq_nil_iff rest).mpr ((trimEnd_eq_nil_iff rest).mp gone))
    obtain ⟨c, tail, same⟩ := List.exists_cons_of_ne_nil remains
    have space : isWhitespace c = true := by
      obtain ⟨cut, split⟩ := trimEnd_isPrefix rest
      apply boundary c
      rw [← split, same]
      rfl
    rw [same, splitFirst_append_cons token.2 space, trim_eq_self token.trimmed]

/-- What is added behind a logical line does not change its keyword. -/
theorem key_splitDirective_merged {current : Text} (logical : IsLogical current) (piece : Text) :
    (splitDirective (current ++ ' ' :: piece)).key = (splitDirective current).key := by
  rcases splitFirst_cases current with ⟨solid, -⟩ | ⟨word, c, rest, equality, solid, space, -⟩
  · have token : IsToken current := ⟨logical.nonempty, solid⟩
    have alone := @key_splitDirective_append _ token [] (by simp)
    rw [List.append_nil] at alone
    rw [alone]
    exact key_splitDirective_append token (by simp)
  · have token : IsToken word := by
      refine ⟨?_, solid⟩
      rintro rfl
      have first := logical.trimmed.1 c (by simp [equality])
      simp [space] at first
    rw [equality, List.append_assoc, List.cons_append, key_splitDirective_append token
      (by simpa using space), key_splitDirective_append token (by simpa using space)]

theorem key_splitDirective_nil : (splitDirective []).key = "" := by decide

/-- A line that opens with a keyword has it as its first word, continued or not. -/
theorem ownKey_of_opens {key : String} (keyword : IsKeyword key.toList)
    (absent : '\\' ∉ key.toList) {line : Text} (opens : Opens key.toList (trim line)) :
    ownKey line = key := by
  obtain ⟨c, tail, same⟩ := List.exists_cons_of_ne_nil keyword.token.1
  have first : (trim line).head? = key.toList.head? := by
    rcases opens with whole | ⟨rest, split⟩
    · rw [whole]
    · rw [split, same]
      rfl
  have spec := lineKind_spec line
  rw [ownKey]
  cases kind : lineKind line with
  | comment =>
      rw [kind] at spec
      exact absurd (first.symm.trans spec) keyword.no_comment
  | blank =>
      rw [kind] at spec
      dsimp only at spec
      rw [spec, same] at first
      exact absurd first (by simp)
  | content trimmed =>
      rw [kind] at spec
      rw [spec.1]
      exact key_splitDirective_of_opens keyword.token opens
  | continued piece =>
      rw [kind] at spec
      have cut := opens.pieceOf keyword.token absent
      rw [← spec.1] at cut
      have own := key_splitDirective_of_opens keyword.token cut
      rwa [splitDirective_trim] at own

/-! ### Two readings of a line -/

theorem scanMark_eq_one_iff (line : Text) :
    scanMark line = 1 ↔ ("group-begin " : Text) <+: trim line := by
  rw [scanMark]
  by_cases opens : ("group-begin " : Text) <+: trim line
  · rw [if_pos opens]
    exact iff_of_true rfl opens
  · rw [if_neg opens]
    refine iff_of_false (fun one => ?_) opens
    split at one <;> exact absurd one (by decide)

theorem scanMark_eq_neg_one_iff (line : Text) : scanMark line = -1 ↔ trim line = "group-end" := by
  rw [scanMark]
  by_cases closes : trim line = "group-end"
  · have other : ¬ ("group-begin " : Text) <+: trim line := by
      rw [closes]
      decide
    rw [if_neg other, if_pos closes]
    exact iff_of_true rfl closes
  · rw [if_neg closes]
    refine iff_of_false (fun out => ?_) closes
    split at out <;> exact absurd out (by decide)

theorem groupMark_cases (key : String) :
    (groupMark key = 1 ∧ key = "group-begin") ∨ (groupMark key = -1 ∧ key = "group-end") ∨
      groupMark key = 0 := by
  rw [groupMark]
  split
  · rename_i begins
    exact .inl ⟨rfl, begins⟩
  · split
    · rename_i ends
      exact .inr (.inl ⟨rfl, ends⟩)
    · exact .inr (.inr rfl)

/-- What the validator takes for a group line is one by its first word. -/
theorem scanMark_cases (line : Text) :
    scanMark line = groupMark (ownKey line) ∨ scanMark line = 0 := by
  by_cases opens : ("group-begin " : Text) <+: trim line
  · left
    obtain ⟨rest, split⟩ := id opens
    rw [(scanMark_eq_one_iff line).mpr opens,
      @ownKey_of_opens "group-begin" ⟨by decide, by decide⟩ (by decide) line
        (.inr ⟨rest, split.symm⟩)]
    rfl
  by_cases closes : trim line = "group-end"
  · left
    rw [(scanMark_eq_neg_one_iff line).mpr closes,
      @ownKey_of_opens "group-end" ⟨by decide, by decide⟩ (by decide) line (.inl closes)]
    rfl
  · right
    rw [scanMark, if_neg opens, if_neg closes]

theorem seenAlike_iff (merging : Bool) (line : Text) :
    SeenAlike merging line ↔
      scanMark line = if merging then 0 else groupMark (ownKey line) := by
  cases merging with
  | true =>
      rw [if_pos rfl]
      constructor
      · intro alike
        rw [scanMark, if_neg (alike.inner rfl).1, if_neg (alike.inner rfl).2]
      · intro zero
        refine ⟨nofun, nofun, fun _ => ⟨fun opens => ?_, fun closes => ?_⟩⟩
        · rw [(scanMark_eq_one_iff line).mpr opens] at zero
          exact absurd zero (by decide)
        · rw [(scanMark_eq_neg_one_iff line).mpr closes] at zero
          exact absurd zero (by decide)
  | false =>
      rw [if_neg Bool.false_ne_true]
      constructor
      · intro alike
        rcases groupMark_cases (ownKey line) with ⟨one, begins⟩ | ⟨out, ends⟩ | zero
        · rw [one]
          exact (scanMark_eq_one_iff line).mpr (alike.spaced rfl begins)
        · rw [out]
          exact (scanMark_eq_neg_one_iff line).mpr (alike.bare rfl ends)
        · rcases scanMark_cases line with same | none
          · exact same
          · rw [zero, none]
      · intro same
        refine ⟨fun _ begins => ?_, fun _ ends => ?_, nofun⟩
        · rw [begins] at same
          exact (scanMark_eq_one_iff line).mp same
        · rw [ends] at same
          exact (scanMark_eq_neg_one_iff line).mp same

/-- The texts that are seen alike are those to which both readings give the same marks. -/
theorem allSeenAlike_iff (merging : Bool) (ls : List Text) :
    AllSeenAlike merging ls ↔ ls.map scanMark = directiveMarks merging ls := by
  induction ls generalizing merging with
  | nil => exact ⟨fun _ => rfl, fun _ => trivial⟩
  | cons line ls inductionHypothesis =>
      rw [AllSeenAlike, List.map_cons, directiveMarks, List.cons.injEq, inductionHypothesis,
        seenAlike_iff]

/-! ### The directives -/

/-- The mark of the line being merged. -/
def pendingMark (current : Text) : Int :=
  if current = [] then 0 else groupMark (splitDirective current).key

@[simp] theorem pendingMark_nil : pendingMark [] = 0 := rfl

theorem pendingMark_of_ne_nil {current : Text} (nonempty : current ≠ []) :
    pendingMark current = groupMark (splitDirective current).key := if_neg nonempty

/-- The mark of a logical line. -/
def lineMark (line : Text) : Int := groupMark (splitDirective line).key

theorem lineMark_trim (line : Text) : lineMark (trim line) = lineMark line := by
  rw [lineMark, splitDirective_trim, lineMark]

theorem map_lineMark_flush (current : Text) (rest : List Int) (depth : Int) :
    NestedFrom depth ((flush current).map lineMark ++ rest) ↔
      NestedFrom depth (pendingMark current :: rest) := by
  by_cases empty : current = []
  · rw [flush, if_pos empty, pendingMark, if_pos empty, nestedFrom_zero_cons]
    rfl
  · rw [flush, if_neg empty, pendingMark, if_neg empty, List.map_singleton, lineMark_trim]
    rfl

/-- The marks of the logical lines and those at the physical lines are nested together; the
line being merged has put its mark ahead. -/
theorem nestedFrom_mergeLines (depth : Int) (ls : List Text) {current : Text}
    (started : current = [] ∨ IsLogical current) :
    NestedFrom depth ((mergeLines current ls).map lineMark) ↔
      NestedFrom depth (pendingMark current :: directiveMarks (decide (current ≠ [])) ls) := by
  induction ls generalizing depth current with
  | nil =>
      have flushed := map_lineMark_flush current [] depth
      rwa [List.append_nil] at flushed
  | cons line ls inductionHypothesis =>
      have spec := lineKind_spec line
      have fresh : ∀ depth, NestedFrom depth ((mergeLines [] ls).map lineMark) ↔
          NestedFrom depth (directiveMarks false ls) := fun depth =>
        (inductionHypothesis depth (.inl rfl)).trans (nestedFrom_zero_cons depth _)
      have noKey : groupMark "" = 0 := rfl
      rw [mergeLines, directiveMarks, ownKey, staysOpen]
      cases kind : lineKind line with
      | comment =>
          dsimp only
          rw [noKey, ite_self, nestedFrom_cons_zero_cons]
          exact inductionHypothesis depth started
      | blank =>
          dsimp only
          rw [noKey, ite_self, nestedFrom_cons_zero_cons, List.map_append, map_lineMark_flush,
            nestedFrom_cons, nestedFrom_cons, fresh]
      | content trimmed =>
          dsimp only
          rcases started with rfl | logical
          · rw [if_pos rfl, List.map_cons, pendingMark_nil, nestedFrom_zero_cons, nestedFrom_cons,
              fresh, ← nestedFrom_cons]
            rfl
          · rw [if_neg logical.nonempty, List.map_cons, lineMark_trim, lineMark,
              key_splitDirective_merged logical, ← pendingMark_of_ne_nil logical.nonempty,
              if_pos (decide_eq_true logical.nonempty), nestedFrom_cons_zero_cons, nestedFrom_cons,
              nestedFrom_cons, fresh]
      | continued piece =>
          dsimp only
          rw [kind] at spec
          obtain ⟨cut, continues⟩ := spec
          by_cases empty : piece = []
          · rw [if_pos empty, empty, key_splitDirective_nil, noKey, ite_self,
              nestedFrom_cons_zero_cons, inductionHypothesis depth started]
            simp
          · rw [if_neg empty]
            have whole : IsLogical (trim piece) := by
              rw [cut]
              apply isLogical_pieceOf (trimmed_trim line) continues.1
              rw [← cut, piece_of_lineKind kind, ne_eq, trim_pieceOf_eq_nil_iff,
                ← piece_of_lineKind kind]
              exact empty
            have goesOn : decide (piece ≠ []) = true := decide_eq_true empty
            rcases started with rfl | logical
            · rw [appendPiece, if_pos rfl, inductionHypothesis depth (.inr whole),
                pendingMark_of_ne_nil whole.nonempty, splitDirective_trim, pendingMark_nil,
                nestedFrom_zero_cons, goesOn, Bool.or_true, decide_eq_true whole.nonempty]
              rfl
            · have merged := logical.append whole.trimmed whole.nonempty
              rw [appendPiece, if_neg logical.nonempty, inductionHypothesis depth (.inr merged),
                pendingMark_of_ne_nil merged.nonempty, key_splitDirective_merged logical,
                ← pendingMark_of_ne_nil logical.nonempty, decide_eq_true logical.nonempty,
                decide_eq_true merged.nonempty, if_pos rfl, nestedFrom_cons_zero_cons,
                Bool.true_or]

theorem nestedFrom_directives (text : Text) :
    NestedFrom 0 ((directives text).map fun directive => groupMark directive.key) ↔
      NestedFrom 0 (directiveMarks false (lines text)) := by
  have merged := nestedFrom_mergeLines 0 (lines text) (.inl rfl)
  rw [pendingMark_nil, nestedFrom_zero_cons] at merged
  rw [directives_eq_map, List.map_map]
  exact merged

/-- The marks add up to the begins less the ends. -/
theorem sum_groupMark (ds : List Directive) :
    (ds.map fun directive => groupMark directive.key).sum =
      (ds.countP (·.key = "group-begin") : Int) - ds.countP (·.key = "group-end") := by
  induction ds with
  | nil => rfl
  | cons directive ds inductionHypothesis =>
      rw [List.map_cons, List.sum_cons, inductionHypothesis, List.countP_cons, List.countP_cons,
        groupMark]
      by_cases begins : directive.key = "group-begin"
      · simp [begins]
        omega
      · by_cases ends : directive.key = "group-end"
        · simp [ends]
          omega
        · simp [begins, ends]

theorem unbalanced_iff (ds : List Directive) :
    Unbalanced ds ↔ ¬ NestedFrom 0 (ds.map fun directive => groupMark directive.key) := by
  constructor
  · rintro (⟨earlier, shorter, more⟩ | more) nested
    · have below := nested.never_below _ (shorter.map _)
      rw [sum_groupMark] at below
      omega
    · have closes := nested.closes
      rw [sum_groupMark] at closes
      omega
  · intro notNested
    by_contra balanced
    rw [Unbalanced, not_or, not_exists] at balanced
    have never : ∀ earlier, earlier <+: ds →
        earlier.countP (·.key = "group-end") ≤ earlier.countP (·.key = "group-begin") :=
      fun earlier shorter => Nat.le_of_not_lt fun more => balanced.1 earlier ⟨shorter, more⟩
    refine notNested ⟨fun marks shorter => ?_, ?_⟩
    · rw [List.prefix_iff_eq_take.mp shorter, ← List.map_take, sum_groupMark]
      have below := never _ (List.take_prefix marks.length ds)
      omega
    · have below := never ds (List.prefix_refl ds)
      have total := balanced.2
      rw [sum_groupMark]
      omega

/-! ### Exactness -/

/-- A text all of whose lines are seen alike has its group errors reported exactly.  Where the
misread lines are misread in one direction they cannot make up for each other: there the
reports are exact only for a text that is unbalanced anyway. -/
theorem reportsGroupError_exact (config : BeginnerConfig) (rulesText : Text) :
    (AllSeenAlike false (lines rulesText) →
      (ReportsGroupError config rulesText ↔ Unbalanced (directives rulesText))) ∧
    (MisreadOneWay rulesText →
      (ReportsGroupError config rulesText ↔ Unbalanced (directives rulesText)) →
        AllSeenAlike false (lines rulesText) ∨ Unbalanced (directives rulesText)) := by
  rw [reportsGroupError_iff, unbalanced_iff, nestedFrom_directives, allSeenAlike_iff]
  constructor
  · intro alike
    rw [alike]
  · intro oneWay exact
    by_cases nested : NestedFrom 0 (directiveMarks false (lines rulesText))
    · left
      have scanned := not_not.mp fun reported => exact.mp reported nested
      rcases oneWay with below | below
      · exact NestedFrom.eq_of_forall₂ scanned nested below
      · exact (NestedFrom.eq_of_forall₂ nested scanned below).symm
    · exact .inr nested

/-- The validator does not see a group whose name is set off with a tab. -/
theorem not_reportsGroupError_exact :
    ¬ ∀ (config : BeginnerConfig) (rulesText : Text),
      ReportsGroupError config rulesText ↔ Unbalanced (directives rulesText) := by
  intro exact
  let text : Text := "group-begin\tkids"
  have unseen : NestedFrom 0 ((lines text).map scanMark) := by
    have marks : (lines text).map scanMark = [0] := by decide
    rw [marks, nestedFrom_zero_cons, nestedFrom_nil]
  have unbalanced : Unbalanced (directives text) := .inr (by decide)
  exact (reportsGroupError_iff {} text).mp ((exact {} text).mpr unbalanced) unseen

end SmartDnsPlusUi
