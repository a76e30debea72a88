import SmartDnsPlusUi.Text.Lines

/-!
# Unix paths

`parent`, `file_name` and `join` of a path given as text, with the
documented treatment of repeated separators, of `.` components and of trailing
separators.
-/

namespace SmartDnsPlusUi.Text

/-- Neither an empty component nor a `.` counts as one. -/
def isSkipped (component : Text) : Bool := component = [] || component = ['.']

/-- What precedes the components: the root, or a leading `.`. -/
def pathStart : Text → Text × Text
  | '/' :: body => (['/'], body)
  | ['.'] => (['.'], [])
  | '.' :: '/' :: body => (['.'], '/' :: body)
  | body => ([], body)

/-- The components of a path without the skipped ones at its end. -/
def pathComponents (path : Text) : List Text :=
  ((pathStart path).2.splitOn '/').rdropWhile isSkipped

/-- `Path::parent`. -/
def parent (path : Text) : Option Text :=
  match pathComponents path with
  | [] => if (pathStart path).1 = ['.'] then some [] else none
  | components =>
      some ((pathStart path).1 ++
        join ['/'] (components.dropLast.rdropWhile isSkipped))

/-- `Path::file_name`. -/
def fileName (path : Text) : Option Text :=
  match (pathComponents path).getLast? with
  | some component => if component = ['.', '.'] then none else some component
  | none => none

/-- `Path::join`. -/
def pathJoin (dir name : Text) : Text :=
  if name.head? = some '/' then name
  else if dir = [] || endsWith '/' dir then dir ++ name
  else dir ++ '/' :: name

theorem pathStart_append (path : Text) : (pathStart path).1 ++ (pathStart path).2 = path := by
  unfold pathStart
  split <;> rfl

theorem join_isPrefix {separator : Text} {parts longer : List Text} (starts : parts <+: longer) :
    join separator parts <+: join separator longer := by
  obtain ⟨rest, rfl⟩ := starts
  induction parts with
  | nil => exact List.nil_prefix
  | cons part parts inductionHypothesis =>
      by_cases last : parts = []
      · subst last
        by_cases empty : rest = []
        · simp [empty]
        · rw [join, join, List.cons_append, List.nil_append,
            List.intercalate_cons_of_ne_nil empty]
          simp
      · rw [join, join, List.cons_append, List.intercalate_cons_of_ne_nil last,
          List.intercalate_cons_of_ne_nil (by simp [last])]
        exact (List.prefix_append_right_inj _).mpr inductionHypothesis

/-- A parent is the path up to one of its separators. -/
theorem parent_isPrefix {path dir : Text} (found : parent path = some dir) : dir <+: path := by
  unfold parent at found
  split at found
  · split at found
    · obtain rfl := Option.some.inj found
      exact List.nil_prefix
    · simp at found
  · obtain rfl := Option.some.inj found
    have starts : (pathComponents path).dropLast.rdropWhile isSkipped <+:
        (pathStart path).2.splitOn '/' :=
      ( List.rdropWhile_prefix _ _).trans (( List.dropLast_prefix _).trans
        ( List.rdropWhile_prefix _ _))
    have body : join ['/'] _ <+: join ['/'] _ := join_isPrefix starts
    have whole : join ['/'] ((pathStart path).2.splitOn '/') = (pathStart path).2 :=
      List.intercalate_splitOn '/'
    rw [whole] at body
    conv_rhs => rw [← pathStart_append path]
    exact (List.prefix_append_right_inj _).mpr body

theorem pathStart_cases_eq (path : Text) :
    (pathStart path).1 = [] ∨ ∃ c, (pathStart path).1 = [c] := by
  unfold pathStart
  split
  · exact .inr ⟨_, rfl⟩
  · exact .inr ⟨_, rfl⟩
  · exact .inr ⟨_, rfl⟩
  · exact .inl rfl

/-- The directory of a file in a named directory is not the empty path. -/
theorem parent_ne_nil {front directory name : Text} (long : 2 ≤ directory.length)
    (directoryFree : '/' ∉ directory) (nameFree : '/' ∉ name) (visible : isSkipped name = false) :
    parent (front ++ directory ++ '/' :: name) ≠ some [] := by
  intro found
  have nonempty : front ++ directory ≠ [] := by
    intro empty
    rw [(List.append_eq_nil_iff.mp empty).2] at long
    cases long
  obtain ⟨c, tail, whole⟩ := List.exists_cons_of_ne_nil nonempty
  have path := pathStart_append (front ++ directory ++ '/' :: name)
  obtain ⟨rest, body, own⟩ : ∃ rest,
      (pathStart (front ++ directory ++ '/' :: name)).2 = rest ++ '/' :: name ∧
        ((pathStart (front ++ directory ++ '/' :: name)).1 = [] → rest = front ++ directory) := by
    rcases pathStart_cases_eq (front ++ directory ++ '/' :: name) with start | ⟨first, start⟩
    · rw [start, List.nil_append] at path
      exact ⟨_, path, fun _ => rfl⟩
    · rw [start, List.singleton_append] at path
      rw [start]
      refine ⟨tail, ?_, fun empty => absurd empty (List.cons_ne_nil _ _)⟩
      rw [whole, List.cons_append, List.cons.injEq] at path
      rw [whole]
      exact path.2
  have components : pathComponents (front ++ directory ++ '/' :: name) =
      rest.splitOn '/' ++ [name] := by
    rw [pathComponents, body, List.splitOn_append_cons_self, List.splitOn_eq_singleton nameFree]
    exact List.rdropWhile_concat_neg _ _ _ (by simp [visible])
  rw [parent, components] at found
  split at found
  · rename_i empty
    simp at empty
  · rw [Option.some.injEq, List.append_eq_nil_iff, List.dropLast_concat] at found
    obtain ⟨parts, last, -, pieces⟩ := splitOn_append_of_not_mem front directoryFree
    have shown : isSkipped (last ++ directory) = false := by
      unfold isSkipped
      rw [Bool.or_eq_false_iff, decide_eq_false_iff_not, decide_eq_false_iff_not]
      constructor
      · intro empty
        have length := congrArg List.length empty
        rw [List.length_append, List.length_nil] at length
        omega
      · intro single
        have length := congrArg List.length single
        rw [List.length_append, List.length_singleton] at length
        omega
    rw [own found.1, pieces, List.rdropWhile_concat_neg _ _ _ (by simp [shown])] at found
    have inside : last ++ directory <:+: join ['/'] (parts ++ [last ++ directory]) :=
      infix_join_of_mem (List.mem_append_right _ (List.mem_singleton_self _))
    rw [found.2, List.infix_nil, List.append_eq_nil_iff] at inside
    rw [inside.2] at long
    cases long

theorem pathJoin_eq_append (dir name : Text) : ∃ front, pathJoin dir name = front ++ name := by
  unfold pathJoin
  split
  · exact ⟨[], rfl⟩
  · split
    · exact ⟨dir, rfl⟩
    · exact ⟨dir ++ ['/'], by simp⟩

theorem mem_pathJoin {c : Char} {dir name : Text} (membership : c ∈ pathJoin dir name) :
    c ∈ dir ∨ c = '/' ∨ c ∈ name := by
  unfold pathJoin at membership
  split at membership
  · exact .inr (.inr membership)
  · split at membership
    · exact (List.mem_append.mp membership).imp_right .inr
    · simpa using membership

/-- A text without separator that occurs in a joined path, and whose first
character the joined name lacks, occurs in the directory. -/
theorem infix_of_infix_pathJoin {d : Char} {needle dir name : Text} (noSlash : '/' ∉ d :: needle)
    (fresh : d ∉ name) (relative : name.head? ≠ some '/') (occurs : d :: needle <:+: pathJoin dir name) :
    d :: needle <:+: dir := by
  have absent : ¬ d :: needle <:+: name := fun inside => fresh (inside.subset (by simp))
  rw [pathJoin, if_neg relative] at occurs
  split at occurs
  · rename_i direct
    rcases List.eq_nil_or_concat' dir with rfl | ⟨front, last, rfl⟩
    · exact absurd (by simpa using occurs) absent
    · obtain rfl : last = '/' := by simpa [endsWith] using direct
      rw [List.append_assoc, List.singleton_append] at occurs
      rcases infix_append_cons noSlash occurs with before | after
      · exact before.trans ( List.prefix_append _ _).isInfix
      · exact absurd after absent
  · rcases infix_append_cons noSlash occurs with before | after
    · exact before
    · exact absurd after absent

end SmartDnsPlusUi.Text
