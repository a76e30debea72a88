import SmartDnsPlusUi.Text.Path
import SmartDnsPlusUi.Text.Words

/-!
# Components of paths

A path is read component by component.  Joining a relative path adds its components to
those of the directory, and a changed extension changes the last one.
-/

namespace SmartDnsPlusUi.Text

inductive PathComponent where
  | rootDir
  | curDir
  | parentDir
  | normal (name : Text)
  deriving DecidableEq

/-- A name that stands for itself as a component. -/
structure IsName (name : Text) : Prop where
  noSlash : '/' ∉ name
  visible : isSkipped name = false
  notParent : name ≠ ['.', '.']

def partComponent (part : Text) : PathComponent :=
  if part = ['.', '.'] then .parentDir else .normal part

/-- The components behind the start of a path. -/
def bodyComponents (path : Text) : List PathComponent :=
  ((path.splitOn '/').filter (!isSkipped ·)).map partComponent

/-- `Path::components`. -/
def components (path : Text) : List PathComponent :=
  (if path.head? = some '/' then [.rootDir]
    else if (path.splitOn '/').head? = some ['.'] then [.curDir] else []) ++ bodyComponents path

theorem bodyComponents_append_slash (dir rest : Text) :
    bodyComponents (dir ++ '/' :: rest) = bodyComponents dir ++ bodyComponents rest := by
  unfold bodyComponents
  rw [List.splitOn_append_cons_self, List.filter_append, List.map_append]

@[simp] theorem bodyComponents_nil : bodyComponents [] = [] := rfl

/-- What follows a separator has no influence on the components before it. -/
theorem components_append_slash (dir rest : Text) :
    components (dir ++ '/' :: rest) = components (dir ++ ['/']) ++ bodyComponents rest := by
  unfold components
  obtain ⟨first, parts, split⟩ := List.exists_cons_of_ne_nil (List.splitOn_ne_nil '/' dir)
  have head : (dir ++ '/' :: rest).head? = (dir ++ ['/']).head? := by
    cases dir <;> rfl
  rw [head, List.splitOn_append_cons_self, List.splitOn_append_cons_self, split,
    bodyComponents_append_slash, bodyComponents_append_slash, bodyComponents_nil, List.append_nil,
    List.append_assoc]
  rfl

theorem components_append_separator {dir : Text} (nonempty : dir ≠ []) :
    components (dir ++ ['/']) = components dir := by
  unfold components
  obtain ⟨first, parts, split⟩ := List.exists_cons_of_ne_nil (List.splitOn_ne_nil '/' dir)
  rw [List.head?_append_of_ne_nil _ nonempty, List.splitOn_append_cons_self, split,
    bodyComponents_append_slash, bodyComponents_nil, List.append_nil]
  rfl

/-! ### Names -/

theorem IsName.ne_nil {name : Text} (isName : IsName name) : name ≠ [] := by
  rintro rfl
  exact absurd isName.visible (by decide)

theorem IsName.head_ne_slash {name : Text} (isName : IsName name) : name.head? ≠ some '/' :=
  fun head => isName.noSlash (List.mem_of_head? head)

variable {names : List Text}

theorem head?_join {name : Text} {separator : Text} (nonempty : name ≠ []) :
    (join separator (name :: names)).head? = name.head? := by
  by_cases last : names = []
  · rw [last, join_singleton]
  · rw [join_cons_of_ne_nil _ _ last, List.append_assoc, List.head?_append_of_ne_nil _ nonempty]

theorem head?_join_names (isNames : ∀ name ∈ names, IsName name) :
    (join ['/'] names).head? ≠ some '/' := by
  cases names with
  | nil => simp [join]
  | cons name names =>
      have isName := isNames name List.mem_cons_self
      rw [head?_join isName.ne_nil]
      exact isName.head_ne_slash

theorem splitOn_join_names (isNames : ∀ name ∈ names, IsName name) (nonempty : names ≠ []) :
    (join ['/'] names).splitOn '/' = names :=
  List.splitOn_intercalate '/' (fun name listed => (isNames name listed).noSlash) nonempty

theorem bodyComponents_join (isNames : ∀ name ∈ names, IsName name) :
    bodyComponents (join ['/'] names) = names.map .normal := by
  by_cases nonempty : names = []
  · rw [nonempty]
    rfl
  · unfold bodyComponents
    rw [splitOn_join_names isNames nonempty, List.filter_eq_self.mpr fun name listed => by
      rw [(isNames name listed).visible]
      rfl]
    exact List.map_congr_left fun name listed => if_neg (isNames name listed).notParent

/-- A path of names alone is relative. -/
theorem components_join (isNames : ∀ name ∈ names, IsName name) :
    components (join ['/'] names) = names.map .normal := by
  unfold components
  rw [if_neg (head?_join_names isNames), bodyComponents_join isNames]
  cases names with
  | nil => rfl
  | cons name names =>
      have visible := (isNames name List.mem_cons_self).visible
      rw [splitOn_join_names isNames (List.cons_ne_nil _ _), List.head?_cons, if_neg]
      · rfl
      · rw [Option.some.injEq]
        rintro rfl
        exact absurd visible (by decide)

/-- Joining names to a directory adds them to its components. -/
theorem components_pathJoin (isNames : ∀ name ∈ names, IsName name) (dir : Text) :
    components (pathJoin dir (join ['/'] names)) = components dir ++ names.map .normal := by
  unfold pathJoin
  rw [if_neg (head?_join_names isNames)]
  rcases List.eq_nil_or_concat' dir with rfl | ⟨front, last, rfl⟩
  · rw [if_pos (by simp), List.nil_append, components_join isNames]
    rfl
  · split_ifs with ended
    · obtain rfl : last = '/' := by simpa [endsWith] using ended
      rw [List.append_assoc, List.singleton_append, components_append_slash,
        bodyComponents_join isNames]
    · rw [components_append_slash, components_append_separator (by simp),
        bodyComponents_join isNames]

theorem isName_of_mem_components {path name : Text} (listed : .normal name ∈ components path) :
    IsName name := by
  unfold components at listed
  have body : PathComponent.normal name ∈ bodyComponents path := by
    rcases List.mem_append.mp listed with start | body
    · split_ifs at start <;> simp at start
    · exact body
  obtain ⟨part, filtered, same⟩ := List.mem_map.mp body
  obtain ⟨piece, visible⟩ := List.mem_filter.mp filtered
  unfold partComponent at same
  split_ifs at same with parent
  cases same
  exact ⟨not_mem_of_mem_splitOn path _ piece, by simpa using visible, parent⟩

/-! ### The last component -/

/-- The path up to the end of its last component. -/
def trimmedPath (path : Text) : Text := (pathStart path).1 ++ join ['/'] (pathComponents path)

/-- The stem of a file name and its extension. -/
def splitExtension (name : Text) : Text × Option Text :=
  match splitAtLast '.' name with
  | some (before, after) => if before = [] then (name, none) else (before, some after)
  | none => (name, none)

/-- `Path::extension`. -/
def extension (path : Text) : Option Text :=
  (fileName path).bind fun name => (splitExtension name).2

/-- `Path::with_extension`. -/
def withExtension (newExtension path : Text) : Text :=
  match fileName path with
  | none => path
  | some name =>
      (trimmedPath path).rdrop name.length ++ (splitExtension name).1 ++
        if newExtension = [] then [] else '.' :: newExtension

/-- The text is empty, or its end is a separator. -/
def EndsDirectory (dir : Text) : Prop := dir = [] ∨ ∃ front, dir = front ++ ['/']

/-- Behind a directory, any name is one more component. -/
theorem exists_components_append {dir : Text} (ends : EndsDirectory dir) :
    ∃ before, ∀ name, IsName name → components (dir ++ name) = before ++ [.normal name] := by
  rcases ends with rfl | ⟨front, rfl⟩
  · refine ⟨[], fun name isName => ?_⟩
    have single := components_join (List.forall_mem_singleton.mpr isName)
    rwa [join_singleton] at single
  · refine ⟨components (front ++ ['/']), fun name isName => ?_⟩
    have single := bodyComponents_join (List.forall_mem_singleton.mpr isName)
    rw [join_singleton] at single
    rw [List.append_assoc, List.singleton_append, components_append_slash, single]
    rfl

/-- A skipped part at the end adds no component. -/
theorem bodyComponents_skipped {parts : List Text} (noSlash : ∀ part ∈ parts, '/' ∉ part)
    (skipped : ∀ part ∈ parts, isSkipped part = true) : bodyComponents (join ['/'] parts) = [] := by
  by_cases nonempty : parts = []
  · rw [nonempty]
    rfl
  · have split : (join ['/'] parts).splitOn '/' = parts :=
      List.splitOn_intercalate '/' noSlash nonempty
    unfold bodyComponents
    rw [split, List.filter_eq_nil_iff.mpr fun part listed => by simp [skipped part listed],
      List.map_nil]

/-- A leading `.` is followed by a separator or by nothing. -/
theorem pathStart_cases (path : Text) :
    EndsDirectory (pathStart path).1 ∨
      ((pathStart path).2.splitOn '/').head? = some [] := by
  unfold pathStart
  split
  · exact .inl (.inr ⟨[], rfl⟩)
  · exact .inr rfl
  · right
    rw [List.splitOn_cons_eq_if_modifyHead]
    rfl
  · exact .inl (.inl rfl)

/-- The last component is its file name, behind a directory. -/
theorem trimmedPath_of_fileName {path name : Text} (named : fileName path = some name) :
    IsName name ∧ components (trimmedPath path) = components path ∧
      ∃ dir, EndsDirectory dir ∧ trimmedPath path = dir ++ name := by
  have parts : (pathComponents path).getLast? = some name ∧ name ≠ ['.', '.'] := by
    unfold fileName at named
    split at named
    · rename_i component last
      split_ifs at named with parent
      cases named
      exact ⟨last, parent⟩
    · cases named
  obtain ⟨last, notParent⟩ := parts
  have split : pathComponents path ++ ((pathStart path).2.splitOn '/').rtakeWhile isSkipped =
      (pathStart path).2.splitOn '/' := List.rdropWhile_append_rtakeWhile
  obtain ⟨front, whole⟩ := List.getLast?_eq_some_iff.mp last
  have noSlash : ∀ part ∈ (pathStart path).2.splitOn '/', '/' ∉ part :=
    not_mem_of_mem_splitOn _
  have visible : isSkipped name = false := by
    have nonempty : pathComponents path ≠ [] := by simp [whole]
    have lastVisible := List.rdropWhile_last_not isSkipped _ nonempty
    have same : (pathComponents path).getLast nonempty = name := by simp [whole]
    exact Bool.eq_false_iff.mpr (same ▸ lastVisible)
  have isName : IsName name := by
    refine ⟨noSlash name ?_, visible, notParent⟩
    rw [← split, whole]
    simp
  have ends : ∃ dir, EndsDirectory dir ∧ trimmedPath path = dir ++ name := by
    unfold trimmedPath
    rw [whole]
    by_cases single : front = []
    · refine ⟨(pathStart path).1, ?_, by rw [single, List.nil_append, join_singleton]⟩
      refine (pathStart_cases path).resolve_right fun empty => ?_
      rw [← split, whole, single] at empty
      exact isName.ne_nil (Option.some.inj empty)
    · refine ⟨(pathStart path).1 ++ join ['/'] front ++ ['/'], .inr ⟨_, rfl⟩, ?_⟩
      rw [join_append_of_ne_nil _ single (List.cons_ne_nil _ _), join_singleton]
      simp only [List.append_assoc]
  refine ⟨isName, ?_, ends⟩
  have body : (pathStart path).2 = join ['/'] ((pathStart path).2.splitOn '/') :=
    (List.intercalate_splitOn '/').symm
  by_cases none : ((pathStart path).2.splitOn '/').rtakeWhile isSkipped = []
  · have same : trimmedPath path = path := by
      rw [none, List.append_nil] at split
      rw [trimmedPath, split, ← body, pathStart_append]
    rw [same]
  · have longer : path = trimmedPath path ++
        '/' :: join ['/'] (((pathStart path).2.splitOn '/').rtakeWhile isSkipped) := by
      conv_lhs => rw [← pathStart_append path, body, ← split]
      rw [join_append_of_ne_nil _ (by simp [whole]) none, trimmedPath]
      simp only [List.append_assoc, List.singleton_append]
    have nothing : bodyComponents
        (join ['/'] (((pathStart path).2.splitOn '/').rtakeWhile isSkipped)) = [] :=
      bodyComponents_skipped (fun part listed => noSlash part (split ▸ List.mem_append_right _ listed))
        fun part listed => List.mem_rtakeWhile_imp listed
    obtain ⟨dir, -, trimmed⟩ := ends
    have nonempty : trimmedPath path ≠ [] := by simp [trimmed, isName.ne_nil]
    conv_rhs => rw [longer]
    rw [components_append_slash, nothing, List.append_nil, components_append_separator nonempty]

/-- A new extension of a file without extension changes the last component. -/
theorem components_withExtension {path name newExtension : Text}
    (named : fileName path = some name) (plain : extension path = none)
    (nonempty : newExtension ≠ []) (noSlash : '/' ∉ newExtension) :
    ∃ before, components path = before ++ [.normal name] ∧
      components (withExtension newExtension path) =
        before ++ [.normal (name ++ '.' :: newExtension)] := by
  obtain ⟨isName, same, dir, ends, whole⟩ := trimmedPath_of_fileName named
  obtain ⟨before, last⟩ := exists_components_append ends
  have stem : (splitExtension name).1 = name := by
    rw [extension, named, Option.bind_some] at plain
    unfold splitExtension at plain ⊢
    split at plain
    · split_ifs at plain with hidden
      rw [if_pos hidden]
    · rfl
  have longer : IsName (name ++ '.' :: newExtension) := by
    have positive := List.length_pos_iff.mpr isName.ne_nil
    have positiveNew := List.length_pos_iff.mpr nonempty
    have long : ∀ short : Text, short.length ≤ 2 → name ++ '.' :: newExtension ≠ short := by
      rintro _ short rfl
      simp only [List.length_append, List.length_cons] at short
      omega
    refine ⟨by simp [isName.noSlash, noSlash], ?_, long _ (by decide)⟩
    rw [isSkipped, decide_eq_false (long [] (by decide)), decide_eq_false (long ['.'] (by decide))]
    rfl
  refine ⟨before, ?_, ?_⟩
  · rw [← same, whole, last name isName]
  · unfold withExtension
    rw [named]
    dsimp only
    rw [if_neg nonempty, stem, whole, List.rdrop_append_length, List.append_assoc, last _ longer]

end SmartDnsPlusUi.Text
