import SmartDnsPlusUi.Text.PathComponents

/-!
# Static files

The path of a request is normalised and joined to the web root.  Where no file is found the
extension `html`, an index and the page for errors are tried in this order.
-/

namespace SmartDnsPlusUi

open Text

/-- One component of `normalize_path`. -/
def normalStep (ret : Text) : PathComponent → Text
  | .rootDir => pathJoin ret ['/']
  | .curDir => ret
  | .parentDir => (parent ret).getD ret
  | .normal c => pathJoin ret c

def normalizePath (path : Text) : Text := (components path).foldl normalStep []

/-- `strip_prefix("/")` of a path that starts with it. -/
def stripRoot (path : Text) : Text :=
  join ['/'] (((path.splitOn '/').dropWhile isSkipped).rdropWhile isSkipped)

/-- The path of a request, relative to the web root. -/
def requestedPath (uriPath : Text) : Text :=
  let path := normalizePath uriPath
  if path.head? = some '/' then stripRoot path else path

/-- What the server asks of the file system. -/
structure FileSystem where
  pathExists : Text → Bool
  isDir : Text → Bool

/-- The file that is read, the path that its type is taken from, and whether it is the page
for errors. -/
structure ServedFile where
  filepath : Text
  path : Text
  is404 : Bool
  deriving DecidableEq

/-- The path with the extension `html`, if there is such a file for it. -/
def tryHtml (fs : FileSystem) (uriPath filepath : Text) : Text × Text :=
  if extension filepath = none ∧ endsWith '/' uriPath = false ∧
      fs.pathExists (withExtension "html" filepath) = true then
    (withExtension "html" filepath, uriPath ++ ".html")
  else (filepath, uriPath)

/-- The index of a directory. -/
def tryIndex (fs : FileSystem) (uriPath : Text) (found : Text × Text) : Text × Text :=
  if fs.isDir found.1 then (pathJoin found.1 "index.html", uriPath ++ "/index.html") else found

/-- The file of a page. -/
def servedFile (fs : FileSystem) (wwwRoot uriPath : Text) : ServedFile :=
  let filepath := pathJoin wwwRoot (requestedPath uriPath)
  if fs.pathExists filepath = false ∨ fs.isDir filepath = true then
    let found := tryIndex fs uriPath (tryHtml fs uriPath filepath)
    if fs.pathExists found.1 then { filepath := found.1, path := found.2, is404 := false }
    else if fs.pathExists (pathJoin wwwRoot "404.html") then
      { filepath := pathJoin wwwRoot "404.html", path := "/404.html", is404 := true }
    else { filepath := pathJoin wwwRoot "index.html", path := "/index.html", is404 := false }
  else { filepath, path := uriPath, is404 := false }

/-- `server_handle_http_request`, up to the file that it reads; the path of an API is handled
elsewhere. -/
def handleHttpRequest (fs : FileSystem) (wwwRoot uriPath : Text) : Option ServedFile :=
  if (components (requestedPath uriPath)).head? = some (.normal "api") then none
  else some (servedFile fs wwwRoot uriPath)

/-- The path is the root with normal components behind it. -/
def IsInside (wwwRoot path : Text) : Prop :=
  ∃ names : List Text, components path = components wwwRoot ++ names.map .normal

/-- The request names the root itself, which has a name without extension, and the file with
this name and the extension `html` is found. -/
structure LeavesRoot (fs : FileSystem) (wwwRoot uriPath : Text) : Prop where
  itself : requestedPath uriPath = []
  noFile : fs.pathExists (pathJoin wwwRoot []) = false ∨ fs.isDir (pathJoin wwwRoot []) = true
  named : (fileName (pathJoin wwwRoot [])).isSome
  plain : extension (pathJoin wwwRoot []) = none
  notEnded : endsWith '/' uriPath = false
  found : fs.pathExists (withExtension "html" (pathJoin wwwRoot [])) = true
  index : fs.isDir (withExtension "html" (pathJoin wwwRoot [])) = true →
    fs.pathExists (pathJoin (withExtension "html" (pathJoin wwwRoot [])) "index.html") = true

/-! ### Normalised paths -/

/-- Names behind the root, or a relative path of names. -/
def rendered (rooted : Bool) (names : List Text) : Text :=
  (if rooted then ['/'] else []) ++ join ['/'] names

variable {names : List Text} {rooted : Bool}

theorem rdropWhile_names (isNames : ∀ name ∈ names, IsName name) :
    names.rdropWhile isSkipped = names := by
  refine List.rdropWhile_eq_self_iff.mpr fun nonempty => ?_
  simp [(isNames _ (List.getLast_mem nonempty)).visible]

theorem pathStart_of_relative {path : Text} (noSlash : path.head? ≠ some '/')
    (noDot : (path.splitOn '/').head? ≠ some ['.']) : pathStart path = ([], path) := by
  unfold pathStart
  split
  · exact absurd rfl noSlash
  · exact absurd rfl noDot
  · rename_i body
    refine absurd ?_ noDot
    rw [List.splitOn_cons_eq_if_modifyHead, List.splitOn_cons_eq_if_modifyHead]
    rfl
  · rfl

theorem pathStart_rendered (isNames : ∀ name ∈ names, IsName name) :
    pathStart (rendered rooted names) = (if rooted then ['/'] else [], join ['/'] names) := by
  cases rooted with
  | true => rfl
  | false =>
      refine pathStart_of_relative (head?_join_names isNames) ?_
      rw [rendered, if_neg Bool.false_ne_true, List.nil_append]
      cases names with
      | nil => decide
      | cons name names =>
          have visible := (isNames name List.mem_cons_self).visible
          rw [splitOn_join_names isNames (List.cons_ne_nil _ _), List.head?_cons, ne_eq,
            Option.some.injEq]
          rintro rfl
          exact absurd visible (by decide)

theorem pathComponents_rendered (isNames : ∀ name ∈ names, IsName name) :
    pathComponents (rendered rooted names) = names := by
  unfold pathComponents
  rw [pathStart_rendered isNames]
  by_cases nonempty : names = []
  · subst nonempty
    rfl
  · dsimp only
    rw [splitOn_join_names isNames nonempty, rdropWhile_names isNames]

theorem exists_rendered_concat (rooted : Bool) (front : List Text) (last : Text) :
    ∃ dir, rendered rooted (front ++ [last]) = dir ++ last := by
  unfold rendered
  by_cases single : front = []
  · exact ⟨_, by rw [single, List.nil_append, join_singleton]⟩
  · refine ⟨(if rooted then ['/'] else []) ++ (join ['/'] front ++ ['/']), ?_⟩
    rw [join_append_of_ne_nil _ single (List.cons_ne_nil _ _), join_singleton]
    simp only [List.append_assoc]

theorem pathJoin_rendered (isNames : ∀ name ∈ names, IsName name) {c : Text} (isName : IsName c) :
    pathJoin (rendered rooted names) c = rendered rooted (names ++ [c]) := by
  unfold pathJoin
  rw [if_neg isName.head_ne_slash]
  rcases List.eq_nil_or_concat' names with rfl | ⟨front, last, rfl⟩
  · rw [List.nil_append, rendered, rendered, join_singleton]
    cases rooted <;> rfl
  · have isLast := isNames last (List.mem_append_right _ (List.mem_singleton_self last))
    have ended : rendered rooted (front ++ [last]) ≠ [] ∧
        endsWith '/' (rendered rooted (front ++ [last])) = false := by
      obtain ⟨dir, whole⟩ := exists_rendered_concat rooted front last
      rw [whole, endsWith_append _ _ isLast.ne_nil]
      exact ⟨by simp [isLast.ne_nil], endsWith_of_not_mem isLast.noSlash⟩
    rw [if_neg (by simp [ended])]
    rw [rendered, rendered, join_append_of_ne_nil _ (by simp) (List.cons_ne_nil c []),
      join_singleton]
    simp only [List.append_assoc, List.singleton_append]

theorem parent_rendered (isNames : ∀ name ∈ names, IsName name) :
    (parent (rendered rooted names)).getD (rendered rooted names) =
      rendered rooted names.dropLast := by
  have dropped : ∀ name ∈ names.dropLast, IsName name :=
    fun name listed => isNames name (List.dropLast_subset names listed)
  unfold parent
  rw [pathComponents_rendered isNames, pathStart_rendered isNames]
  cases names with
  | nil => cases rooted <;> rfl
  | cons name names =>
      dsimp only
      rw [Option.getD_some, rdropWhile_names dropped]
      rfl

/-- A normalised path has names only. -/
theorem exists_foldl_normalStep {listed : List PathComponent}
    (isListed : ∀ name, .normal name ∈ listed → IsName name)
    (isNames : ∀ name ∈ names, IsName name) :
    ∃ rooted' names', (∀ name ∈ names', IsName name) ∧
      listed.foldl normalStep (rendered rooted names) = rendered rooted' names' := by
  induction listed generalizing rooted names with
  | nil => exact ⟨rooted, names, isNames, rfl⟩
  | cons component listed inductionHypothesis =>
      have isLater : ∀ name, .normal name ∈ listed → IsName name :=
        fun name later => isListed name (List.mem_cons_of_mem _ later)
      rw [List.foldl_cons]
      cases component with
      | rootDir => exact @inductionHypothesis [] true isLater nofun
      | curDir => exact inductionHypothesis isLater isNames
      | parentDir =>
          rw [normalStep, parent_rendered isNames]
          exact inductionHypothesis isLater
            fun name kept => isNames name (List.dropLast_subset names kept)
      | normal c =>
          have isName := isListed c List.mem_cons_self
          rw [normalStep, pathJoin_rendered isNames isName]
          exact inductionHypothesis isLater
            (List.forall_mem_append.mpr ⟨isNames, List.forall_mem_singleton.mpr isName⟩)

theorem stripRoot_rendered (isNames : ∀ name ∈ names, IsName name) :
    stripRoot (rendered true names) = join ['/'] names := by
  have split : (rendered true names).splitOn '/' = [] :: (join ['/'] names).splitOn '/' :=
    List.splitOn_append_cons_self [] (join ['/'] names)
  unfold stripRoot
  rw [split, List.dropWhile_cons_of_pos rfl]
  cases names with
  | nil => rfl
  | cons name names =>
      have visible := (isNames name List.mem_cons_self).visible
      rw [splitOn_join_names isNames (List.cons_ne_nil _ _),
        List.dropWhile_cons_of_neg (Bool.eq_false_iff.mp visible), rdropWhile_names isNames]

theorem exists_requestedPath (uriPath : Text) :
    ∃ names, (∀ name ∈ names, IsName name) ∧ requestedPath uriPath = join ['/'] names := by
  obtain ⟨rooted, names, isNames, normalised⟩ :=
    @exists_foldl_normalStep [] false _ (fun _ => isName_of_mem_components) nofun
  refine ⟨names, isNames, ?_⟩
  have whole : normalizePath uriPath = rendered rooted names := normalised
  unfold requestedPath
  rw [whole]
  cases rooted with
  | true =>
      have head : (rendered true names).head? = some '/' := rfl
      dsimp only
      rw [if_pos head, stripRoot_rendered isNames]
  | false =>
      dsimp only
      have relative := head?_join_names isNames
      rw [rendered, if_neg Bool.false_ne_true, List.nil_append, if_neg relative]

/-! ### The file that is read -/

theorem isInside_pathJoin {wwwRoot path : Text} (inside : IsInside wwwRoot path)
    (isNames : ∀ name ∈ names, IsName name) :
    IsInside wwwRoot (pathJoin path (join ['/'] names)) := by
  obtain ⟨front, inner⟩ := inside
  refine ⟨front ++ names, ?_⟩
  rw [components_pathJoin isNames, inner, List.map_append, List.append_assoc]

theorem isInside_page {wwwRoot path page : Text} (inside : IsInside wwwRoot path)
    (isName : IsName page) : IsInside wwwRoot (pathJoin path page) := by
  have joined := isInside_pathJoin inside (List.forall_mem_singleton.mpr isName)
  rwa [join_singleton] at joined

theorem isInside_self (wwwRoot : Text) : IsInside wwwRoot wwwRoot :=
  ⟨[], (List.append_nil _).symm⟩

theorem isName_index : IsName "index.html" := ⟨by decide, by decide, by decide⟩

theorem isName_notFound : IsName "404.html" := ⟨by decide, by decide, by decide⟩

theorem components_pathJoin_nil (wwwRoot : Text) :
    components (pathJoin wwwRoot []) = components wwwRoot := by
  have joined := @components_pathJoin [] nofun wwwRoot
  rwa [List.map_nil, List.append_nil] at joined

/-- Below the root another extension stays below it. -/
theorem isInside_withExtension {wwwRoot name : Text}
    (isNames : ∀ other ∈ names ++ [name], IsName other)
    (plain : extension (pathJoin wwwRoot (join ['/'] (names ++ [name]))) = none) :
    IsInside wwwRoot (withExtension "html" (pathJoin wwwRoot (join ['/'] (names ++ [name])))) := by
  have joined := components_pathJoin isNames wwwRoot
  cases named : fileName (pathJoin wwwRoot (join ['/'] (names ++ [name]))) with
  | none =>
      rw [withExtension, named]
      exact ⟨names ++ [name], joined⟩
  | some last =>
      obtain ⟨before, inner, longer⟩ :=
        @components_withExtension _ _ "html" named plain (by decide) (by decide)
      rw [inner, List.map_append, ← List.append_assoc] at joined
      have front := (List.append_inj' joined rfl).1
      refine ⟨names ++ [last ++ '.' :: "html"], ?_⟩
      rw [longer, front, List.map_append, List.append_assoc]
      rfl

/-- The root itself with another extension, and what is below that, is outside. -/
theorem not_isInside_withExtension {wwwRoot : Text}
    (named : (fileName (pathJoin wwwRoot [])).isSome)
    (plain : extension (pathJoin wwwRoot []) = none) {path : Text}
    (below : ∃ more : List Text, components path =
      components (withExtension "html" (pathJoin wwwRoot [])) ++ more.map .normal) :
    ¬ IsInside wwwRoot path := by
  obtain ⟨last, named⟩ := Option.isSome_iff_exists.mp named
  obtain ⟨before, inner, longer⟩ :=
    @components_withExtension _ _ "html" named plain (by decide) (by decide)
  rw [components_pathJoin_nil] at inner
  obtain ⟨more, below⟩ := below
  rintro ⟨names, inside⟩
  rw [below, longer, inner, List.append_assoc, List.append_assoc] at inside
  have same := List.append_cancel_left inside
  simp at same

/-- The root was meant, and its name with the extension `html` was found. -/
structure TriesSibling (fs : FileSystem) (wwwRoot uriPath : Text) : Prop where
  itself : requestedPath uriPath = []
  named : (fileName (pathJoin wwwRoot [])).isSome
  plain : extension (pathJoin wwwRoot []) = none
  notEnded : endsWith '/' uriPath = false
  found : fs.pathExists (withExtension "html" (pathJoin wwwRoot [])) = true

/-- Unless the root was meant, the file is below the root. -/
theorem isInside_tryHtml {fs : FileSystem} {wwwRoot uriPath : Text}
    (below : ¬ TriesSibling fs wwwRoot uriPath) :
    IsInside wwwRoot (tryHtml fs uriPath (pathJoin wwwRoot (requestedPath uriPath))).1 := by
  obtain ⟨names, isNames, requested⟩ := exists_requestedPath uriPath
  have direct := isInside_pathJoin (isInside_self wwwRoot) isNames
  unfold tryHtml
  rw [requested]
  split_ifs with html
  · rcases List.eq_nil_or_concat' names with rfl | ⟨front, last, rfl⟩
    · have itself : join ['/'] ([] : List Text) = [] := rfl
      rw [itself] at requested html direct ⊢
      cases named : fileName (pathJoin wwwRoot []) with
      | none =>
          rw [withExtension, named]
          exact direct
      | some name =>
          exact absurd ⟨requested, by rw [named]; rfl, html.1, html.2.1, html.2.2⟩ below
    · exact isInside_withExtension isNames html.1
  · exact direct

theorem isInside_tryIndex {fs : FileSystem} {wwwRoot uriPath : Text} {found : Text × Text}
    (inside : IsInside wwwRoot found.1) : IsInside wwwRoot (tryIndex fs uriPath found).1 := by
  unfold tryIndex
  split_ifs
  · exact isInside_page inside isName_index
  · exact inside

/-- What is found for the root with the extension is outside. -/
theorem not_isInside_tryIndex {fs : FileSystem} {wwwRoot uriPath : Text}
    (sibling : TriesSibling fs wwwRoot uriPath) :
    ¬ IsInside wwwRoot (tryIndex fs uriPath
      (tryHtml fs uriPath (pathJoin wwwRoot (requestedPath uriPath)))).1 := by
  refine not_isInside_withExtension sibling.named sibling.plain ?_
  rw [sibling.itself, tryHtml, if_pos ⟨sibling.plain, sibling.notEnded, sibling.found⟩, tryIndex]
  split_ifs
  · have joined := @components_pathJoin ["index.html"] (List.forall_mem_singleton.mpr isName_index)
      (withExtension "html" (pathJoin wwwRoot []))
    rw [join_singleton] at joined
    exact ⟨_, joined⟩
  · exact ⟨[], (List.append_nil _).symm⟩

/-- When the file with the extension, or its index, is found. -/
theorem pathExists_tryIndex_iff {fs : FileSystem} {wwwRoot uriPath : Text}
    (sibling : TriesSibling fs wwwRoot uriPath) :
    fs.pathExists (tryIndex fs uriPath
        (tryHtml fs uriPath (pathJoin wwwRoot (requestedPath uriPath)))).1 = true ↔
      (fs.isDir (withExtension "html" (pathJoin wwwRoot [])) = true →
        fs.pathExists (pathJoin (withExtension "html" (pathJoin wwwRoot [])) "index.html") =
          true) := by
  rw [sibling.itself, tryHtml, if_pos ⟨sibling.plain, sibling.notEnded, sibling.found⟩, tryIndex]
  split_ifs with dir
  · simp only [dir, true_implies]
  · exact iff_of_true sibling.found fun isDir => absurd isDir dir

theorem isInside_servedFile_iff (fs : FileSystem) (wwwRoot uriPath : Text) :
    IsInside wwwRoot (servedFile fs wwwRoot uriPath).filepath ↔
      ¬ LeavesRoot fs wwwRoot uriPath := by
  have errorPage := isInside_page (isInside_self wwwRoot) isName_notFound
  have indexPage := isInside_page (isInside_self wwwRoot) isName_index
  obtain ⟨names, isNames, requested⟩ := exists_requestedPath uriPath
  have direct := isInside_pathJoin (isInside_self wwwRoot) isNames
  rw [← requested] at direct
  have tries : LeavesRoot fs wwwRoot uriPath → TriesSibling fs wwwRoot uriPath :=
    fun leaves => ⟨leaves.itself, leaves.named, leaves.plain, leaves.notEnded, leaves.found⟩
  have index : LeavesRoot fs wwwRoot uriPath → fs.pathExists (tryIndex fs uriPath
      (tryHtml fs uriPath (pathJoin wwwRoot (requestedPath uriPath)))).1 = true :=
    fun leaves => (pathExists_tryIndex_iff (tries leaves)).mpr leaves.index
  unfold servedFile
  dsimp only
  split_ifs with noFile found notFound
  · by_cases sibling : TriesSibling fs wwwRoot uriPath
    · refine iff_of_false (not_isInside_tryIndex sibling) (not_not.mpr ?_)
      rw [sibling.itself] at noFile
      exact ⟨sibling.itself, noFile, sibling.named, sibling.plain, sibling.notEnded,
        sibling.found, (pathExists_tryIndex_iff sibling).mp found⟩
    · exact iff_of_true (isInside_tryIndex (isInside_tryHtml sibling)) fun leaves =>
        sibling (tries leaves)
  · exact iff_of_true errorPage fun leaves => found (index leaves)
  · exact iff_of_true indexPage fun leaves => found (index leaves)
  · refine iff_of_true direct fun leaves => noFile ?_
    rw [leaves.itself]
    exact leaves.noFile

/-- Exactly when the file that is read for a request lies under the web root. -/
theorem isInside_handleHttpRequest_iff (fs : FileSystem) (wwwRoot uriPath : Text) :
    (∀ served, handleHttpRequest fs wwwRoot uriPath = some served →
      IsInside wwwRoot served.filepath) ↔ ¬ LeavesRoot fs wwwRoot uriPath := by
  rw [← isInside_servedFile_iff]
  unfold handleHttpRequest
  split_ifs with api
  · refine ⟨fun _ => ?_, nofun⟩
    refine (isInside_servedFile_iff fs wwwRoot uriPath).mpr fun leaves => ?_
    rw [leaves.itself] at api
    exact absurd api (by decide)
  · simp

/-- The request `/.` reads the file `wwwroot.html` beside the web root. -/
theorem not_isInside_handleHttpRequest :
    ¬ ∀ (fs : FileSystem) (wwwRoot uriPath : Text) (served : ServedFile),
      handleHttpRequest fs wwwRoot uriPath = some served → IsInside wwwRoot served.filepath := by
  intro inside
  obtain ⟨names, same⟩ := inside
    { pathExists := fun path => path ∈ [("/www/" : Text), "/www.html"]
      isDir := fun path => path = "/www/" } "/www" "/."
    { filepath := "/www.html", path := "/..html", is404 := false } (by decide)
  have outside : components "/www.html" = [.rootDir, .normal "www.html"] := by decide
  have root : components "/www" = [.rootDir, .normal "www"] := by decide
  rw [outside, root] at same
  exact absurd (List.cons.inj (List.cons.inj same).2).1 (by decide)

end SmartDnsPlusUi
