import SmartDnsPlusUi.Config.Sources
import SmartDnsPlusUi.Graph.DepthFirst

/-!
# The include graph

A source is a file together with the group that it is included under.  The collector is a
depth-first traversal of the sources that the main file includes, directly or not, and
recognises a source by the text that joins the file and the group with two colons.
-/

namespace SmartDnsPlusUi

open Files SmartDnsPlusUi.Graph Run Text

/-! ### Sources and what they include -/

def ConfigTree.canonical (tree : ConfigTree) (path : Text) : Text :=
  (tree.canonicalize path).getD path

/-- The path and the group of a source. -/
def ConfigSource.place (source : ConfigSource) : Text × Option Text :=
  (source.path, source.implicitGroup)

def placeKey (place : Text × Option Text) : Text := visitKey place.1 place.2

def mainPlace (tree : ConfigTree) (configFile : Text) : Text × Option Text :=
  (tree.canonical configFile, none)

/-- Where a directive leads from a file: an existing file, and its group. -/
def includedPlace (tree : ConfigTree) (canonical : Text) (directive : Directive) :
    Option (Text × Option Text) :=
  (includeOf directive).bind fun (includeFile, includeGroup) =>
    let includePath := resolveIncludePath canonical includeFile
    if tree.pathExists includePath then some (tree.canonical includePath, includeGroup) else none

/-- What the `conf-file` lines of a file include. -/
def includedPlaces (tree : ConfigTree) (place : Text × Option Text) :
    List (Text × Option Text) :=
  match tree.readTextOrDefault place.1 with
  | .ok text => (directives text).filterMap (includedPlace tree place.1)
  | .error _ => []

/-- The collected sources are those that the main file reaches, each once, the main file
first and every other one after a source that includes it. -/
def ListsReachable (tree : ConfigTree) (configFile : Text) (sources : List ConfigSource) :
    Prop :=
  IsTraversal (includedPlaces tree) (mainPlace tree configFile)
    (sources.map ConfigSource.place)

/-- The main file and all existing files are in the list, and each of them can be read. -/
structure HasFiles (tree : ConfigTree) (configFile : Text) (files : List Text) : Prop where
  main : tree.canonical configFile ∈ files
  existing : ∀ path, tree.pathExists path = true → tree.canonical path ∈ files
  readable : ∀ path ∈ files, ∃ text, tree.readTextOrDefault path = .ok text

/-! ### The collector traverses the include graph -/

def Collected.visits (collected : Collected) : Visits (Text × Option Text) Text where
  visited := collected.visited
  order := collected.items.map ConfigSource.place

theorem visits_push (collected : Collected) (source : ConfigSource) :
    (collected.push source).visits = collected.visits.push placeKey source.place := by
  simp [Collected.visits, Collected.push, Visits.push, placeKey, ConfigSource.place]

theorem mem_files_of_includedPlace {tree : ConfigTree} {configFile canonical : Text}
    {files : List Text} (hasFiles : HasFiles tree configFile files) {directive : Directive}
    {place : Text × Option Text} (included : includedPlace tree canonical directive = some place) :
    place.1 ∈ files := by
  obtain ⟨found, -, leads⟩ := Option.bind_eq_some_iff.mp included
  dsimp only at leads
  split_ifs at leads with pathExists
  cases leads
  exact hasFiles.existing _ pathExists

/-- What the loop of a visit does with a directive. -/
def collectIncluded (tree : ConfigTree) (fuel : Nat) (canonical : Text) (collected : Collected)
    (directive : Directive) : Option Collected :=
  match includeOf directive with
  | none => some collected
  | some (includeFile, includeGroup) =>
      let includePath := resolveIncludePath canonical includeFile
      if tree.pathExists includePath then
        collectConfigSourceRecursive tree fuel includePath includeGroup collected
      else some collected

theorem collectConfigSourceRecursive_known {tree : ConfigTree} {path : Text}
    {implicitGroup : Option Text} {collected : Collected}
    (known : placeKey (tree.canonical path, implicitGroup) ∈ collected.visited) (fuel : Nat) :
    collectConfigSourceRecursive tree (fuel + 1) path implicitGroup collected = some collected :=
  if_pos known

theorem collectConfigSourceRecursive_unread {tree : ConfigTree} {path : Text}
    {implicitGroup : Option Text} {collected : Collected} {kind : ErrorKind}
    (fresh : placeKey (tree.canonical path, implicitGroup) ∉ collected.visited)
    (unread : tree.readTextOrDefault (tree.canonical path) = .error kind) (fuel : Nat) :
    collectConfigSourceRecursive tree (fuel + 1) path implicitGroup collected = none := by
  refine (if_neg fresh).trans ?_
  unfold ConfigTree.canonical at unread
  dsimp only
  rw [unread]

theorem collectConfigSourceRecursive_fresh {tree : ConfigTree} {path text : Text}
    {implicitGroup : Option Text} {collected : Collected}
    (fresh : placeKey (tree.canonical path, implicitGroup) ∉ collected.visited)
    (read : tree.readTextOrDefault (tree.canonical path) = .ok text) (fuel : Nat) :
    collectConfigSourceRecursive tree (fuel + 1) path implicitGroup collected =
      run (collectIncluded tree fuel (tree.canonical path))
        (collected.push ⟨tree.canonical path, text, implicitGroup⟩) (directives text) := by
  refine (if_neg fresh).trans ?_
  unfold ConfigTree.canonical at read
  dsimp only
  rw [read]
  rfl

theorem collectIncluded_skipped {tree : ConfigTree} {canonical : Text} {directive : Directive}
    (nothing : includedPlace tree canonical directive = none) (fuel : Nat)
    (collected : Collected) :
    collectIncluded tree fuel canonical collected directive = some collected := by
  unfold includedPlace at nothing
  unfold collectIncluded
  cases found : includeOf directive with
  | none => rfl
  | some included =>
      rw [found, Option.bind_some] at nothing
      dsimp only at nothing ⊢
      split_ifs at nothing ⊢
      rfl

theorem collectIncluded_taken {tree : ConfigTree} {canonical : Text} {directive : Directive}
    {place : Text × Option Text} (leads : includedPlace tree canonical directive = some place)
    (fuel : Nat) (collected : Collected) :
    ∃ path, tree.pathExists path = true ∧ tree.canonical path = place.1 ∧
      collectIncluded tree fuel canonical collected directive =
        collectConfigSourceRecursive tree fuel path place.2 collected := by
  obtain ⟨included, found, exists'⟩ := Option.bind_eq_some_iff.mp leads
  unfold collectIncluded
  rw [found]
  dsimp only at exists' ⊢
  split_ifs at exists' ⊢ with pathExists
  cases exists'
  exact ⟨_, pathExists, rfl, rfl⟩

/-- The collector is a traversal of the include graph. -/
theorem visits_collectConfigSourceRecursive {tree : ConfigTree} {configFile : Text}
    {files : List Text} (hasFiles : HasFiles tree configFile files) (fuel : Nat) {path : Text}
    (inside : tree.canonical path ∈ files) (implicitGroup : Option Text)
    (collected : Collected) :
    (collectConfigSourceRecursive tree fuel path implicitGroup collected).map Collected.visits =
      visit (includedPlaces tree) placeKey fuel collected.visits
        (tree.canonical path, implicitGroup) := by
  induction fuel generalizing path implicitGroup collected with
  | zero => rfl
  | succ fuel inductionHypothesis =>
      rw [visit]
      by_cases known : placeKey (tree.canonical path, implicitGroup) ∈ collected.visited
      · rw [collectConfigSourceRecursive_known known]
        exact (if_pos known).symm
      · obtain ⟨text, read⟩ := hasFiles.readable _ inside
        have places : includedPlaces tree (tree.canonical path, implicitGroup) =
            (directives text).filterMap (includedPlace tree (tree.canonical path)) := by
          rw [includedPlaces, read]
        rw [collectConfigSourceRecursive_fresh known read]
        refine Eq.trans ?_ (if_neg known).symm
        have pushed : collected.visits.push placeKey (tree.canonical path, implicitGroup) =
            (collected.push ⟨tree.canonical path, text, implicitGroup⟩).visits :=
          (visits_push collected ⟨tree.canonical path, text, implicitGroup⟩).symm
        rw [places, pushed]
        apply map_run
        · intro state directive _ nothing
          exact collectIncluded_skipped nothing fuel state
        · intro state directive _ place leads
          obtain ⟨included, pathExists, same, taken⟩ := collectIncluded_taken leads fuel state
          rw [taken, inductionHypothesis (hasFiles.existing _ pathExists), same]

theorem collectConfigSourceRecursive_of_le {tree : ConfigTree} {fuel more : Nat}
    (enough : fuel ≤ more) {path : Text} {implicitGroup : Option Text}
    {collected result : Collected}
    (ended : collectConfigSourceRecursive tree fuel path implicitGroup collected = some result) :
    collectConfigSourceRecursive tree more path implicitGroup collected = some result := by
  induction fuel generalizing more path implicitGroup collected result with
  | zero => cases ended
  | succ fuel inductionHypothesis =>
      obtain ⟨more, rfl⟩ := Nat.exists_eq_succ_of_ne_zero (Nat.ne_of_gt (by omega : 0 < more))
      by_cases known : placeKey (tree.canonical path, implicitGroup) ∈ collected.visited
      · rw [collectConfigSourceRecursive_known known] at ended
        rw [← ended]
        exact collectConfigSourceRecursive_known known more
      · cases read : tree.readTextOrDefault (tree.canonical path) with
        | error kind =>
            rw [collectConfigSourceRecursive_unread known read] at ended
            cases ended
        | ok text =>
            rw [collectConfigSourceRecursive_fresh known read] at ended
            rw [Nat.succ_eq_add_one, collectConfigSourceRecursive_fresh known read]
            refine run_mono ?_ ended
            intro state directive next stepped
            unfold collectIncluded at stepped ⊢
            split at stepped
            · exact stepped
            · dsimp only at stepped ⊢
              split_ifs at stepped ⊢
              · exact inductionHypothesis (by omega) stepped
              · exact stepped

theorem collectConfigSources_of_le {tree : ConfigTree} {fuel more : Nat} (enough : fuel ≤ more)
    {configFile : Text} {sources : List ConfigSource}
    (ended : collectConfigSources tree fuel configFile = some sources) :
    collectConfigSources tree more configFile = some sources := by
  obtain ⟨collected, visited, same⟩ := Option.map_eq_some_iff.mp ended
  rw [collectConfigSources, collectConfigSourceRecursive_of_le enough visited, ← same]
  rfl

/-! ### The collector ends -/

section

variable {tree : ConfigTree} {configFile : Text} {files : List Text}

theorem mem_files_of_mem_includedPlaces (hasFiles : HasFiles tree configFile files)
    {place next : Text × Option Text} (leads : next ∈ includedPlaces tree place) :
    next.1 ∈ files := by
  unfold includedPlaces at leads
  split at leads
  · obtain ⟨directive, -, included⟩ := List.mem_filterMap.mp leads
    exact mem_files_of_includedPlace hasFiles included
  · cases leads

/-- The groups that the files name. -/
def groupsOf (tree : ConfigTree) (files : List Text) : List (Option Text) :=
  none :: files.flatMap fun file => (includedPlaces tree (file, none)).map Prod.snd

def keysOf (tree : ConfigTree) (files : List Text) : Finset Text :=
  (files.flatMap fun file => (groupsOf tree files).map fun group => visitKey file group).toFinset

theorem exists_visit_main (hasFiles : HasFiles tree configFile files) :
    ∃ result, visit (includedPlaces tree) placeKey ((keysOf tree files).card + 1) {}
      (mainPlace tree configFile) = some result := by
  have bounded : ∀ place : Text × Option Text,
      place.1 ∈ files ∧ place.2 ∈ groupsOf tree files → placeKey place ∈ keysOf tree files := by
    rintro ⟨path, group⟩ ⟨file, named⟩
    rw [keysOf, List.mem_toFinset, List.mem_flatMap]
    exact ⟨path, file, List.mem_map.mpr ⟨group, named, rfl⟩⟩
  have closed : ∀ place : Text × Option Text,
      place.1 ∈ files ∧ place.2 ∈ groupsOf tree files → ∀ next ∈ includedPlaces tree place,
        next.1 ∈ files ∧ next.2 ∈ groupsOf tree files := by
    rintro ⟨path, group⟩ ⟨file, -⟩ next leads
    refine ⟨mem_files_of_mem_includedPlaces hasFiles leads, ?_⟩
    apply List.mem_cons_of_mem
    rw [List.mem_flatMap]
    exact ⟨path, file, List.mem_map.mpr ⟨next, leads, rfl⟩⟩
  obtain ⟨result, ended, -⟩ := exists_visit bounded closed ((keysOf tree files).card + 1)
    (⟨hasFiles.main, List.mem_cons_self⟩ : (mainPlace tree configFile).1 ∈ files ∧ _)
    (Nat.lt_succ_of_le (Finset.card_le_card Finset.sdiff_subset))
  exact ⟨result, ended⟩

/-- With enough fuel the collector ends, and has traversed the include graph. -/
theorem exists_collectConfigSources (hasFiles : HasFiles tree configFile files) :
    ∃ bound sources result,
      (∀ fuel, bound ≤ fuel → collectConfigSources tree fuel configFile = some sources) ∧
        visit (includedPlaces tree) placeKey bound {} (mainPlace tree configFile) = some result ∧
        result.order = sources.map ConfigSource.place := by
  obtain ⟨result, ended⟩ := exists_visit_main hasFiles
  have collects := visits_collectConfigSourceRecursive hasFiles ((keysOf tree files).card + 1)
    hasFiles.main none {}
  obtain ⟨collected, collected_eq, rfl⟩ := Option.map_eq_some_iff.mp (collects.trans ended)
  refine ⟨_, collected.items, collected.visits, ?_, ended, rfl⟩
  exact fun fuel enough => collectConfigSources_of_le enough (congrArg _ collected_eq)

/-! ### When two sources have one key -/

/-- The source is reached from the main file. -/
def IsIncluded (tree : ConfigTree) (configFile : Text) : Text × Option Text → Prop :=
  Reachable (includedPlaces tree) (mainPlace tree configFile)

/-- One source is a file whose name ends in a colon, and another one the file of the name
without the colon, under the group with a colon before it. -/
def HasAmbiguousSources (tree : ConfigTree) (configFile : Text) : Prop :=
  ∃ path group, IsIncluded tree configFile (path ++ (":" : Text), group) ∧
    IsIncluded tree configFile (path, some (':' :: group.getD []))

theorem group_ne_nil {place : Text × Option Text} (included : IsIncluded tree configFile place) :
    place.2 ≠ some [] := by
  rcases included.cases_tail with rfl | ⟨parent, -, leads⟩
  · exact nofun
  · unfold includedPlaces at leads
    split at leads
    · obtain ⟨directive, -, found⟩ := List.mem_filterMap.mp leads
      obtain ⟨includedBy, named, exists'⟩ := Option.bind_eq_some_iff.mp found
      dsimp only at exists'
      split_ifs at exists'
      cases exists'
      unfold includeOf at named
      split_ifs at named
      cases named
      intro empty
      exact (parseNamedOption_token empty).1 rfl
    · cases leads

theorem colons_append (t : Text) : ("::" : Text) ++ t = ':' :: ':' :: t := rfl

/-- Of two equal keys, the one with the longer path has one colon more in its path. -/
theorem eq_or_colon_of_visitKey_eq {path rest name otherName : Text}
    (plain : ¬ ("::" : Text) <:+: path ++ rest)
    (same : ("::" : Text) ++ name = rest ++ (("::" : Text) ++ otherName)) :
    rest = [] ∧ name = otherName ∨ rest = ":" ∧ name = ':' :: otherName := by
  rw [colons_append, colons_append] at same
  match rest with
  | [] =>
      simp only [List.nil_append, List.cons.injEq, true_and] at same
      exact .inl ⟨rfl, same⟩
  | [colon] =>
      simp only [List.cons_append, List.nil_append, List.cons.injEq, true_and] at same
      exact .inr ⟨by rw [← same.1]; rfl, same.2⟩
  | first :: second :: rest =>
      simp only [List.cons_append, List.cons.injEq] at same
      rw [← same.1, ← same.2.1, ← colons_append] at plain
      exact absurd ⟨path, rest, List.append_assoc _ _ _⟩ plain

theorem placeKey_injOn_iff
    (plain : ∀ place, IsIncluded tree configFile place → ¬ ("::" : Text) <:+: place.1) :
    Set.InjOn placeKey { place | IsIncluded tree configFile place } ↔
      ¬ HasAmbiguousSources tree configFile := by
  constructor
  · rintro injective ⟨path, group, longer, shorter⟩
    have same : placeKey (path ++ (":" : Text), group) =
        placeKey (path, some (':' :: group.getD [])) := by
      simp [placeKey, visitKey]
    have paths := congrArg (fun place => place.1.length) (injective longer shorter same)
    simp at paths
  · intro unambiguous
    -- the one with the longer path is taken for the second
    have ordered : ∀ {path rest : Text} {group otherGroup : Option Text},
        IsIncluded tree configFile (path, group) →
        IsIncluded tree configFile (path ++ rest, otherGroup) →
        ("::" : Text) ++ group.getD [] = rest ++ (("::" : Text) ++ otherGroup.getD []) →
        ((path, group) : Text × Option Text) = (path ++ rest, otherGroup) := by
      intro path rest group otherGroup included otherIncluded same
      rcases eq_or_colon_of_visitKey_eq (plain _ otherIncluded) same with
        ⟨rfl, names⟩ | ⟨rfl, names⟩
      · have nonempty := group_ne_nil included
        have otherNonempty := group_ne_nil otherIncluded
        cases group <;> cases otherGroup <;> simp_all
      · cases group with
        | none => cases names
        | some name =>
            rw [Option.getD_some] at names
            rw [names] at included
            exact absurd ⟨path, otherGroup, otherIncluded, included⟩ unambiguous
    rintro ⟨path, group⟩ included ⟨otherPath, otherGroup⟩ otherIncluded same
    unfold placeKey visitKey at same
    rw [List.append_assoc, List.append_assoc] at same
    rcases List.append_eq_append_iff.mp same with ⟨rest, rfl, split⟩ | ⟨rest, rfl, split⟩
    · exact ordered included otherIncluded split
    · exact (ordered otherIncluded included split).symm

/-- The collector ends, and its sources are the reachable ones exactly when no two of them
are told apart by nothing but the place of a colon. -/
theorem collectConfigSources_exact (hasFiles : HasFiles tree configFile files)
    (plain : ∀ place, IsIncluded tree configFile place →
      ¬ ("::" : Text) <:+: place.1 ∧ ¬ ("::" : Text) <:+: place.2.getD []) :
    ∃ bound sources,
      (∀ fuel, bound ≤ fuel → collectConfigSources tree fuel configFile = some sources) ∧
        (ListsReachable tree configFile sources ↔ ¬ HasAmbiguousSources tree configFile) := by
  obtain ⟨bound, sources, result, collects, ended, order⟩ := exists_collectConfigSources hasFiles
  refine ⟨bound, sources, collects, ?_⟩
  rw [← placeKey_injOn_iff fun place included => (plain place included).1]
  rw [ListsReachable, ← order]
  exact isTraversal_iff ended

/-- A file system of texts without links. -/
def fileTree (texts : List (Text × Text)) : ConfigTree where
  canonicalize := some
  pathExists path := decide (path ∈ texts.map Prod.fst)
  readToString path :=
    match texts.lookup path with
    | some text => .ok text
    | none => .error .notFound

theorem hasFiles_fileTree {texts : List (Text × Text)} (main : configFile ∈ texts.map Prod.fst) :
    HasFiles (fileTree texts) configFile (texts.map Prod.fst) := by
  refine ⟨main, fun path pathExists => of_decide_eq_true pathExists, ?_⟩
  intro path _
  unfold ConfigTree.readTextOrDefault fileTree
  dsimp only
  cases texts.lookup path with
  | none => exact ⟨[], rfl⟩
  | some text => exact ⟨text, rfl⟩

end

/-- Two files that include each other, one of them under a group and under none. -/
theorem collectConfigSources_exact_example :
    ∃ bound sources,
      (∀ fuel, bound ≤ fuel →
        collectConfigSources (fileTree [("/r", "conf-file a -group g\nconf-file b"),
          ("/a", "conf-file r"), ("/b", "conf-file a")]) fuel "/r" = some sources) ∧
        (ListsReachable (fileTree [("/r", "conf-file a -group g\nconf-file b"),
            ("/a", "conf-file r"), ("/b", "conf-file a")]) "/r" sources ↔
          ¬ HasAmbiguousSources (fileTree [("/r", "conf-file a -group g\nconf-file b"),
            ("/a", "conf-file r"), ("/b", "conf-file a")]) "/r") := by
  refine collectConfigSources_exact (hasFiles_fileTree (by decide)) ?_
  intro place included
  have listed : place ∈ ([("/r", none), ("/a", some "g".toList), ("/b", none), ("/a", none)] :
      List (Text × Option Text)) := by
    refine Reachable.within included (by decide) ?_
    intro node member
    revert node
    decide
  clear included
  revert place
  decide

/-- Of two files whose sources have one key only the first is collected. -/
theorem not_collectConfigSources_exact :
    ¬ ∀ (tree : ConfigTree) (configFile : Text) (files : List Text),
      HasFiles tree configFile files →
      (∀ place, IsIncluded tree configFile place →
        ¬ ("::" : Text) <:+: place.1 ∧ ¬ ("::" : Text) <:+: place.2.getD []) →
      ∃ bound sources,
        (∀ fuel, bound ≤ fuel → collectConfigSources tree fuel configFile = some sources) ∧
          ListsReachable tree configFile sources := by
  intro all
  let tree := fileTree [("/r", "conf-file /a: -group b\nconf-file /a -group :b"),
    ("/a:", []), ("/a", [])]
  obtain ⟨bound, sources, collects, lists⟩ := all tree "/r" _ (hasFiles_fileTree (by decide)) <| by
    intro place included
    have listed : place ∈ ([("/r", none), ("/a:", some "b".toList), ("/a", some ":b".toList)] :
        List (Text × Option Text)) := by
      refine Reachable.within included (by decide) ?_
      intro node member
      revert node
      decide
    clear included
    revert place
    decide
  have collected : (collectConfigSources tree 3 "/r").map (·.map ConfigSource.place) =
      some ([("/r", none), ("/a:", some "b".toList)] : List (Text × Option Text)) := by decide
  obtain ⟨found, ended, places⟩ := Option.map_eq_some_iff.mp collected
  have same := (collects (max bound 3) (le_max_left _ _)).symm.trans
    (collectConfigSources_of_le (le_max_right _ _) ended)
  obtain rfl := Option.some.inj same
  have missing : (("/a", some ":b".toList) : Text × Option Text) ∈
      sources.map ConfigSource.place := by
    refine (lists.mem_iff _).mpr (Relation.ReflTransGen.single ?_)
    decide
  rw [places] at missing
  exact absurd missing (by decide)

end SmartDnsPlusUi
