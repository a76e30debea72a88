import SmartDnsPlusUi.Config.RuleAssets
import SmartDnsPlusUi.Config.SaveFiles
import SmartDnsPlusUi.Run.Basic

/-!
# Collecting the configuration sources

The main file and the files it includes, directly or not, become sources in the order in
which they are met.  A file is visited once for each group that it is included under.
-/

namespace SmartDnsPlusUi

open Files Run Text

/-- What the collector asks the system about paths and files. -/
structure ConfigTree where
  canonicalize : Text → Option Text
  pathExists : Text → Bool
  readToString : Text → Except ErrorKind Text

def ConfigTree.readTextOrDefault (tree : ConfigTree) (path : Text) : Except ErrorKind Text :=
  match tree.readToString path with
  | .ok text => .ok text
  | .error .notFound => .ok []
  | .error kind => .error kind

structure Collected where
  visited : List Text := []
  items : List ConfigSource := []
  deriving DecidableEq

def visitKey (canonical : Text) (implicitGroup : Option Text) : Text :=
  canonical ++ ("::" : Text) ++ implicitGroup.getD []

def resolveIncludePath (baseFile includeValue : Text) : Text :=
  if includeValue.head? = some '/' then includeValue
  else pathJoin (parentOrHere baseFile) includeValue

/-- The file and the group of a directive that includes a file. -/
def includeOf (directive : Directive) : Option (Text × Option Text) :=
  if directive.key ≠ "conf-file" ∨ directive.value = [] then none
  else some (trim ((splitWhitespace directive.value).head?.getD []),
    parseNamedOption directive.value "-group")

def Collected.push (collected : Collected) (source : ConfigSource) : Collected where
  visited := visitKey source.path source.implicitGroup :: collected.visited
  items := collected.items ++ [source]

/-- `none` when a file cannot be read, or when the fuel is spent. -/
def collectConfigSourceRecursive (tree : ConfigTree) :
    Nat → Text → Option Text → Collected → Option Collected
  | 0, _, _, _ => none
  | fuel + 1, path, implicitGroup, collected =>
      let canonical := (tree.canonicalize path).getD path
      if visitKey canonical implicitGroup ∈ collected.visited then some collected
      else
        match tree.readTextOrDefault canonical with
        | .error _ => none
        | .ok text =>
            run
              (fun collected directive =>
                match includeOf directive with
                | none => some collected
                | some (includeFile, includeGroup) =>
                    let includePath := resolveIncludePath canonical includeFile
                    if tree.pathExists includePath then
                      collectConfigSourceRecursive tree fuel includePath includeGroup collected
                    else some collected)
              (collected.push ⟨canonical, text, implicitGroup⟩) (directives text)

def collectConfigSources (tree : ConfigTree) (fuel : Nat) (configFile : Text) :
    Option (List ConfigSource) :=
  (collectConfigSourceRecursive tree fuel configFile none {}).map Collected.items

/-! ### What is collected -/

/-- The directive includes a file under a group. -/
def IncludesGroup (directive : Directive) : Prop :=
  directive.key = "conf-file" ∧ (parseNamedOption directive.value "-group").isSome = true

instance (directive : Directive) : Decidable (IncludesGroup directive) :=
  inferInstanceAs (Decidable (_ ∧ _))

/-- A file that is no group itself includes another one under a group. -/
def DeclaresGroup (items : List ConfigSource) : Prop :=
  ∃ source ∈ items, source.implicitGroup = none ∧
    ∃ directive ∈ directives source.text, IncludesGroup directive

/-- Every source holds the text of its path, no file comes twice with one group, and a group
comes from a directive. -/
structure IsCollected (tree : ConfigTree) (collected : Collected) : Prop where
  text : ∀ source ∈ collected.items, tree.readTextOrDefault source.path = .ok source.text
  visited : ∀ source ∈ collected.items,
    visitKey source.path source.implicitGroup ∈ collected.visited
  distinct : collected.items.Pairwise fun one other =>
    visitKey one.path one.implicitGroup ≠ visitKey other.path other.implicitGroup
  declared : ∀ source ∈ collected.items, source.implicitGroup ≠ none →
    DeclaresGroup collected.items

theorem DeclaresGroup.mono {items more : List ConfigSource} (longer : items <+: more)
    (declares : DeclaresGroup items) : DeclaresGroup more := by
  obtain ⟨source, member, rest⟩ := declares
  exact ⟨source, longer.subset member, rest⟩

theorem includesGroup_of_includeOf {directive : Directive} {includeFile groupName : Text}
    (found : includeOf directive = some (includeFile, some groupName)) :
    IncludesGroup directive := by
  unfold includeOf at found
  split at found
  · cases found
  · rename_i isInclude
    rw [not_or, not_not] at isInclude
    have named := congrArg Prod.snd (Option.some.inj found)
    dsimp only at named
    exact ⟨isInclude.1, by rw [named]; rfl⟩

theorem isCollected_push {tree : ConfigTree} {collected : Collected} {source : ConfigSource}
    (isCollected : IsCollected tree collected)
    (fresh : visitKey source.path source.implicitGroup ∉ collected.visited)
    (text : tree.readTextOrDefault source.path = .ok source.text)
    (declares : source.implicitGroup = none ∨ DeclaresGroup collected.items) :
    IsCollected tree (collected.push source) := by
  have longer : collected.items <+: collected.items ++ [source] := List.prefix_append _ _
  refine ⟨?_, ?_, ?_, ?_⟩
  · intro item member
    rcases List.mem_append.mp member with old | new
    · exact isCollected.text item old
    · rwa [List.mem_singleton.mp new]
  · intro item member
    rcases List.mem_append.mp member with old | new
    · exact List.mem_cons_of_mem _ (isCollected.visited item old)
    · rw [List.mem_singleton.mp new]
      exact List.mem_cons_self
  · refine List.pairwise_append.mpr ⟨isCollected.distinct, List.pairwise_singleton _ _, ?_⟩
    intro one old other new same
    rw [List.mem_singleton.mp new] at same
    exact fresh (same ▸ isCollected.visited one old)
  · intro item member group
    rcases List.mem_append.mp member with old | new
    · exact (isCollected.declared item old group).mono longer
    · rw [List.mem_singleton.mp new] at group
      exact (declares.resolve_left group).mono longer

/-- A visit adds sources, and a group is only visited once a directive includes it. -/
theorem isCollected_recursive {tree : ConfigTree} (fuel : Nat) {path : Text}
    {implicitGroup : Option Text} {collected result : Collected}
    (isCollected : IsCollected tree collected)
    (declares : implicitGroup = none ∨ DeclaresGroup collected.items)
    (visits : collectConfigSourceRecursive tree fuel path implicitGroup collected = some result) :
    IsCollected tree result ∧ collected.items <+: result.items := by
  induction fuel generalizing path implicitGroup collected result with
  | zero => cases visits
  | succ fuel inductionHypothesis =>
      rw [collectConfigSourceRecursive] at visits
      dsimp only at visits
      generalize (tree.canonicalize path).getD path = canonical at visits
      by_cases known : visitKey canonical implicitGroup ∈ collected.visited
      · rw [if_pos known] at visits
        cases visits
        exact ⟨isCollected, List.prefix_refl _⟩
      rw [if_neg known] at visits
      cases read : tree.readTextOrDefault canonical with
      | error kind =>
          rw [read] at visits
          cases visits
      | ok text =>
          rw [read] at visits
          dsimp only at visits
          have pushed : IsCollected tree (collected.push ⟨canonical, text, implicitGroup⟩) :=
            isCollected_push isCollected known read declares
          have longer : collected.items <+:
              (collected.push ⟨canonical, text, implicitGroup⟩).items := List.prefix_append _ _
          have own : (⟨canonical, text, implicitGroup⟩ : ConfigSource) ∈
              (collected.push ⟨canonical, text, implicitGroup⟩).items := by simp [Collected.push]
          generalize collected.push ⟨canonical, text, implicitGroup⟩ = start
            at visits pushed longer own
          apply And.imp_right longer.trans
          refine @invariant_of_throughout _ _ _ (fun _ directive => directive ∈ directives text)
            (fun state => IsCollected tree state ∧ start.items <+: state.items) ?_ _ _ _
            ⟨pushed, List.prefix_refl _⟩
            (throughout_of_forall_mem (fun _ member => member) start) visits
          rintro state directive next ⟨kept, grown⟩ member visited
          cases found : includeOf directive with
          | none =>
              rw [found] at visited
              cases visited
              exact ⟨kept, grown⟩
          | some included =>
              obtain ⟨includeFile, includeGroup⟩ := included
              rw [found] at visited
              dsimp only at visited
              split at visited
              · -- a group that this directive names is declared by it, or was before
                have declared : includeGroup = none ∨ DeclaresGroup state.items := by
                  cases includeGroup with
                  | none => exact .inl rfl
                  | some groupName =>
                      right
                      cases implicitGroup with
                      | none =>
                          exact ⟨_, grown.subset own, rfl, directive, member,
                            includesGroup_of_includeOf found⟩
                      | some outer =>
                          exact (declares.resolve_left nofun).mono (longer.trans grown)
                exact And.imp_right grown.trans (inductionHypothesis kept declared visited)
              · cases visited
                exact ⟨kept, grown⟩

theorem isCollected_collectConfigSources {tree : ConfigTree} {fuel : Nat} {configFile : Text}
    {sources : List ConfigSource}
    (collects : collectConfigSources tree fuel configFile = some sources) :
    ∃ collected, IsCollected tree collected ∧ collected.items = sources := by
  obtain ⟨collected, visits, same⟩ := Option.map_eq_some_iff.mp collects
  have start : IsCollected tree {} := ⟨nofun, nofun, .nil, nofun⟩
  exact ⟨collected, (isCollected_recursive fuel start (.inl rfl) visits).1, same⟩

end SmartDnsPlusUi
