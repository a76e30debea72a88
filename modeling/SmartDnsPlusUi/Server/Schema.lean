import SmartDnsPlusUi.Run.Autocommit

/-!
# Opening the database

A file that opens is taken as it is.  Only a file that does not open is created, and its
tables with it, one statement after the other; when one of them fails the file is removed.
-/

namespace SmartDnsPlusUi

open Run

inductive SchemaTable where
  | domain
  | domainHourlyCount
  | domainDailyCount
  | topDomainList
  | topClientList
  | client
  | config
  | statusData
  deriving DecidableEq

inductive SchemaIndex where
  | domainTimestamp
  | domainClient
  | clientLastQueryTimestamp
  deriving DecidableEq

def SchemaIndex.table : SchemaIndex → SchemaTable
  | domainTimestamp => .domain
  | domainClient => .domain
  | clientLastQueryTimestamp => .client

/-- A database file: its tables and indexes, and the rows of `schema_version` if there is that
table. -/
structure DatabaseFile where
  tables : List SchemaTable := []
  indexes : List SchemaIndex := []
  schemaVersion : Option (List Int) := none

namespace DatabaseFile

def versions (file : DatabaseFile) : List Int := file.schemaVersion.getD []

def addTable (table : SchemaTable) (file : DatabaseFile) : DatabaseFile :=
  { file with tables := if table ∈ file.tables then file.tables else file.tables ++ [table] }

def addIndex (index : SchemaIndex) (file : DatabaseFile) : DatabaseFile :=
  { file with indexes := if index ∈ file.indexes then file.indexes else file.indexes ++ [index] }

def withVersions (versions : List Int) (file : DatabaseFile) : DatabaseFile :=
  { file with schemaVersion := some versions }

@[simp] theorem tables_withVersions (versions : List Int) (file : DatabaseFile) :
    (file.withVersions versions).tables = file.tables := rfl

@[simp] theorem versions_withVersions (versions : List Int) (file : DatabaseFile) :
    (file.withVersions versions).versions = versions := rfl

@[simp] theorem mem_tables_addTable {table other : SchemaTable} {file : DatabaseFile} :
    other ∈ (file.addTable table).tables ↔ other ∈ file.tables ∨ other = table := by
  unfold addTable
  dsimp only
  split_ifs with present
  · exact ⟨.inl, fun either => either.elim id fun same => same ▸ present⟩
  · rw [List.mem_append, List.mem_singleton]

@[simp] theorem tables_addIndex (index : SchemaIndex) (file : DatabaseFile) :
    (file.addIndex index).tables = file.tables := rfl

@[simp] theorem schemaVersion_addTable (table : SchemaTable) (file : DatabaseFile) :
    (file.addTable table).schemaVersion = file.schemaVersion := rfl

@[simp] theorem schemaVersion_addIndex (index : SchemaIndex) (file : DatabaseFile) :
    (file.addIndex index).schemaVersion = file.schemaVersion := rfl

/-- Every table is there, and a version that is at least the own one is recorded. -/
structure Usable (version : Int) (file : DatabaseFile) : Prop where
  tables : ∀ table, table ∈ file.tables
  version : ∃ recorded ∈ file.versions, version ≤ recorded

end DatabaseFile

/-! ### The statements -/

/-- `CREATE TABLE IF NOT EXISTS`. -/
def createTableIfNotExists (table : SchemaTable) : Statement DatabaseFile :=
  fun file => some (file.addTable table)

/-- `CREATE INDEX IF NOT EXISTS`, on a table that has to be there. -/
def createIndexIfNotExists (index : SchemaIndex) : Statement DatabaseFile := fun file =>
  if index.table ∈ file.tables then some (file.addIndex index) else none

def createSchemaVersion : Statement DatabaseFile :=
  fun file => some (file.withVersions file.versions)

/-- `INSERT INTO schema_version`; the version is the key of its row. -/
def insertVersion (version : Int) : Statement DatabaseFile := fun file =>
  match file.schemaVersion with
  | none => none
  | some versions =>
      if version ∈ versions then none
      else some (file.withVersions (versions ++ [version]))

/-- `create_table`. -/
def createTable (version : Int) : List (Statement DatabaseFile) :=
  [createTableIfNotExists .domain,
    createIndexIfNotExists .domainTimestamp,
    createIndexIfNotExists .domainClient,
    createTableIfNotExists .domainHourlyCount,
    createTableIfNotExists .domainDailyCount,
    createTableIfNotExists .topDomainList,
    createTableIfNotExists .topClientList,
    createTableIfNotExists .client,
    createIndexIfNotExists .clientLastQueryTimestamp,
    createTableIfNotExists .config,
    createTableIfNotExists .statusData,
    insertVersion version]

/-- What a call of `open` meets: which of its steps fail; `fault` is the place of the
statement of the initialisation that fails. -/
structure OpenCall where
  openFails : Bool := false
  createFails : Bool := false
  fault : Option Nat := none
  versionFails : Bool := false
  removeFails : Bool := false
  pragmaFails : Bool := false

/-- The newest version that is recorded, or the own one if the query finds none. -/
def currentVersion (versionFails : Bool) (version : Int) (file : DatabaseFile) : Int :=
  if versionFails then version else file.versions.max?.getD version

/-- `init_db`; a migration is refused. -/
def initDb (call : OpenCall) (version : Int) (file : DatabaseFile) : DatabaseFile × Bool :=
  match autocommit call.fault [createSchemaVersion] file with
  | (file, false) => (file, false)
  | (file, true) =>
      if version ≤ currentVersion call.versionFails version file then
        autocommit (call.fault.map (· - 1)) (createTable version) file
      else (file, false)

/-- The file is opened again, created if it is missing, and initialised; it is removed when
that fails. -/
def createDb (call : OpenCall) (version : Int) (file : Option DatabaseFile) :
    Option DatabaseFile × Bool :=
  if call.createFails then (file, false)
  else
    match initDb call version (file.getD {}) with
    | (created, true) => (some created, true)
    | (failed, false) => if call.removeFails then (some failed, false) else (none, false)

/-- `DB::open`; the pragmas at its end change no table. -/
def openDb (call : OpenCall) (version : Int) (file : Option DatabaseFile) :
    Option DatabaseFile × Bool :=
  let opened := if file.isSome ∧ call.openFails = false then (file, true)
    else createDb call version file
  (opened.1, opened.2 && !call.pragmaFails)

/-- Success leaves a usable file, and an error no file less. -/
structure OpensUsable (version : Int) (file : Option DatabaseFile)
    (outcome : Option DatabaseFile × Bool) : Prop where
  usable : outcome.2 = true → ∃ opened, outcome.1 = some opened ∧ opened.Usable version
  kept : outcome.2 = false → file.isSome → outcome.1.isSome

/-- No statement of the initialisation fails: the own version is not recorded, and no newest
version is older. -/
structure InitGoesThrough (call : OpenCall) (version : Int) (file : DatabaseFile) : Prop where
  reaches : ∀ n ∈ call.fault, 13 ≤ n
  fresh : version ∉ file.versions
  notOlder : version ≤ currentVersion call.versionFails version file

/-- A file that opens is usable or a pragma fails; for a file that does not open, the second
attempt fails too, or it is not removed, or it is initialised. -/
def IsSafelyOpened (call : OpenCall) (version : Int) : Option DatabaseFile → Prop
  | none => True
  | some file =>
      if call.openFails then
        call.createFails = true ∨ call.removeFails = true ∨ InitGoesThrough call version file
      else call.pragmaFails = true ∨ file.Usable version

/-! ### The initialisation -/

/-- The file with all tables and indexes. -/
def DatabaseFile.completed (file : DatabaseFile) : DatabaseFile :=
  file |>.addTable .domain |>.addIndex .domainTimestamp |>.addIndex .domainClient
    |>.addTable .domainHourlyCount |>.addTable .domainDailyCount |>.addTable .topDomainList
    |>.addTable .topClientList |>.addTable .client |>.addIndex .clientLastQueryTimestamp
    |>.addTable .config |>.addTable .statusData

theorem DatabaseFile.mem_tables_completed (table : SchemaTable) (file : DatabaseFile) :
    table ∈ file.completed.tables := by
  cases table <;> simp [completed]

/-- Only the row of the version can be refused. -/
theorem runStatements_createTable (version : Int) (file : DatabaseFile) :
    runStatements (createTable version) file = insertVersion version file.completed := by
  simp [createTable, runStatements, createTableIfNotExists, createIndexIfNotExists,
    SchemaIndex.table, DatabaseFile.completed]

theorem insertVersion_eq_some_iff {version : Int} {file created : DatabaseFile}
    {versions : List Int} (recorded : file.schemaVersion = some versions) :
    insertVersion version file = some created ↔
      version ∉ versions ∧ created = file.withVersions (versions ++ [version]) := by
  unfold insertVersion
  rw [recorded]
  dsimp only
  split_ifs with present <;> simp [present, eq_comm]

/-- When `init_db` goes through, and what it leaves then. -/
theorem initDb_eq_true_iff {call : OpenCall} {version : Int} {file created : DatabaseFile} :
    initDb call version file = (created, true) ↔
      InitGoesThrough call version file ∧
        created = file.completed.withVersions (file.versions ++ [version]) := by
  by_cases atOnce : call.fault = some 0
  · have failed : initDb call version file = (file, false) := by
      unfold initDb
      rw [atOnce, autocommit]
    rw [failed]
    refine iff_of_false (by simp) fun through => ?_
    have reaches := through.1.reaches 0 atOnce
    omega
  · have first : ∀ n ∈ call.fault, [createSchemaVersion].length ≤ n := by
      rintro n fault
      rw [List.length_singleton]
      refine Nat.one_le_iff_ne_zero.mpr fun zero => ?_
      rw [zero] at fault
      exact atOnce fault
    have started := autocommit_eq_true_iff.mpr
      ⟨(rfl : runStatements [createSchemaVersion] file =
        some (file.withVersions file.versions)), first⟩
    have inserts := @insertVersion_eq_some_iff version
      (file.withVersions file.versions).completed created file.versions rfl
    have later : (∀ n ∈ call.fault.map (· - 1), (createTable version).length ≤ n) ↔
        ∀ n ∈ call.fault, 13 ≤ n := by
      cases fault : call.fault with
      | none => simp
      | some n =>
          rw [fault] at first
          have positive := first n rfl
          simp [createTable] at positive ⊢
          omega
    unfold initDb
    rw [started]
    dsimp only
    have same : currentVersion call.versionFails version (file.withVersions file.versions) =
      currentVersion call.versionFails version file := rfl
    rw [same]
    split_ifs with notOlder
    · rw [autocommit_eq_true_iff, runStatements_createTable, inserts, later]
      constructor
      · rintro ⟨⟨fresh, rfl⟩, reaches⟩
        exact ⟨⟨reaches, fresh, notOlder⟩, rfl⟩
      · rintro ⟨through, rfl⟩
        exact ⟨⟨through.fresh, rfl⟩, through.reaches⟩
    · refine iff_of_false (by simp) fun through => notOlder through.1.notOlder

/-- An initialised file is usable. -/
theorem usable_initDb {call : OpenCall} {version : Int} {file created : DatabaseFile}
    (through : initDb call version file = (created, true)) : created.Usable version := by
  obtain ⟨-, rfl⟩ := initDb_eq_true_iff.mp through
  refine ⟨fun table => ?_, version, ?_, Int.le_refl version⟩
  · rw [DatabaseFile.tables_withVersions]
    exact DatabaseFile.mem_tables_completed table file
  · rw [DatabaseFile.versions_withVersions]
    exact List.mem_append_right _ (List.mem_singleton_self _)

/-! ### The outcome -/

variable {call : OpenCall} {version : Int} {file : DatabaseFile}

theorem opensUsable_some {before : Option DatabaseFile} {ok : Bool}
    (usable : ok = true → file.Usable version) : OpensUsable version before (some file, ok) :=
  ⟨fun succeeded => ⟨file, rfl, usable succeeded⟩, fun _ _ => rfl⟩

/-- The file is initialised, or the call fails and the file is there unless it is removed. -/
theorem createDb_cases (call : OpenCall) (version : Int) (file : Option DatabaseFile) :
    (call.createFails = true ∧ createDb call version file = (file, false)) ∨
      (call.createFails = false ∧ ∃ created,
        initDb call version (file.getD {}) = (created, true) ∧
          createDb call version file = (some created, true)) ∨
      (call.createFails = false ∧ ∃ failed,
        initDb call version (file.getD {}) = (failed, false) ∧
          createDb call version file =
            (if call.removeFails then some failed else none, false)) := by
  unfold createDb
  cases create : call.createFails with
  | true => exact .inl ⟨rfl, rfl⟩
  | false =>
      right
      rcases initDb call version (file.getD {}) with ⟨left, through⟩
      cases through with
      | true => exact .inl ⟨rfl, left, rfl, rfl⟩
      | false =>
          refine .inr ⟨rfl, left, rfl, ?_⟩
          cases call.removeFails <;> rfl

theorem opensUsable_createDb_iff :
    OpensUsable version (some file)
        ((createDb call version (some file)).1,
          (createDb call version (some file)).2 && !call.pragmaFails) ↔
      call.createFails = true ∨ call.removeFails = true ∨ InitGoesThrough call version file := by
  rcases createDb_cases call version (some file) with
    ⟨create, outcome⟩ | ⟨-, created, through, outcome⟩ | ⟨create, failed, through, outcome⟩
  · rw [outcome]
    exact iff_of_true (opensUsable_some nofun) (.inl create)
  · rw [outcome]
    exact iff_of_true (opensUsable_some fun _ => usable_initDb through)
      (.inr (.inr (initDb_eq_true_iff.mp through).1))
  · rw [outcome]
    have stopped : ¬ InitGoesThrough call version file := fun goes => by
      have whole : initDb call version file = _ := initDb_eq_true_iff.mpr ⟨goes, rfl⟩
      rw [Option.getD_some, whole] at through
      exact Bool.noConfusion (congrArg Prod.snd through)
    cases removed : call.removeFails with
    | true =>
        refine iff_of_true ?_ (.inr (.inl rfl))
        rw [if_pos rfl]
        exact opensUsable_some nofun
    | false =>
        refine iff_of_false (fun opens => ?_) (by simp [create, stopped])
        exact absurd (opens.kept rfl rfl) (by simp)

/-- A file that was not there may be removed. -/
theorem opensUsable_createDb_none :
    OpensUsable version none
      ((createDb call version none).1, (createDb call version none).2 && !call.pragmaFails) := by
  rcases createDb_cases call version none with
    ⟨-, outcome⟩ | ⟨-, created, through, outcome⟩ | ⟨-, failed, -, outcome⟩
  · rw [outcome]
    exact ⟨nofun, fun _ existed => absurd existed (by simp)⟩
  · rw [outcome]
    exact opensUsable_some fun _ => usable_initDb through
  · rw [outcome]
    exact ⟨nofun, fun _ existed => absurd existed (by simp)⟩

/-- Exactly when `open` leaves a usable schema and removes no file. -/
theorem opensUsable_iff (call : OpenCall) (version : Int) (file : Option DatabaseFile) :
    OpensUsable version file (openDb call version file) ↔ IsSafelyOpened call version file := by
  cases file with
  | none => exact iff_of_true opensUsable_createDb_none trivial
  | some file =>
      unfold openDb IsSafelyOpened
      cases fails : call.openFails with
      | true =>
          simp only [Option.isSome_some, Bool.true_eq_false, and_false, if_false, if_true]
          exact opensUsable_createDb_iff
      | false =>
          simp only [Option.isSome_some, and_self, Bool.false_eq_true, if_false, if_true]
          cases pragma : call.pragmaFails with
          | true => exact iff_of_true (opensUsable_some nofun) (.inl rfl)
          | false =>
              rw [or_iff_right Bool.false_ne_true]
              refine ⟨fun opens => ?_, fun usable => opensUsable_some fun _ => usable⟩
              obtain ⟨opened, same, usable⟩ := opens.usable rfl
              cases same
              exact usable

/-- The version that `DB::new` sets. -/
def dbVersion : Int := 10000

/-- An empty file is opened, and no table is created. -/
theorem not_opensUsable :
    ¬ ∀ (call : OpenCall) (version : Int) (file : Option DatabaseFile),
      OpensUsable version file (openDb call version file) := by
  intro opens
  obtain ⟨opened, same, usable⟩ := (opens {} dbVersion (some {})).usable rfl
  cases same
  exact absurd (usable.tables .domain) List.not_mem_nil

end SmartDnsPlusUi
