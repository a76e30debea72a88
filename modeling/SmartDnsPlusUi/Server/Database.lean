import Mathlib.Data.List.AList
import SmartDnsPlusUi.Run.Transaction
import SmartDnsPlusUi.Table.Tally
import SmartDnsPlusUi.Text.Basic

/-!
# The database

The tables that the service keeps, and the transactions that write to them.
-/

namespace SmartDnsPlusUi

open Run Table

/-- A row of the query log; the ping time is kept as the bits of the `f64`. -/
structure DomainData where
  id : Nat := 0
  timestamp : Nat
  domain : Text
  domainType : Nat
  client : Text
  domainGroup : Text
  replyCode : Nat
  queryTime : Int
  pingTime : UInt64
  isBlocked : Bool
  isCached : Bool
  deriving DecidableEq

structure ClientData where
  id : Nat := 0
  hostname : Text
  clientIp : Text
  mac : Text
  lastQueryTimestamp : Nat
  deriving DecidableEq

/-- The rows of the table `config`, one for each key. -/
abbrev ConfigTable := AList fun _ : Text => Text

/-- The tables; `domainSequence` is the largest row id given to a query so far. -/
structure Database where
  domain : List DomainData := []
  domainSequence : Nat := 0
  domainHourlyCount : Rows Nat Nat := fun _ => none
  domainDailyCount : Rows Nat Nat := fun _ => none
  client : List ClientData := []
  config : ConfigTable := ∅
  statusData : Rows Text Text := fun _ => none

/-- A hash map enumerates its entries in some order. -/
structure IterationOrder (Entry : Type) where
  enumerate : List Entry → List Entry
  perm : ∀ entries, (enumerate entries).Perm entries

def IterationOrder.inserted {Entry : Type} : IterationOrder Entry where
  enumerate := id
  perm := List.Perm.refl

/-! ### Queries -/

/-- `INSERT INTO domain`: the row gets the next id, as long as there is one. -/
def insertRow (data : DomainData) : Statement Database := fun database =>
  if database.domainSequence + 1 < 2 ^ 63 then
    some { database with
      domain := database.domain ++ [{ data with id := database.domainSequence + 1 }]
      domainSequence := database.domainSequence + 1 }
  else none

def setHourlyCount (database : Database) (entry : Nat × Nat) : Database :=
  { database with domainHourlyCount := addCount database.domainHourlyCount entry }

def setDailyCount (database : Database) (entry : Nat × Nat) : Database :=
  { database with domainDailyCount := addCount database.domainDailyCount entry }

/-- The upsert of a count; its key has to fit a signed integer of the database. -/
def upsertCount (set : Database → Nat × Nat → Database) (entry : Nat × Nat) : Statement Database :=
  .guarded (entry.1 < 2 ^ 63) (set · entry)

/-- Prepare, execute once for every entry, finalize. -/
def updateCount (set : Database → Nat × Nat → Database) (counts : List (Nat × Nat)) :
    List (Statement Database) :=
  .skip :: counts.map (upsertCount set) ++ [.skip]

def updateDomainHourlyCount : List (Nat × Nat) → List (Statement Database) :=
  updateCount setHourlyCount

def updateDomainDailyCount : List (Nat × Nat) → List (Statement Database) :=
  updateCount setDailyCount

/-- The rows of a batch, with the ids that follow `sequence`. -/
def numbered (sequence : Nat) : List DomainData → List DomainData
  | [] => []
  | data :: rest => { data with id := sequence + 1 } :: numbered (sequence + 1) rest

/-- The rows of a batch are stored if there are ids for all of them. -/
theorem runStatements_insertRow (batch : List DomainData) (database : Database) :
    runStatements (batch.map insertRow) database =
      if batch = [] ∨ database.domainSequence + batch.length < 2 ^ 63 then
        some { database with
          domain := database.domain ++ numbered database.domainSequence batch
          domainSequence := database.domainSequence + batch.length }
      else none := by
  induction batch generalizing database with
  | nil => simp [runStatements, numbered]
  | cons data batch inductionHypothesis =>
      rw [List.map_cons, runStatements, insertRow, List.length_cons]
      by_cases first : database.domainSequence + 1 < 2 ^ 63
      · rw [if_pos first, Option.bind_some, inductionHypothesis]
        by_cases later : batch = []
        · subst later
          have small : database.domainSequence < 9223372036854775807 := by omega
          simp [numbered, small]
        · by_cases room : database.domainSequence + (batch.length + 1) < 2 ^ 63
          · have rest : database.domainSequence + 1 + batch.length < 2 ^ 63 := by omega
            rw [if_pos (Or.inr rest), if_pos (Or.inr room)]
            simp [numbered, Nat.add_assoc, Nat.add_comm 1]
          · have rest : ¬ database.domainSequence + 1 + batch.length < 2 ^ 63 := by omega
            rw [if_neg (not_or.mpr ⟨later, rest⟩), if_neg (not_or.mpr ⟨by simp, room⟩)]
      · rw [if_neg first, if_neg (not_or.mpr ⟨by simp, by omega⟩)]
        rfl

theorem foldl_setHourlyCount (entries : List (Nat × Nat)) (database : Database) :
    entries.foldl setHourlyCount database =
      { database with domainHourlyCount := addAll database.domainHourlyCount entries } := by
  induction entries generalizing database with
  | nil => rfl
  | cons entry entries inductionHypothesis => exact inductionHypothesis _

theorem foldl_setDailyCount (entries : List (Nat × Nat)) (database : Database) :
    entries.foldl setDailyCount database =
      { database with domainDailyCount := addAll database.domainDailyCount entries } := by
  induction entries generalizing database with
  | nil => rfl
  | cons entry entries inductionHypothesis => exact inductionHypothesis _

theorem runStatements_updateCount (set : Database → Nat × Nat → Database)
    (counts : List (Nat × Nat)) (database : Database) :
    runStatements (updateCount set counts) database =
      if ∀ entry ∈ counts, entry.1 < 2 ^ 63 then some (counts.foldl set database) else none := by
  have upserts := runStatements_guarded (fun entry : Nat × Nat => entry.1 < 2 ^ 63) set counts
    database
  rw [updateCount, List.cons_append, runStatements_skip, runStatements_append]
  exact (congrArg (Option.bind · _) upserts).trans (by split <;> rfl)

/-! ### Clients -/

/-- `(SELECT MAX(rowid) FROM client) + 1`, or the first id of an empty table. -/
def nextClientId (rows : List ClientData) : Nat := (rows.map (·.id)).foldr max 0 + 1

def ClientData.sameClient (data other : ClientData) : Bool :=
  data.clientIp = other.clientIp && data.mac = other.mac

/-- Insert the row, or update the time of the row with the same address. -/
def putClient (rows : List ClientData) (data : ClientData) : List ClientData :=
  if rows.any data.sameClient then
    rows.map fun row =>
      if data.sameClient row then { row with lastQueryTimestamp := data.lastQueryTimestamp }
      else row
  else rows ++ [{ data with id := nextClientId rows }]

def setClient (database : Database) (data : ClientData) : Database :=
  { database with client := putClient database.client data }

/-- The time has to fit a signed integer of the database. -/
def upsertClient (data : ClientData) : Statement Database :=
  .guarded (data.lastQueryTimestamp < 2 ^ 63) (setClient · data)

/-- `insert_client`: the database afterwards, and whether it succeeded. -/
def insertClient (fault : Option Nat) (clientData : List ClientData) (database : Database) :
    Database × Bool :=
  transact fault ([.skip, .skip] ++ clientData.map upsertClient ++ [.skip, .skip]) database

end SmartDnsPlusUi
