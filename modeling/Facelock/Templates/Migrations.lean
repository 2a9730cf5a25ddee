import Facelock.Lib.Transition
import Mathlib.Data.List.Infix
import Mathlib.Tactic.IntervalCases

/-!
# Migrations of the template database

`run_migrations` of `crates/facelock-store/src/migrations.rs`, which every
open of the database runs (`FaceStore::init` of `db.rs`).  A statement is
atomic and durable.  The statements of one `execute_batch` are separate
transactions, so a process may be killed between any two of them, and the
statements of several processes interleave.

A migration adds its column and then records its version.  A process that
is killed in between leaves the column without the version, and then every
later open adds the column again and fails
(`killed_between_column_and_version`).  `Aligned` says that this has not
happened: the column that the next migration adds is not there, and at
version 2 the table `face_embeddings` is.  A later open succeeds exactly
from an aligned database (`laterOpen_iff`).  No run loses a model, and no
run that begins at version 2 or later loses an embedding.
-/

namespace Facelock.Templates

open Facelock.Transition List

section Tables

variable {α β : Type}

/-! ## The database -/

/-- The table `face_models`, with the columns that migrations add. -/
structure FaceModelsTable (α : Type) where
  rows : List α
  embedderModel : Bool := false
  deviceId : Bool := false
  keyId : Bool := false

structure FaceEmbeddingsTable (β : Type) where
  rows : List β
  sealed : Bool := false

structure Database (α β : Type) where
  schemaVersion : Option (List Nat)
  faceModels : Option (FaceModelsTable α)
  faceEmbeddings : Option (FaceEmbeddingsTable β)
  rateLimit : Bool

/-- `SELECT COALESCE(MAX(version), 0) FROM schema_version`. -/
def Database.version (db : Database α β) : Nat :=
  (db.schemaVersion.getD []).foldr max 0

/-- A statement of a migration. -/
inductive Statement where
  | createSchemaVersion
  | createFaceModels
  | createFaceModelsIndex
  | dropFaceEmbeddings
  | createFaceEmbeddings
  | createFaceEmbeddingsIndex
  | addSealed
  | createRateLimit
  | createRateLimitIndex
  | addEmbedderModel
  | addDeviceId
  | addKeyId
  | insertVersion (version : Nat)
  deriving DecidableEq, Repr

/-- A column added to `face_models`. -/
def addModelColumn (db : Database α β) (name : String) (has : FaceModelsTable α → Bool)
    (add : FaceModelsTable α → FaceModelsTable α) : Except String (Database α β) :=
  match db.faceModels with
  | none => .error "no such table: face_models"
  | some table =>
    if has table then .error ("duplicate column name: " ++ name)
    else .ok { db with faceModels := some (add table) }

def Statement.exec : Statement → Database α β → Except String (Database α β)
  | .createSchemaVersion, db =>
    .ok { db with schemaVersion := some (db.schemaVersion.getD []) }
  | .createFaceModels, db =>
    .ok { db with faceModels := some (db.faceModels.getD { rows := [] }) }
  | .createFaceModelsIndex, db =>
    if db.faceModels.isSome then .ok db else .error "no such table: main.face_models"
  | .dropFaceEmbeddings, db => .ok { db with faceEmbeddings := none }
  | .createFaceEmbeddings, db =>
    match db.faceEmbeddings with
    | none => .ok { db with faceEmbeddings := some { rows := [] } }
    | some _ => .error "table face_embeddings already exists"
  | .createFaceEmbeddingsIndex, db =>
    if db.faceEmbeddings.isSome then .ok db else .error "no such table: main.face_embeddings"
  | .addSealed, db =>
    match db.faceEmbeddings with
    | none => .error "no such table: face_embeddings"
    | some table =>
      if table.sealed then .error "duplicate column name: sealed"
      else .ok { db with faceEmbeddings := some { table with sealed := true } }
  | .createRateLimit, db => .ok { db with rateLimit := true }
  | .createRateLimitIndex, db =>
    if db.rateLimit then .ok db else .error "no such table: main.rate_limit"
  | .addEmbedderModel, db =>
    addModelColumn db "embedder_model" FaceModelsTable.embedderModel
      fun table => { table with embedderModel := true }
  | .addDeviceId, db =>
    addModelColumn db "device_id" FaceModelsTable.deviceId
      fun table => { table with deviceId := true }
  | .addKeyId, db =>
    addModelColumn db "key_id" FaceModelsTable.keyId fun table => { table with keyId := true }
  | .insertVersion version, db =>
    match db.schemaVersion with
    | none => .error "no such table: schema_version"
    | some versions =>
      .ok { db with schemaVersion := some (version :: versions.filter (· ≠ version)) }

/-! ## An open -/

/-- The batch in front of the version check. -/
def bootstrap : List Statement :=
  [.createSchemaVersion, .createFaceModels, .createFaceModelsIndex]

/-- The batch of each version. -/
def migration : Nat → List Statement
  | 2 => [.dropFaceEmbeddings, .createFaceEmbeddings, .createFaceEmbeddingsIndex, .insertVersion 2]
  | 3 => [.addSealed, .insertVersion 3]
  | 4 => [.createRateLimit, .createRateLimitIndex, .insertVersion 4]
  | 5 => [.addEmbedderModel, .insertVersion 5]
  | 6 => [.addDeviceId, .insertVersion 6]
  | 7 => [.addKeyId, .insertVersion 7]
  | _ => []

/-- The batches that a process which has read `version` runs. -/
def migrationsFrom (version : Nat) : List Statement :=
  ([2, 3, 4, 5, 6, 7].filter fun target => version < target).flatMap migration

/-- Statements one after the other, up to the first error. -/
def execAll : List Statement → Database α β → Except String (Database α β)
  | [], db => .ok db
  | statement :: rest, db =>
    match statement.exec db with
    | .ok next => execAll rest next
    | .error e => .error e

/-- `run_migrations` without any other process. -/
def runMigrations (db : Database α β) : Except String (Database α β) :=
  match execAll bootstrap db with
  | .ok next => execAll (migrationsFrom next.version) next
  | .error e => .error e

/-! ## Processes -/

/-- Where an open stands. -/
inductive Opener where
  | bootstrapping (rest : List Statement)
  | migrating (rest : List Statement)
  | failed (detail : String)
  deriving DecidableEq, Repr

structure OpenSystem (α β : Type) where
  db : Database α β
  openers : List Opener

/-- A new open, the next statement of one, or one that gives up because the
database is busy. -/
inductive OpenEvent where
  | start
  | act (opener : Nat)
  | busy (opener : Nat) (detail : String)
  deriving DecidableEq, Repr

/-- The system after a statement of the open `i`, which goes on with `rest`. -/
def OpenSystem.exec (system : OpenSystem α β) (i : Nat) (statement : Statement) (rest : Opener) :
    OpenSystem α β :=
  match statement.exec system.db with
  | .ok db => { db, openers := system.openers.set i rest }
  | .error e => { system with openers := system.openers.set i (.failed e) }

def openerStep (system : OpenSystem α β) (i : Nat) : Opener → Option (OpenSystem α β)
  | .bootstrapping (statement :: rest) => some (system.exec i statement (.bootstrapping rest))
  | .bootstrapping [] =>
    some { system with
      openers := system.openers.set i (.migrating (migrationsFrom system.db.version)) }
  | .migrating (statement :: rest) => some (system.exec i statement (.migrating rest))
  | .migrating [] | .failed _ => none

def openStep (event : OpenEvent) (system : OpenSystem α β) : Option (OpenSystem α β) :=
  match event with
  | .start => some { system with openers := system.openers ++ [.bootstrapping bootstrap] }
  | .act i => (system.openers[i]?).bind (openerStep system i)
  | .busy i detail =>
    (system.openers[i]?).map fun _ =>
      { system with openers := system.openers.set i (.failed detail) }

/-! ## What a statement keeps -/

variable {db next final : Database α β} {statement : Statement} {rest : List Statement}

/-- The version that is recorded before a statement runs. -/
def Statement.floor : Statement → Nat
  | .addSealed | .insertVersion 3 => 2
  | .createRateLimit | .createRateLimitIndex | .insertVersion 4 => 3
  | .addEmbedderModel | .insertVersion 5 => 4
  | .addDeviceId | .insertVersion 6 => 5
  | .addKeyId | .insertVersion 7 => 6
  | _ => 0

def Statement.records : Statement → Nat
  | .insertVersion version => version
  | _ => 0

/-- Statements that run in an order in which each one finds its version
recorded, and that record no version above 7. -/
def Ready : List Statement → Nat → Prop
  | [], _ => True
  | statement :: rest, version =>
    statement.floor ≤ version ∧ statement.records ≤ 7 ∧
      Ready rest (max version statement.records)

theorem Ready.mono {version later} (h : Ready rest version) (hle : version ≤ later) :
    Ready rest later := by
  induction rest generalizing version later with
  | nil => trivial
  | cons statement rest ih =>
    exact ⟨h.1.trans hle, h.2.1, ih h.2.2 (max_le_max hle le_rfl)⟩

theorem migrationsFrom_of_le {version} (h : 7 ≤ version) : migrationsFrom version = [] := by
  have hnone : [2, 3, 4, 5, 6, 7].filter (fun target => decide (version < target)) = [] := by
    rw [filter_eq_nil_iff]
    intro target htarget
    simp only [mem_cons, not_mem_nil, or_false] at htarget
    simp only [decide_eq_true_eq]
    omega
  rw [migrationsFrom, hnone]
  rfl

theorem ready_migrationsFrom (version : Nat) : Ready (migrationsFrom version) version := by
  by_cases h : 7 ≤ version
  · rw [migrationsFrom_of_le h]
    trivial
  · interval_cases version <;> simp [migrationsFrom, migration, Ready, Statement.floor,
      Statement.records]

theorem drop_not_mem {version} (h : 2 ≤ version) :
    .dropFaceEmbeddings ∉ migrationsFrom version := by
  by_cases h7 : 7 ≤ version
  · rw [migrationsFrom_of_le h7]
    exact not_mem_nil
  · interval_cases version <;> decide

theorem foldr_max_le {versions : List Nat} {bound} :
    versions.foldr max 0 ≤ bound ↔ ∀ version ∈ versions, version ≤ bound := by
  induction versions with
  | nil => simp
  | cons version versions ih => simp [ih]

theorem foldr_max_insert (version : Nat) (versions : List Nat) :
    (version :: versions.filter (· ≠ version)).foldr max 0 =
      max version (versions.foldr max 0) := by
  apply eq_of_forall_ge_iff
  intro bound
  simp only [foldr_max_le, max_le_iff, forall_mem_cons, mem_filter]
  grind

/-- The table of the models after a statement: the old one with at most one
column more, or a new one. -/
inductive ModelsAfter (statement : Statement) :
    Option (FaceModelsTable α) → Option (FaceModelsTable α) → Prop
  | same (table : Option (FaceModelsTable α)) : ModelsAfter statement table table
  | created : ModelsAfter statement none (some { rows := [] })
  | embedderModel (table : FaceModelsTable α) (h : statement = .addEmbedderModel) :
      ModelsAfter statement (some table) (some { table with embedderModel := true })
  | deviceId (table : FaceModelsTable α) (h : statement = .addDeviceId) :
      ModelsAfter statement (some table) (some { table with deviceId := true })
  | keyId (table : FaceModelsTable α) (h : statement = .addKeyId) :
      ModelsAfter statement (some table) (some { table with keyId := true })

/-- The rows of a table that must not be lost. -/
def KeepsRows {τ ρ : Type} (rows : τ → List ρ) (before after : Option τ) : Prop :=
  ∀ table, before = some table → ∃ later, after = some later ∧ rows later = rows table

theorem KeepsRows.refl {τ ρ : Type} (rows : τ → List ρ) (table : Option τ) :
    KeepsRows rows table table :=
  fun found h => ⟨found, h, rfl⟩

theorem KeepsRows.trans {τ ρ : Type} {rows : τ → List ρ} {first second third}
    (h : KeepsRows rows first second) (h' : KeepsRows rows second third) :
    KeepsRows rows first third := by
  intro table htable
  obtain ⟨middle, hmiddle, hrows⟩ := h table htable
  obtain ⟨last, hlast, hrows'⟩ := h' middle hmiddle
  exact ⟨last, hlast, hrows'.trans hrows⟩

theorem ModelsAfter.keepsRows {before after : Option (FaceModelsTable α)}
    (h : ModelsAfter statement before after) : KeepsRows FaceModelsTable.rows before after := by
  cases h with
  | same => exact KeepsRows.refl _ _
  | created =>
    intro table htable
    cases htable
  | embedderModel table | deviceId table | keyId table =>
    rintro _ ⟨⟩
    exact ⟨_, rfl, rfl⟩

/-- A statement records its version and loses none, and only a drop loses
embeddings. -/
structure Statement.After (statement : Statement) (db next : Database α β) : Prop where
  version : next.version = max db.version statement.records
  models : ModelsAfter statement db.faceModels next.faceModels
  embeddings : statement ≠ .dropFaceEmbeddings →
    KeepsRows FaceEmbeddingsTable.rows db.faceEmbeddings next.faceEmbeddings

theorem addModelColumn_ok {name has add} (h : addModelColumn db name has add = .ok next) :
    ∃ table, db.faceModels = some table ∧ next = { db with faceModels := some (add table) } := by
  unfold addModelColumn at h
  split at h
  · cases h
  · rename_i table htable
    split_ifs at h
    exact ⟨table, htable, (Except.ok.inj h).symm⟩

theorem Statement.after_exec (h : statement.exec db = .ok next) : statement.After db next := by
  cases statement with
  | createSchemaVersion | createRateLimit =>
    cases h
    exact ⟨by simp [Database.version, records], .same _, fun _ => .refl _ _⟩
  | createFaceModels =>
    cases h
    refine ⟨by simp [Database.version, records], ?_, fun _ => .refl _ _⟩
    cases hmodels : db.faceModels with
    | none => exact .created
    | some table => exact .same _
  | dropFaceEmbeddings =>
    cases h
    exact ⟨by simp [Database.version, records], .same _, fun hdrop => absurd rfl hdrop⟩
  | createFaceModelsIndex | createFaceEmbeddingsIndex | createRateLimitIndex =>
    simp only [exec] at h
    split_ifs at h
    cases h
    exact ⟨by simp [records], .same _, fun _ => .refl _ _⟩
  | createFaceEmbeddings =>
    simp only [exec] at h
    split at h <;> cases h
    rename_i hnone
    refine ⟨by simp [Database.version, records], .same _, fun _ table htable => ?_⟩
    rw [hnone] at htable
    cases htable
  | addSealed =>
    simp only [exec] at h
    split at h
    · cases h
    · rename_i table htable
      split_ifs at h
      cases h
      refine ⟨by simp [Database.version, records], .same _, fun _ found hfound => ?_⟩
      rw [htable] at hfound
      cases hfound
      exact ⟨_, rfl, rfl⟩
  | addEmbedderModel =>
    obtain ⟨table, htable, rfl⟩ := addModelColumn_ok h
    exact ⟨by simp [Database.version, records], htable ▸ .embedderModel table rfl,
      fun _ => .refl _ _⟩
  | addDeviceId =>
    obtain ⟨table, htable, rfl⟩ := addModelColumn_ok h
    exact ⟨by simp [Database.version, records], htable ▸ .deviceId table rfl, fun _ => .refl _ _⟩
  | addKeyId =>
    obtain ⟨table, htable, rfl⟩ := addModelColumn_ok h
    exact ⟨by simp [Database.version, records], htable ▸ .keyId table rfl, fun _ => .refl _ _⟩
  | insertVersion version =>
    simp only [exec] at h
    split at h
    · cases h
    · rename_i versions hversions
      cases h
      refine ⟨?_, .same _, fun _ => .refl _ _⟩
      simp only [Database.version, hversions, Option.getD_some, records]
      rw [foldr_max_insert, max_comm]

/-- A column is added only after the version in front of it. -/
def ColumnsBehind (db : Database α β) : Prop :=
  ∀ table, db.faceModels = some table →
    (table.embedderModel = true → 4 ≤ db.version) ∧ (table.deviceId = true → 5 ≤ db.version) ∧
      (table.keyId = true → 6 ≤ db.version)

theorem ColumnsBehind.exec (hcolumns : ColumnsBehind db) (hfloor : statement.floor ≤ db.version)
    (hafter : statement.After db next) : ColumnsBehind next := by
  have hversion : db.version ≤ next.version := by
    rw [hafter.version]
    exact le_max_left _ _
  have hkept : ∀ {flag : Bool} {bound : Nat}, (flag = true → bound ≤ db.version) →
      flag = true → bound ≤ next.version := fun h hflag => (h hflag).trans hversion
  intro table htable
  have hmodels := hafter.models
  rw [htable] at hmodels
  generalize hbefore : db.faceModels = before at hmodels
  cases hmodels with
  | same =>
    obtain ⟨hembedder, hdevice, hkey⟩ := hcolumns table hbefore
    exact ⟨hkept hembedder, hkept hdevice, hkept hkey⟩
  | created => simp
  | embedderModel old hstatement =>
    subst hstatement
    obtain ⟨-, hdevice, hkey⟩ := hcolumns old hbefore
    exact ⟨fun _ => hfloor.trans hversion, hkept hdevice, hkept hkey⟩
  | deviceId old hstatement =>
    subst hstatement
    obtain ⟨hembedder, -, hkey⟩ := hcolumns old hbefore
    exact ⟨hkept hembedder, fun _ => hfloor.trans hversion, hkept hkey⟩
  | keyId old hstatement =>
    subst hstatement
    obtain ⟨hembedder, hdevice, -⟩ := hcolumns old hbefore
    exact ⟨hkept hembedder, hkept hdevice, fun _ => hfloor.trans hversion⟩

/-! ## Runs -/

/-- The statements that an open still has to run. -/
def Opener.pending : Opener → List Statement
  | .bootstrapping rest | .migrating rest => rest
  | .failed _ => []

/-- The invariant of a run that began with `start`. -/
structure OpenInv (start : Database α β) (system : OpenSystem α β) : Prop where
  start_le : start.version ≤ system.db.version
  version_le : system.db.version ≤ 7
  columns : ColumnsBehind system.db
  models : KeepsRows FaceModelsTable.rows start.faceModels system.db.faceModels
  embeddings : 2 ≤ start.version →
    KeepsRows FaceEmbeddingsTable.rows start.faceEmbeddings system.db.faceEmbeddings
  ready : ∀ opener ∈ system.openers, Ready opener.pending system.db.version
  keeps : 2 ≤ start.version → ∀ opener ∈ system.openers, .dropFaceEmbeddings ∉ opener.pending

section Runs

variable {start : Database α β} {system : OpenSystem α β} {i : Nat} {opener : Opener}

theorem forall_mem_openers_set {p : Opener → Prop} (h : ∀ other ∈ system.openers, p other)
    (hp : p opener) : ∀ other ∈ system.openers.set i opener, p other := by
  intro other hother
  rcases mem_or_eq_of_mem_set hother with hold | rfl
  · exact h other hold
  · exact hp

theorem OpenInv.setOpener (h : OpenInv start system)
    (hready : Ready opener.pending system.db.version)
    (hkeeps : 2 ≤ start.version → .dropFaceEmbeddings ∉ opener.pending) :
    OpenInv start { system with openers := system.openers.set i opener } :=
  { h with
    ready := forall_mem_openers_set h.ready hready
    keeps := fun hstart => forall_mem_openers_set (h.keeps hstart) (hkeeps hstart) }

theorem OpenInv.exec (h : OpenInv start system) {current : Opener} (hmem : current ∈ system.openers)
    (hrest : current.pending = statement :: rest) (hopener : opener.pending = rest) :
    OpenInv start (system.exec i statement opener) := by
  have hready := h.ready current hmem
  rw [hrest] at hready
  obtain ⟨hfloor, hrecords, hready⟩ := hready
  unfold OpenSystem.exec
  split
  · rename_i db hexec
    have hafter := Statement.after_exec hexec
    have hversion := hafter.version
    have hle : system.db.version ≤ db.version := by
      rw [hversion]
      exact le_max_left _ _
    refine ⟨h.start_le.trans hle, ?_, h.columns.exec hfloor hafter,
      h.models.trans hafter.models.keepsRows, ?_, ?_, ?_⟩
    · show db.version ≤ 7
      rw [hversion]
      exact max_le h.version_le hrecords
    · intro hstart
      refine (h.embeddings hstart).trans (hafter.embeddings ?_)
      rintro rfl
      apply h.keeps hstart current hmem
      rw [hrest]
      exact mem_cons_self
    · apply forall_mem_openers_set fun other hold => (h.ready other hold).mono hle
      rw [hopener]
      exact hready.mono hversion.ge
    · intro hstart
      apply forall_mem_openers_set (h.keeps hstart)
      rw [hopener]
      intro hdrop
      apply h.keeps hstart current hmem
      rw [hrest]
      exact mem_cons_of_mem _ hdrop
  · exact h.setOpener trivial fun _ => not_mem_nil

theorem OpenInv.step {event after} (h : OpenInv start system)
    (hstep : openStep event system = some after) : OpenInv start after := by
  cases event with
  | start =>
    cases hstep
    refine { h with ready := ?_, keeps := ?_ }
    · intro other hother
      rcases mem_append.mp hother with hold | hnew
      · exact h.ready other hold
      · rw [mem_singleton.mp hnew]
        simp [Opener.pending, bootstrap, Ready, Statement.floor, Statement.records]
    · intro hstart other hother
      rcases mem_append.mp hother with hold | hnew
      · exact h.keeps hstart other hold
      · rw [mem_singleton.mp hnew]
        simp [Opener.pending, bootstrap]
  | act i =>
    obtain ⟨current, hget, hstep⟩ := Option.bind_eq_some_iff.mp hstep
    have hmem := mem_of_getElem? hget
    unfold openerStep at hstep
    split at hstep <;> cases hstep
    · exact h.exec hmem rfl rfl
    · exact h.setOpener (ready_migrationsFrom _) fun hstart =>
        drop_not_mem (hstart.trans h.start_le)
    · exact h.exec hmem rfl rfl
  | busy i detail =>
    obtain ⟨current, hget, rfl⟩ := Option.map_eq_some_iff.mp hstep
    exact h.setOpener trivial fun _ => not_mem_nil

end Runs

/-! ## A later open -/

/-- The column that the next migration adds is not there, and at version 2
the table that it adds to is. -/
@[mk_iff]
structure Aligned (db : Database α β) : Prop where
  sealed : db.version = 2 → ∃ table, db.faceEmbeddings = some table ∧ table.sealed = false
  embedderModel : db.version = 4 → ∀ table, db.faceModels = some table →
    table.embedderModel = false
  deviceId : db.version = 5 → ∀ table, db.faceModels = some table → table.deviceId = false
  keyId : db.version = 6 → ∀ table, db.faceModels = some table → table.keyId = false

/-- The database after the first batch. -/
def bootstrapped (db : Database α β) : Database α β :=
  { db with
    schemaVersion := some (db.schemaVersion.getD [])
    faceModels := some (db.faceModels.getD { rows := [] }) }

theorem execAll_bootstrap (db : Database α β) : execAll bootstrap db = .ok (bootstrapped db) :=
  rfl

@[simp] theorem version_bootstrapped (db : Database α β) :
    (bootstrapped db).version = db.version := by
  simp [bootstrapped, Database.version]

def Succeeds (statements : List Statement) (db : Database α β) : Prop :=
  ∃ final, execAll statements db = .ok final

theorem succeeds_cons :
    Succeeds (statement :: rest) db ↔
      ∃ next, statement.exec db = .ok next ∧ Succeeds rest next := by
  unfold Succeeds
  rw [execAll]
  cases statement.exec db with
  | ok next => simp
  | error e => simp

section Success

variable {versions : List Nat} {table : FaceModelsTable α} {rateLimit : Bool}
  {faceEmbeddings : Option (FaceEmbeddingsTable β)}

theorem succeeds_addModelColumn {name has add version}
    (hexec : ∀ db : Database α β, statement.exec db = addModelColumn db name has add) :
    Succeeds (statement :: .insertVersion version :: rest)
        ⟨some versions, some table, faceEmbeddings, rateLimit⟩ ↔
      has table = false ∧ Succeeds rest ⟨some (version :: versions.filter (· ≠ version)),
        some (add table), faceEmbeddings, rateLimit⟩ := by
  rw [succeeds_cons, hexec, addModelColumn]
  cases hhas : has table with
  | true => simp [hhas]
  | false =>
    simp only [hhas, Bool.false_eq_true, if_false, Except.ok.injEq, exists_eq_left', true_and,
      succeeds_cons, Statement.exec]

theorem succeeds_from6 :
    Succeeds (migrationsFrom 6) ⟨some versions, some table, faceEmbeddings, rateLimit⟩ ↔
      table.keyId = false := by
  show Succeeds [.addKeyId, .insertVersion 7] _ ↔ _
  rw [succeeds_addModelColumn fun _ => rfl]
  exact ⟨fun h => h.1, fun h => ⟨h, _, rfl⟩⟩

theorem succeeds_from5 :
    Succeeds (migrationsFrom 5) ⟨some versions, some table, faceEmbeddings, rateLimit⟩ ↔
      table.deviceId = false ∧ table.keyId = false := by
  show Succeeds (.addDeviceId :: .insertVersion 6 :: migrationsFrom 6) _ ↔ _
  rw [succeeds_addModelColumn fun _ => rfl, succeeds_from6]

theorem succeeds_from4 :
    Succeeds (migrationsFrom 4) ⟨some versions, some table, faceEmbeddings, rateLimit⟩ ↔
      table.embedderModel = false ∧ table.deviceId = false ∧ table.keyId = false := by
  show Succeeds (.addEmbedderModel :: .insertVersion 5 :: migrationsFrom 5) _ ↔ _
  rw [succeeds_addModelColumn fun _ => rfl, succeeds_from5]

theorem succeeds_from3 :
    Succeeds (migrationsFrom 3) ⟨some versions, some table, faceEmbeddings, rateLimit⟩ ↔
      table.embedderModel = false ∧ table.deviceId = false ∧ table.keyId = false := by
  show Succeeds (.createRateLimit :: .createRateLimitIndex :: .insertVersion 4 ::
    migrationsFrom 4) _ ↔ _
  exact succeeds_from4

theorem succeeds_from2 :
    Succeeds (migrationsFrom 2) ⟨some versions, some table, faceEmbeddings, rateLimit⟩ ↔
      (∃ found, faceEmbeddings = some found ∧ found.sealed = false) ∧
        table.embedderModel = false ∧ table.deviceId = false ∧ table.keyId = false := by
  show Succeeds (.addSealed :: .insertVersion 3 :: migrationsFrom 3) _ ↔ _
  rw [succeeds_cons]
  cases faceEmbeddings with
  | none => simp [Statement.exec]
  | some found =>
    cases hsealed : found.sealed with
    | true => simp [Statement.exec, hsealed]
    | false =>
      simp only [Statement.exec, hsealed, Bool.false_eq_true, if_false, Except.ok.injEq,
        exists_eq_left', succeeds_cons, succeeds_from3, Option.some.injEq, true_and]

theorem succeeds_from1 {version} (h : version ≤ 1) :
    Succeeds (migrationsFrom version) ⟨some versions, some table, faceEmbeddings, rateLimit⟩ ↔
      table.embedderModel = false ∧ table.deviceId = false ∧ table.keyId = false := by
  have hlist : migrationsFrom version = .dropFaceEmbeddings :: .createFaceEmbeddings ::
      .createFaceEmbeddingsIndex :: .insertVersion 2 :: migrationsFrom 2 := by
    interval_cases version <;> rfl
  rw [hlist]
  simp only [succeeds_cons, Statement.exec, Except.ok.injEq, exists_eq_left', Option.isSome_some,
    if_true, succeeds_from2]
  simp

end Success

/-- The migrations of a database whose columns lie behind its version run to
the end exactly if it is aligned. -/
theorem succeeds_iff_aligned (hle : db.version ≤ 7) (hcolumns : ColumnsBehind db) :
    Succeeds (migrationsFrom db.version) (bootstrapped db) ↔ Aligned db := by
  -- a new table has no column of a migration
  have hsome : ∀ p : FaceModelsTable α → Prop, p { rows := [] } →
      ((∀ table, db.faceModels = some table → p table) ↔
        p (db.faceModels.getD { rows := [] })) := by
    intro p hp
    cases db.faceModels with
    | none => simp [hp]
    | some table => simp
  have hbehind := (hsome _ (by simp)).mp hcolumns
  rw [aligned_iff, hsome (·.embedderModel = false) rfl, hsome (·.deviceId = false) rfl,
    hsome (·.keyId = false) rfl, bootstrapped]
  generalize db.faceModels.getD { rows := [] } = table at hbehind ⊢
  generalize db.version = version at hle hbehind ⊢
  obtain ⟨hembedder, hdevice, hkey⟩ := hbehind
  have hfalse : ∀ {flag : Bool} {bound : Nat}, (flag = true → bound ≤ version) →
      version < bound → flag = false := by
    intro flag bound himp hlt
    cases flag with
    | false => rfl
    | true => exact absurd (himp rfl) (by omega)
  rcases Nat.lt_or_ge version 2 with hlow | hhigh
  · rw [succeeds_from1 (by omega)]
    refine iff_of_true ⟨hfalse hembedder (by omega), hfalse hdevice (by omega),
      hfalse hkey (by omega)⟩ ⟨by omega, by omega, by omega, by omega⟩
  · interval_cases version
    · rw [succeeds_from2]
      simp [hfalse hembedder, hfalse hdevice, hfalse hkey]
    · rw [succeeds_from3]
      simp [hfalse hembedder, hfalse hdevice, hfalse hkey]
    · rw [succeeds_from4]
      simp [hfalse hdevice, hfalse hkey]
    · rw [succeeds_from5]
      simp [hfalse hkey]
    · rw [succeeds_from6]
      simp
    · exact iff_of_true ⟨_, rfl⟩ (by simp)

theorem execAll_ok (h : execAll rest db = .ok final) :
    final.version = rest.foldl (fun version statement => max version statement.records)
        db.version ∧
      KeepsRows FaceModelsTable.rows db.faceModels final.faceModels ∧
      (.dropFaceEmbeddings ∉ rest →
        KeepsRows FaceEmbeddingsTable.rows db.faceEmbeddings final.faceEmbeddings) := by
  induction rest generalizing db with
  | nil =>
    cases h
    exact ⟨rfl, KeepsRows.refl _ _, fun _ => KeepsRows.refl _ _⟩
  | cons statement rest ih =>
    rw [execAll] at h
    split at h
    · rename_i next hexec
      obtain ⟨hversion, hmodels, hembeddings⟩ := ih h
      have hafter := Statement.after_exec hexec
      refine ⟨?_, hafter.models.keepsRows.trans hmodels, ?_⟩
      · rw [hversion, hafter.version]
        rfl
      · intro hnot
        rw [mem_cons, not_or] at hnot
        exact (hafter.embeddings (Ne.symm hnot.1)).trans (hembeddings hnot.2)
    · cases h

/-- A database of one of the released schemas. -/
structure OfVersion (version : Nat) (db : Database α β) : Prop where
  version_eq : db.version = version
  faceModels : ∀ table, db.faceModels = some table →
    table.embedderModel = decide (5 ≤ version) ∧ table.deviceId = decide (6 ≤ version) ∧
      table.keyId = decide (7 ≤ version)
  faceEmbeddings : 2 ≤ version →
    ∃ table, db.faceEmbeddings = some table ∧ table.sealed = decide (3 ≤ version)
  rateLimit : 4 ≤ version → db.rateLimit = true

/-- What a later open must achieve: it succeeds, ends at version 7 and keeps
the rows of the first database. -/
def LaterOpenKeeps (start db : Database α β) : Prop :=
  ∃ final, runMigrations db = .ok final ∧ final.version = 7 ∧
    KeepsRows FaceModelsTable.rows start.faceModels final.faceModels ∧
    (2 ≤ start.version →
      KeepsRows FaceEmbeddingsTable.rows start.faceEmbeddings final.faceEmbeddings)

/-- After any opens of a database of version 0 to 7, interleaved and killed
anywhere, a later open succeeds exactly if the database is aligned. -/
theorem laterOpen_iff {version : Nat} (hversion : version ≤ 7) {start : Database α β}
    (hstart : OfVersion version start) {events : List OpenEvent} {system : OpenSystem α β}
    (hrun : run openStep events { db := start, openers := [] } = some system) :
    LaterOpenKeeps start system.db ↔ Aligned system.db := by
  have hcolumns : ColumnsBehind start := by
    intro table htable
    obtain ⟨hembedder, hdevice, hkey⟩ := hstart.faceModels table htable
    rw [hembedder, hdevice, hkey, hstart.version_eq]
    simp only [decide_eq_true_eq]
    omega
  have hinit : OpenInv start { db := start, openers := [] } := by
    refine ⟨le_rfl, ?_, hcolumns, KeepsRows.refl _ _, fun _ => KeepsRows.refl _ _, by simp, by simp⟩
    rw [hstart.version_eq]
    exact hversion
  have hinv : OpenInv start system := run_keeps (fun _ _ _ => OpenInv.step) hinit hrun
  have hopen : runMigrations system.db =
      execAll (migrationsFrom system.db.version) (bootstrapped system.db) := by
    rw [runMigrations, execAll_bootstrap]
    simp [version_bootstrapped]
  rw [← succeeds_iff_aligned hinv.version_le hinv.columns]
  constructor
  · rintro ⟨final, hfinal, -⟩
    exact ⟨final, hopen ▸ hfinal⟩
  · rintro ⟨final, hfinal⟩
    obtain ⟨hlast, hmodels, hembeddings⟩ := execAll_ok hfinal
    refine ⟨final, hopen.trans hfinal, ?_, ?_, ?_⟩
    · rw [hlast, version_bootstrapped]
      have hle := hinv.version_le
      generalize system.db.version = version at hle
      interval_cases version <;> rfl
    · refine hinv.models.trans (KeepsRows.trans ?_ hmodels)
      intro table htable
      exact ⟨table, by simp [bootstrapped, htable], rfl⟩
    · intro htwo
      exact (hinv.embeddings htwo).trans (hembeddings (drop_not_mem (htwo.trans hinv.start_le)))

end Tables

def versionFive : Database Nat Nat where
  schemaVersion := some [5, 4, 3, 2]
  faceModels := some { rows := [1], embedderModel := true }
  faceEmbeddings := some { rows := [1, 2, 3], sealed := true }
  rateLimit := true

theorem ofVersion_versionFive : OfVersion 5 versionFive where
  version_eq := by decide
  faceModels := by
    rintro table ⟨⟩
    decide
  faceEmbeddings _ := ⟨_, rfl, rfl⟩
  rateLimit _ := rfl

/-- Two processes have both read version 5.  The first one adds `device_id` and
is killed once it has recorded version 6, and the second one fails. -/
def lostRace : List OpenEvent :=
  [.start, .start, .act 0, .act 1, .act 0, .act 1, .act 0, .act 1, .act 0, .act 1,
    .act 0, .act 1, .act 0]

theorem laterOpen_after_lostRace :
    ∃ system, run openStep lostRace { db := versionFive, openers := [] } = some system ∧
      system.openers[1]? = some (.failed "duplicate column name: device_id") ∧
      system.db.version = 6 ∧ LaterOpenKeeps versionFive system.db := by
  obtain ⟨system, hrun, hfailed, hversion, hkey⟩ : ∃ system,
      run openStep lostRace { db := versionFive, openers := [] } = some system ∧
        system.openers[1]? = some (.failed "duplicate column name: device_id") ∧
        system.db.version = 6 ∧
        ∀ table, system.db.faceModels = some table → table.keyId = false := by
    refine ⟨_, rfl, by rfl, by rfl, ?_⟩
    rintro table ⟨⟩
    rfl
  refine ⟨system, hrun, hfailed, hversion, ?_⟩
  apply (laterOpen_iff (by decide) ofVersion_versionFive hrun).mpr
  exact ⟨by simp [hversion], by simp [hversion], by simp [hversion], fun _ => hkey⟩

def versionSix : Database Nat Nat where
  schemaVersion := some [6, 5, 4, 3, 2]
  faceModels := some { rows := [1], embedderModel := true, deviceId := true }
  faceEmbeddings := some { rows := [1, 2, 3], sealed := true }
  rateLimit := true

theorem ofVersion_versionSix : OfVersion 6 versionSix where
  version_eq := by decide
  faceModels := by
    rintro table ⟨⟩
    decide
  faceEmbeddings _ := ⟨_, rfl, rfl⟩
  rateLimit _ := rfl

/-- A process that is killed between its column and its version: every later
open fails. -/
theorem killed_between_column_and_version :
    OfVersion 6 versionSix ∧
      ∃ system, run openStep (.start :: List.replicate 5 (.act 0))
          { db := versionSix, openers := [] } = some system ∧
        runMigrations system.db = .error "duplicate column name: key_id" ∧
        ¬ LaterOpenKeeps versionSix system.db := by
  obtain ⟨system, hrun, herror⟩ : ∃ system, run openStep (.start :: List.replicate 5 (.act 0))
      { db := versionSix, openers := [] } = some system ∧
        runMigrations system.db = .error "duplicate column name: key_id" :=
    ⟨_, rfl, by rfl⟩
  refine ⟨ofVersion_versionSix, system, hrun, herror, ?_⟩
  rintro ⟨final, hfinal, -⟩
  rw [herror] at hfinal
  cases hfinal

end Facelock.Templates
