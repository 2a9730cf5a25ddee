import Facelock.Keys.Commands

/-!
# Setting up encryption

`facelock setup --encryption` of `crates/facelock-cli/src/commands/setup.rs`
and the gate of `crates/facelock-daemon/src/key_policy.rs`.  A choice of
`tpm`, `keyfile`, `none` or `auto` is turned into an action on the two key
artifacts (`planKeyAction`, `planAutoForConfig`): use what is there, carry
the key of the other artifact across, or mint a new key.

Two guards stand in front of a mint.  The explicit choices ask for any
model in the database and offer to delete them all
(`handleOrphanModelsBeforeKeygen`).  The automatic policy asks for encrypted
rows (`keygenRefusal`), and for a key file the gate that asks also writes
the key (`ensureEncryptByDefaultKey`).

The programs run on a `Machine`: the key material and the database.  The
build has TPM support compiled in.  The notices on the terminal are left
out, and with them `notice_if_keys_diverged`, which only prints.
-/

namespace Facelock.Keys

open Facelock.Crash List
open Facelock.Templates

/-! ## The database -/

/-- A store whose rows all belong to a model: `model_id` is a foreign key,
and a deletion cascades. -/
structure Database where
  store : FaceStore
  referenced : ∀ row ∈ store.embeddings, ∃ model ∈ store.models, model.id = row.modelId

namespace Database

def empty : Database where
  store := emptyStore
  referenced := by
    intro row hrow
    cases hrow

/-- The rows that a deletion of models leaves. -/
def survivors (store : FaceStore) (deleted : FaceModel → Bool) : List EmbeddingRow :=
  store.embeddings.filter fun row =>
    store.models.all fun model => model.id ≠ row.modelId || !deleted model

/-- `DELETE FROM face_models` with a condition. -/
def deleteModels (database : Database) (deleted : FaceModel → Bool) : Database where
  store :=
    { database.store with
      models := database.store.models.filter fun model => !deleted model
      embeddings := survivors database.store deleted
      models_nodup := database.store.models_nodup.sublist (filter_sublist.map _)
      embeddings_nodup := database.store.embeddings_nodup.sublist (filter_sublist.map _)
      models_lt := fun model hmodel =>
        database.store.models_lt model (mem_of_mem_filter hmodel)
      embeddings_lt := fun row hrow =>
        database.store.embeddings_lt row (mem_of_mem_filter hrow) }
  referenced := by
    intro row hrow
    obtain ⟨hold, hkept⟩ := mem_filter.mp hrow
    obtain ⟨model, hmodel, hid⟩ := database.referenced row hold
    refine ⟨model, mem_filter.mpr ⟨hmodel, ?_⟩, hid⟩
    have hmodelKept := all_eq_true.mp hkept model hmodel
    simpa [hid] using hmodelKept

def clearAll (database : Database) : Database :=
  database.deleteModels fun _ => true

theorem referenced_replaceModel (database : Database) (user label : String) (blobs : List Blob)
    (sealed : Bool) (deviceId keyId : Option String) :
    let next := database.store.replaceModel user label blobs sealed deviceId keyId
    ∀ row ∈ next.embeddings, ∃ model ∈ next.models, model.id = row.modelId := by
  intro next row hrow
  rcases mem_append.mp hrow with hkept | hnew
  · obtain ⟨hold, hall⟩ := mem_filter.mp hkept
    obtain ⟨model, hmodel, hid⟩ := database.referenced row hold
    have hmodelKept := all_eq_true.mp hall model hmodel
    refine ⟨model, mem_append_left _ (mem_filter.mpr ⟨hmodel, ?_⟩), hid⟩
    simpa [hid] using hmodelKept
  · obtain ⟨pair, -, rfl⟩ := mem_map.mp hnew
    exact ⟨_, mem_append_right _ mem_cons_self, rfl⟩

def replaceModelWithEmbeddings (database : Database) (user label : String) (blobs : List Blob)
    (sealed : Bool) (deviceId keyId : Option String) : Except String Database :=
  match h : database.store.replaceModelWithEmbeddings user label blobs sealed deviceId keyId with
  | .error e => .error e
  | .ok next => .ok
    { store := next
      referenced := by
        unfold FaceStore.replaceModelWithEmbeddings at h
        split_ifs at h
        cases h
        exact database.referenced_replaceModel user label blobs sealed deviceId keyId }

end Database

/-- What the operations run on.  There may be no database file. -/
structure Machine where
  material : KeyMaterial
  database : Option Database

namespace Machine

variable (machine : Machine)

/-- The database that a missing file stands for is empty. -/
def contents : Database :=
  machine.database.getD Database.empty

def rows : List EmbeddingRow :=
  machine.contents.store.embeddings

def keyfileExists : Bool :=
  machine.material.keyFile.isSome

def sealedExists : Bool :=
  machine.material.sealedKey.isSome

end Machine

/-- Run a program on the key material. -/
def onMaterial {α : Type} (program : Prog KeyMaterial String α) : Prog Machine String α :=
  program.zoom Machine.material fun machine material => { machine with material }

structure SetupConfig extends KeyConfig where
  tcti : String
  dbPath : String
  allowPlaintext : Bool

/-- A store that cannot be used. -/
inductive StoreError where
  | busy (text : String)
  | other (text : String)

/-- What the calls of one setup or enrollment answer. -/
structure SetupCalls (Pcrs : Type) extends Calls Pcrs where
  detectTpm : Bool
  /-- There is a theme to prompt with, and a terminal. -/
  interactive : Bool
  /-- The answer to "Delete orphaned models and continue?". -/
  confirm : Except String Bool
  /-- Opening a database that is there. -/
  openStore : Except String Unit
  countModels : Except String Unit
  clearAll : Except String Unit
  lockStore : Except StoreError Unit
  blobShapes : Except String Unit
  /-- `create_key_file_exclusive`, with the text of `key_creation_failure`. -/
  createKeyFile : Except String Unit
  commit : Except String Unit
  /-- The 32 bytes of the random generator. -/
  randomKey : AesKey

variable {Pcrs : Type}

/-! ## Decisions -/

inductive KeyAction where
  | reuseExisting
  | sealExistingKeyfile
  | unsealExistingSealed
  | mint
  deriving DecidableEq, Repr

/-- The methods that `plan_key_action` may be asked about: it is unreachable
with `none`. -/
inductive KeyTarget where
  | tpm
  | keyfile
  deriving DecidableEq, Repr

def KeyTarget.method : KeyTarget → EncryptionMethod
  | .tpm => .tpm
  | .keyfile => .keyfile

def planKeyAction (target : KeyTarget) (keyfileExists sealedExists tpmUsable : Bool) : KeyAction :=
  match target with
  | .tpm =>
    if sealedExists then .reuseExisting
    else if keyfileExists then .sealExistingKeyfile
    else .mint
  | .keyfile =>
    if keyfileExists then .reuseExisting
    else if sealedExists && tpmUsable then .unsealExistingSealed
    else .mint

def planAutoKeyAction (tpmUsable keyfileExists sealedExists : Bool) : KeyTarget × KeyAction :=
  if tpmUsable then (.tpm, planKeyAction .tpm keyfileExists sealedExists true)
  else (.keyfile, planKeyAction .keyfile keyfileExists sealedExists false)

def planAutoForConfig (method : EncryptionMethod) (tpmUsable keyfileExists sealedExists : Bool) :
    Option (KeyTarget × KeyAction) :=
  match method with
  | .none => some (planAutoKeyAction tpmUsable keyfileExists sealedExists)
  | .keyfile =>
    if !keyfileExists then
      some (.keyfile, planKeyAction .keyfile keyfileExists sealedExists tpmUsable)
    else none
  | .tpm =>
    if !sealedExists && tpmUsable then
      some (.tpm, planKeyAction .tpm keyfileExists sealedExists true)
    else none

/-- The plan of the automatic policy for a machine. -/
def autoPlan (machine : Machine) (tpmAvailable : Bool) : Option (KeyTarget × KeyAction) :=
  planAutoForConfig machine.material.method tpmAvailable machine.keyfileExists
    machine.sealedExists

def autoEncryptionNeedsKeygen (machine : Machine) (tpmAvailable : Bool) : Bool :=
  (autoPlan machine tpmAvailable).any fun (_, action) => action = .mint

/-- The key that the method of the configuration reads is there. -/
def configuredKeyPresent (machine : Machine) : Bool :=
  match machine.material.method with
  | .none => false
  | .keyfile => machine.keyfileExists
  | .tpm => machine.sealedExists

/-! ## Guards -/

section Programs

variable (config : SetupConfig) (tpm : Tpm Pcrs) (calls : SetupCalls Pcrs)

variable (machine : Machine)

/-- Whether the models have to be deleted before a mint. -/
def orphanModels : Except String Bool :=
  match machine.database with
  | none => .ok false
  | some database => do
    calls.openStore.mapError fun e =>
      "refusing to generate a new encryption key: the face database could not be read, so " ++
        "facelock cannot tell whether existing templates would be orphaned (" ++ e ++
        "). Fix access to " ++ config.dbPath ++ " and re-run, or clear models first with: sudo " ++
        "facelock clear"
    calls.countModels.mapError fun e =>
      "refusing to generate a new encryption key: could not determine whether face models " ++
        "exist in " ++ config.dbPath ++ " (" ++ e ++ "), so facelock cannot tell whether " ++
        "existing templates would be orphaned. Fix the database and re-run, or clear models " ++
        "first with: sudo facelock clear"
    if database.store.models.isEmpty then .ok false
    else if !calls.interactive then
      .error ("orphaned encrypted models found and no encryption key present; re-run setup " ++
        "interactively, or clear models first with: sudo facelock clear --yes")
    else
      match calls.confirm with
      | .error e => .error e
      | .ok false =>
        .error ("encryption setup aborted; restore the previous key file or clear models " ++
          "manually")
      | .ok true => .ok true

/-- `clear_all` on the database that is there. -/
def clearOrphans : Bool → Prog Machine String Unit
  | false => pure ()
  | true => Prog.act fun machine =>
    (calls.clearAll.mapError (context "failed to clear orphaned models")).map fun _ =>
      { machine with database := machine.database.map Database.clearAll }

def handleOrphanModelsBeforeKeygen : Prog Machine String Unit := do
  let clear ← Prog.read (orphanModels config calls)
  clearOrphans calls clear

def rowsAtRisk : Option String :=
  match calls.blobShapes with
  | .error e =>
    some ("the face database could not be read (" ++ e ++ "), so facelock cannot tell whether " ++
      "encrypted templates would be orphaned. Fix access to " ++ config.dbPath ++
      " and retry, or clear the enrollments with `facelock clear`.")
  | .ok () => encryptedRowsAtRisk machine.contents.store config.toKeyPaths

def configuredKeyArtifact : EncryptionMethod → String
  | .tpm => config.sealedKeyPath
  | .keyfile | .none => config.keyPath

variable (method : EncryptionMethod)

/-- `key_creation_refusal`, for the method the key is made for. -/
def keyCreationRefusal (machine : Machine) : Option String :=
  (rowsAtRisk config calls machine).map fun atRisk =>
    context ("refusing to write an encryption key at " ++ configuredKeyArtifact config method)
      atRisk

inductive KeyfileDecision where
  | present
  | created
  | notApplicable
  | refused (message : String)
  deriving DecidableEq, Repr

def KeyfileDecision.refusal : KeyfileDecision → Option String
  | .refused message => some message
  | .present | .created | .notApplicable => none

def unlockableStoreRefusal : StoreError → String
  | .busy text =>
    "refusing to write an encryption key at " ++ configuredKeyArtifact config method ++
      ": the face database at " ++ config.dbPath ++ " is held by another process (" ++ text ++
      "), so facelock cannot rule out an enrollment sealing a template under the key this would " ++
      "replace. Retry once it is free."
  | .other text =>
    "refusing to write an encryption key at " ++ configuredKeyArtifact config method ++
      ": the face database at " ++ config.dbPath ++ " could not be read (" ++ text ++
      "), so facelock cannot tell whether existing templates would be orphaned. Fix access to " ++
      "it and retry, or clear the enrollments with `facelock clear`."

/-- What the gate decides.  `created` stands for the creation to come. -/
def keyfileDecision (machine : Machine) : KeyfileDecision :=
  if method ≠ .keyfile then .notApplicable
  else if machine.keyfileExists then .present
  else
    match calls.lockStore with
    | .error e => .refused (unlockableStoreRefusal config method e)
    | .ok () =>
      match keyCreationRefusal config calls method machine with
      | some refusal => .refused refusal
      | none =>
        match calls.createKeyFile with
        | .error failure => .refused failure
        | .ok () => .created

/-- Publish the key file by a rename. -/
def createKeyFileExclusive : KeyfileDecision → Prog Machine String Unit
  | .created => onMaterial (Prog.act fun material =>
      .ok (material.withFile calls.randomKey.val .keyFile))
  | _ => pure ()

def ensureEncryptByDefaultKey : Prog Machine String KeyfileDecision := do
  let decision ← Prog.read fun machine => .ok (keyfileDecision config calls method machine)
  createKeyFileExclusive calls decision
  pure decision

/-- The database is absent or can be opened. -/
def storeOpens : Except String Unit :=
  if machine.database.isNone then .ok ()
  else calls.openStore.mapError fun e =>
    "refusing to generate a new encryption key: the face database at " ++ config.dbPath ++
      " could not be read (" ++ e ++ "), so facelock cannot tell whether existing templates " ++
      "would be orphaned. Fix access to it and re-run, or clear models first with: sudo " ++
      "facelock clear"

def keygenGate : KeyTarget → Prog Machine String Unit
  | .keyfile => do
    let decision ← ensureEncryptByDefaultKey config calls .keyfile
    Prog.ofResult (decision.refusal.elim (.ok ()) .error)
  | .tpm => Prog.read fun machine =>
    (keyCreationRefusal config calls .tpm machine).elim (.ok ()) .error

/-- `keygen_refusal` and the bail on what it returns. -/
def refuseKeygen (target : KeyTarget) : Prog Machine String Unit := do
  Prog.read (storeOpens config calls)
  keygenGate config calls target

/-! ## Choices -/

/-- An `unreachable!()`. -/
def unreachableCode {α : Type} (text : String) : Prog Machine String α :=
  Prog.fail ("internal error: entered unreachable code: " ++ text)

def generateAndSealKey : Prog Machine String Unit :=
  onMaterial do
    initializeTpm calls.toCalls
    (sealKeyToFile config.toKeyConfig tpm calls.toCalls calls.randomKey).mapError
      (context "failed to generate and seal key")

def sealExisting : Prog Machine String Unit :=
  (onMaterial (sealExistingKeyfile config.toKeyConfig tpm calls.toCalls)).mapError
    (context "failed to seal the existing key with the TPM")

def unsealExisting : Prog Machine String Unit :=
  (onMaterial (unsealIntoKeyfile config.toKeyConfig tpm calls.toCalls)).mapError
    (context "failed to unseal the existing sealed key")

def switchMethod : Prog Machine String Unit :=
  onMaterial (updateConfigEncryption calls.toCalls method)

def tpmKeyAction : KeyAction → Prog Machine String Unit
  | .reuseExisting => pure ()
  | .sealExistingKeyfile => sealExisting config tpm calls
  | .mint => do
    handleOrphanModelsBeforeKeygen config calls
    generateAndSealKey config tpm calls
  | .unsealExistingSealed =>
    unreachableCode "plan_key_action never returns UnsealExistingSealed for a Tpm target"

def setupEncryptionTpmKey : Prog Machine String Unit := do
  let action ← Prog.read fun machine =>
    .ok (planKeyAction .tpm machine.keyfileExists machine.sealedExists true)
  tpmKeyAction config tpm calls action
  switchMethod calls .tpm

def keyfileAction : KeyAction → Prog Machine String Unit
  | .reuseExisting => pure ()
  | .unsealExistingSealed => unsealExisting config tpm calls
  | .mint => do
    handleOrphanModelsBeforeKeygen config calls
    (onMaterial (writeKeyFile config.toKeyConfig calls.toCalls calls.randomKey)).mapError
      (context "failed to generate encryption key")
  | .sealExistingKeyfile =>
    unreachableCode "plan_key_action never returns SealExistingKeyfile for a Keyfile target"

def setupEncryptionKeyfile (tpmUsable : Bool) : Prog Machine String Unit := do
  let action ← Prog.read fun machine =>
    .ok (planKeyAction .keyfile machine.keyfileExists machine.sealedExists tpmUsable)
  keyfileAction config tpm calls action
  switchMethod calls .keyfile

def setupEncryptionNone : Prog Machine String Unit :=
  switchMethod calls .none

def autoTpmAction : KeyAction → Prog Machine String Unit
  | .reuseExisting => pure ()
  | .sealExistingKeyfile => sealExisting config tpm calls
  | .mint => do
    refuseKeygen config calls .tpm
    generateAndSealKey config tpm calls
  | .unsealExistingSealed =>
    unreachableCode "plan_key_action never returns UnsealExistingSealed for a Tpm target"

/-- The key file is written by the gate, except where it is unsealed. -/
def autoKeyfileAction : KeyAction → Prog Machine String Unit
  | .reuseExisting | .mint => refuseKeygen config calls .keyfile
  | .unsealExistingSealed => unsealExisting config tpm calls
  | .sealExistingKeyfile => do
    refuseKeygen config calls .keyfile
    unreachableCode "plan_key_action never seals for a Keyfile target"

def autoAction : KeyTarget × KeyAction → Prog Machine String Unit
  | (.tpm, action) => autoTpmAction config tpm calls action
  | (.keyfile, action) => autoKeyfileAction config tpm calls action

def followAutoPlan : Option (KeyTarget × KeyAction) → Prog Machine String Unit
  | none => pure ()
  | some plan => do
    autoAction config tpm calls plan
    switchMethod calls plan.1.method

def setupEncryptionAuto (tpmAvailable : Bool) : Prog Machine String Unit := do
  let plan ← Prog.read fun machine =>
    .ok (if configuredKeyPresent machine then none else autoPlan machine tpmAvailable)
  followAutoPlan config tpm calls plan

inductive EncryptionChoice where
  | tpm
  | keyfile
  | none
  | auto
  deriving DecidableEq, Repr

def guardAutoKeygen (needsKeygen : Bool) : Prog Machine String Unit :=
  if needsKeygen then handleOrphanModelsBeforeKeygen config calls else pure ()

def applyEncryptionChoice : EncryptionChoice → Prog Machine String Unit
  | .tpm =>
    if calls.detectTpm then setupEncryptionTpmKey config tpm calls
    else
      Prog.fail ("--encryption=tpm requested but no usable TPM 2.0 was found (tcti: " ++
        config.tcti ++ "); refusing to fall back to a software keyfile. Pass " ++
        "--encryption=keyfile to accept a software key, or --encryption=auto to use the TPM " ++
        "only when present.")
  | .keyfile => setupEncryptionKeyfile config tpm calls calls.detectTpm
  | .none => setupEncryptionNone calls
  | .auto => do
    let needsKeygen ← Prog.read fun machine =>
      .ok (autoEncryptionNeedsKeygen machine calls.detectTpm)
    guardAutoKeygen config calls needsKeygen
    setupEncryptionAuto config tpm calls calls.detectTpm

end Programs

/-! ## The plan fits the machine -/

/-- What an action presupposes of the two artifacts. -/
def KeyAction.Fits (keyfileExists sealedExists : Bool) : KeyTarget → KeyAction → Prop
  | .tpm, .reuseExisting => sealedExists = true
  | .tpm, .sealExistingKeyfile => sealedExists = false ∧ keyfileExists = true
  | .tpm, .mint => sealedExists = false ∧ keyfileExists = false
  | .tpm, .unsealExistingSealed => False
  | .keyfile, .reuseExisting => keyfileExists = true
  | .keyfile, .unsealExistingSealed => keyfileExists = false ∧ sealedExists = true
  | .keyfile, .mint => keyfileExists = false
  | .keyfile, .sealExistingKeyfile => False

/-- No plan overwrites an artifact, and none is unreachable code. -/
theorem planKeyAction_fits (target : KeyTarget) (keyfileExists sealedExists tpmUsable : Bool) :
    KeyAction.Fits keyfileExists sealedExists target
      (planKeyAction target keyfileExists sealedExists tpmUsable) := by
  cases target with
  | tpm =>
    unfold planKeyAction
    cases sealedExists <;> cases keyfileExists <;> simp [KeyAction.Fits]
  | keyfile =>
    unfold planKeyAction
    cases keyfileExists <;> cases sealedExists <;> cases tpmUsable <;> simp [KeyAction.Fits]

end Facelock.Keys
