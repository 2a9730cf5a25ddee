import Facelock.Keys.Custody

/-!
# Histories of key operations

Setups, key commands, removals and enrollments, one after the other in any
order, each with its own answers of the TPM, the files, the database and
the operator.  An operation may fail, and what it has done by then stays.

An enrollment loads the key of the configured method (`SealingKeys::load`
of `crates/facelock-daemon/src/keyring.rs`) and commits its templates sealed
under that key.  Under `keyfile` the gate may mint the key first.  Under
`none` the templates are stored as they are, where that is allowed.

`history_keeps_keys` is about every state of every history: an artifact
that has bytes keeps them, a new key comes up only while no encrypted row is
stored, and every encrypted row is sealed under a key that is held.
-/

namespace Facelock.Keys

open Facelock.Crash List
open Facelock.Templates

variable {Pcrs : Type}

/-! ## Enrollment -/

def sentence (cause : String) : String :=
  match cause.toList.getLast? with
  | some '.' | some '!' | some '?' => cause
  | _ => cause ++ "."

/-- The refusal of an enrollment without a key. -/
def refusingToEnroll (cause : String) : String :=
  "refusing to enroll: " ++ sentence cause ++
    " Storing your face would otherwise fall back to plaintext. Fix the keyfile " ++
    "path/permissions (or set encryption.method = \"none\" with security.allow_plaintext = true " ++
    "to intentionally store plaintext)."

section Programs

variable (config : SetupConfig) (tpm : Tpm Pcrs) (calls : SetupCalls Pcrs)

variable (machine : Machine)

def keyFromFile : Except String AesKey := do
  let data ← (readFile machine.material.keyFile calls.readKeyFile).mapError fun e =>
    "encryption error: " ++ context ("failed to read key file " ++ config.keyPath) e
  if h : data.length = 32 then .ok ⟨data, h⟩
  else
    .error ("encryption error: key file " ++ config.keyPath ++ " must be exactly 32 bytes, got " ++
      if 32 < data.length then "more than 32" else toString data.length)

/-- The complaint about a key file that cannot be read. -/
def unreadableKeyFile (e : String) : String :=
  let complaint := context (config.keyPath ++ " keyfile could not be read") e
  match rowsAtRisk config calls machine with
  | some atRisk => complaint ++ " — " ++ atRisk
  | none => complaint

def resolveKeyfileSealer : Prog Machine String AesKey := do
  let decision ← ensureEncryptByDefaultKey config calls .keyfile
  Prog.ofResult (decision.refusal.elim (.ok ()) .error)
  Prog.read fun machine =>
    (keyFromFile config calls machine).mapError (unreadableKeyFile config calls machine)

def unsealTpmPrimary : Except String AesKey := do
  calls.tpmSealer.mapError (context "TPM initialization failed")
  (unsealKeyFromFile config.toKeyConfig tpm calls.toCalls machine.material).mapError
    (context ("failed to unseal AES key from " ++ config.sealedKeyPath))

/-- The key that seals new rows, by the method: `SealingKeys::load`. -/
def primaryKey : EncryptionMethod → Prog Machine String (Option AesKey)
  | .none => pure none
  | .keyfile => do
    let key ← (resolveKeyfileSealer config calls).mapError refusingToEnroll
    pure (some key)
  | .tpm => do
    let key ← Prog.read (unsealTpmPrimary config tpm calls)
    pure (some key)

def ensureEnrollEncryptionAllowed : Except String Unit :=
  if machine.material.method = .none ∧ config.allowPlaintext = false then
    .error ("refusing to enroll: encryption.method = \"none\" would store your face template as " ++
      "plaintext biometric data. Enable encryption (the default \"keyfile\"/\"tpm\"), or, to " ++
      "intentionally store plaintext, set security.allow_plaintext = true.")
  else .ok ()

/-- `open_store` creates a database that is not there. -/
def openStore : Prog Machine String Unit :=
  Prog.act fun machine =>
    (calls.openStore.mapError (context "failed to open database")).map fun _ =>
      { machine with database := some machine.contents }

/-- The blob that `persist_enrollment` stores for a template. -/
def storedBlob (key : Option AesKey) (template : Template) : Blob :=
  match key with
  | none => template.blob
  | some key => .software key.toKey template.blob

def persistEnrollment (keyIdOf : AesKey → String) (user label : String)
    (deviceId : Option String) (templates : List Template) (key : Option AesKey) :
    Prog Machine String Unit :=
  Prog.act fun machine =>
    match calls.commit with
    | .error e => .error e
    | .ok () =>
      (machine.contents.replaceModelWithEmbeddings user label (templates.map (storedBlob key))
        key.isSome deviceId (key.map keyIdOf)).map fun database =>
          { machine with database := some database }

def enroll (keyIdOf : AesKey → String) (user label : String) (deviceId : Option String)
    (templates : List Template) : Prog Machine String Unit := do
  Prog.read (ensureEnrollEncryptionAllowed config)
  openStore calls
  let method ← Prog.read fun machine => .ok machine.material.method
  let key ← primaryKey config tpm calls method
  persistEnrollment calls keyIdOf user label deviceId templates key

end Programs

/-! ## Operations -/

/-- The ways to remove models: `remove_model`, `remove_model_by_label`,
`clear_user` and `clear_all`. -/
inductive Removal where
  | model (user : String) (id : Nat)
  | label (user label : String)
  | user (user : String)
  | all

def Removal.deletes : Removal → FaceModel → Bool
  | .model owner id, face => face.id = id && face.user = owner
  | .label owner name, face => face.user = owner && face.label = name
  | .user owner, face => face.user = owner
  | .all, _ => true

def removeModels (calls : SetupCalls Pcrs) (removal : Removal) : Prog Machine String Unit :=
  Prog.act fun machine =>
    calls.commit.map fun _ =>
      { machine with database := machine.database.map (·.deleteModels removal.deletes) }

inductive Operation where
  | setup (choice : EncryptionChoice)
  | sealKey
  | unsealKey
  | remove (removal : Removal)
  | enroll (user label : String) (deviceId : Option String) (templates : List Template)

/-- An operation with what its calls answer. -/
structure Request (Pcrs : Type) where
  operation : Operation
  calls : SetupCalls Pcrs

section Histories

variable (config : SetupConfig) (tpm : Tpm Pcrs) (keyIdOf : AesKey → String)

def Request.program (request : Request Pcrs) : Prog Machine String Unit :=
  match request.operation with
  | .setup choice => applyEncryptionChoice config tpm request.calls choice
  | .sealKey => onMaterial (sealKey config.toKeyConfig tpm request.calls.toCalls)
  | .unsealKey => onMaterial (unsealKeyCommand config.toKeyConfig tpm request.calls.toCalls)
  | .remove removal => removeModels request.calls removal
  | .enroll user label deviceId templates =>
    Facelock.Keys.enroll config tpm request.calls keyIdOf user label deviceId templates

def history (requests : List (Request Pcrs)) : Prog Machine String Unit :=
  inTurn (requests.map (Request.program config tpm keyIdOf))

end Histories

/-- No key artifact and an empty store. -/
def freshMachine (method : EncryptionMethod) (database : Option Database) : Machine where
  material := { method, keyFile := none, sealedKey := none }
  database := database

/-! ## Enrollments seal under held keys -/

section Proofs

variable {config : SetupConfig} {tpm : Tpm Pcrs} {calls : SetupCalls Pcrs} {machine : Machine}
  {keyIdOf : AesKey → String}

theorem held_of_keyFromFile {key} {f : String → String}
    (h : (keyFromFile config calls machine).mapError f = .ok key) :
    Held tpm machine.material key := by
  obtain ⟨data, hread, h⟩ := bind_eq_ok (mapError_eq_ok h)
  split_ifs at h with hlength
  cases h
  exact .inl (readFile_eq_ok hread)

theorem held_of_unsealTpmPrimary {key} (h : unsealTpmPrimary config tpm calls machine = .ok key) :
    Held tpm machine.material key := by
  obtain ⟨-, -, h⟩ := bind_eq_ok h
  exact .inr (sealedHolds_of_unsealKeyFromFile (mapError_eq_ok h))

/-- The key that is loaded is held when it is loaded. -/
theorem moves_primaryKey (method : EncryptionMethod) :
    (primaryKey config tpm calls method).Moves (Advances tpm)
      (fun result final => ∀ key, result = .ok (some key) → Held tpm final.material key)
      machine := by
  cases method with
  | none =>
    refine moves_pure fun key hkey => ?_
    cases hkey
  | keyfile =>
    refine moves_bind (moves_mapError (moves_bind ?_))
    refine moves_ensureEncryptByDefaultKey.mono fun result final _ => ?_
    cases result with
    | error e =>
      intro key hkey
      cases hkey
    | ok decision =>
      refine moves_bind (moves_ofResult ?_)
      cases decision.refusal with
      | some refusal =>
        intro key hkey
        cases hkey
      | none =>
        refine moves_read ?_
        cases hread : (keyFromFile config calls final).mapError
            (unreadableKeyFile config calls final) with
        | error e =>
          intro key hkey
          cases hkey
        | ok key =>
          refine moves_pure fun other hother => ?_
          cases hother
          exact held_of_keyFromFile hread
  | tpm =>
    refine moves_bind (moves_read ?_)
    cases hunseal : unsealTpmPrimary config tpm calls machine with
    | error e =>
      intro key hkey
      cases hkey
    | ok key =>
      refine moves_pure fun other hother => ?_
      cases hother
      exact held_of_unsealTpmPrimary hunseal

/-- A stored template that is encrypted opens under the key of the
enrollment. -/
theorem opensUnder_of_encrypted {key template row} (hblob : row.blob = storedBlob key template)
    (h : Encrypted row) : ∃ primary, key = some primary ∧ row.blob.OpensUnder primary.toKey := by
  cases key with
  | some primary => exact ⟨primary, rfl, template.blob, hblob⟩
  | none =>
    have hlength : row.blob.length = Blob.rawEmbeddingSize := by
      rw [hblob]
      exact template.length_eq
    rcases h with hsoftware | hsealed
    · exact absurd hlength (Blob.length_ne_of_isSoftwareEncrypted hsoftware)
    · exact absurd hlength (Blob.length_ne_of_isSealed hsealed)

theorem mem_replaceModelWithEmbeddings {database next : Database}
    {user label blobs sealed deviceId keyId row}
    (h : database.replaceModelWithEmbeddings user label blobs sealed deviceId keyId = .ok next)
    (hrow : row ∈ next.store.embeddings) : row ∈ database.store.embeddings ∨ row.blob ∈ blobs := by
  unfold Database.replaceModelWithEmbeddings at h
  split at h
  · cases h
  · rename_i store hstore
    cases h
    unfold FaceStore.replaceModelWithEmbeddings at hstore
    split_ifs at hstore
    cases hstore
    rcases mem_append.mp hrow with hkept | hnew
    · exact .inl (mem_of_mem_filter hkept)
    · obtain ⟨⟨blob, id⟩, hpair, rfl⟩ := mem_map.mp hnew
      exact .inr (of_mem_zip hpair).1

theorem moves_persistEnrollment {user label : String} {deviceId templates key}
    (hkey : ∀ primary, key = some primary → Held tpm machine.material primary) :
    (persistEnrollment calls keyIdOf user label deviceId templates key).Steps (Advances tpm)
      machine := by
  refine moves_act (fun next hnext => ⟨?_, trivial⟩) fun _ _ => trivial
  split at hnext
  · cases hnext
  · obtain ⟨database, hreplace, rfl⟩ := map_eq_ok hnext
    refine { material := .refl _ _, rows := fun row hrow hencrypted => ?_ }
    rcases mem_replaceModelWithEmbeddings hreplace hrow with hold | hnew
    · exact .inl hold
    · obtain ⟨template, -, hblob⟩ := mem_map.mp hnew
      obtain ⟨primary, hprimary, hopens⟩ := opensUnder_of_encrypted hblob.symm hencrypted
      exact .inr ⟨primary, hopens, hkey primary hprimary⟩

theorem moves_openStore : (openStore calls).Steps (Advances tpm) machine := by
  refine moves_act (fun next hnext => ⟨?_, trivial⟩) fun _ _ => trivial
  obtain ⟨-, -, rfl⟩ := map_eq_ok hnext
  exact .delete fun _ hrow => hrow

theorem moves_enroll (user label : String) (deviceId : Option String) (templates : List Template) :
    (enroll config tpm calls keyIdOf user label deviceId templates).Steps (Advances tpm)
      machine := by
  refine steps_read fun _ _ => steps_bind moves_openStore fun _ final _ => ?_
  refine steps_read fun method _ => ?_
  refine steps_bind (moves_primaryKey method) fun key final hheld => ?_
  exact moves_persistEnrollment fun primary hprimary => hheld primary (by rw [hprimary])

/-! ## Histories -/

theorem moves_removeModels (removal : Removal) :
    (removeModels calls removal).Steps (Advances tpm) machine := by
  refine moves_act (fun next hnext => ⟨?_, trivial⟩) fun _ _ => trivial
  obtain ⟨-, -, rfl⟩ := map_eq_ok hnext
  refine .delete fun row hrow => ?_
  unfold Machine.rows Machine.contents at hrow ⊢
  cases hdatabase : machine.database with
  | none =>
    rw [hdatabase] at hrow
    exact hrow
  | some database =>
    rw [hdatabase] at hrow
    exact mem_of_mem_filter hrow

theorem moves_request (htpm : tpm.Correct) (request : Request Pcrs) (machine : Machine) :
    (request.program config tpm keyIdOf).Steps (Advances tpm) machine := by
  unfold Request.program
  split
  · exact moves_applyEncryptionChoice htpm _
  · exact moves_onMaterial (moves_sealKey htpm)
  · exact moves_onMaterial moves_unsealKeyCommand
  · exact moves_removeModels _
  · exact moves_enroll _ _ _ _

theorem moves_history (htpm : tpm.Correct) (requests : List (Request Pcrs)) (machine : Machine) :
    (history config tpm keyIdOf requests).Steps (Advances tpm) machine := by
  refine moves_inTurn (fun program hprogram state => ?_) machine
  obtain ⟨request, -, rfl⟩ := mem_map.mp hprogram
  exact moves_request htpm request state

end Proofs

/-- In every state of every history from no key artifacts and an empty
store: an artifact that has bytes keeps them from then on, a key that comes
to be held in the next step is new only if no encrypted row is stored, and
every encrypted row is sealed under a key that is held. -/
theorem history_keeps_keys (config : SetupConfig) {tpm : Tpm Pcrs} (htpm : tpm.Correct)
    (keyIdOf : AesKey → String) (method : EncryptionMethod) (database : Option Database)
    (hempty : (freshMachine method database).rows = []) (requests : List (Request Pcrs))
    (n : Nat) :
    let run := (history config tpm keyIdOf requests).run (freshMachine method database)
    (∀ artifact bytes, (run.cut n).material.file artifact = some bytes → bytes ≠ [] →
      ∀ later, (run.cut (n + later)).material.file artifact = some bytes) ∧
    (∀ key, Held tpm (run.cut (n + 1)).material key → ¬ Held tpm (run.cut n).material key →
      ∀ row ∈ (run.cut n).rows, ¬ Encrypted row) ∧
    (∀ row ∈ (run.cut n).rows, Encrypted row →
      ∃ key, row.blob.OpensUnder key.toKey ∧ Held tpm (run.cut n).material key) := by
  intro run
  have hmoves : run.Moves (Advances tpm) (fun _ _ => True) (freshMachine method database) :=
    moves_history htpm requests _
  have hstep : ∀ i, Advances tpm (run.cut i) (run.cut (i + 1)) := hmoves.cut_succ Advances.refl
  refine ⟨?_, ?_, ?_⟩
  · intro artifact bytes hfile hne later
    induction later with
    | zero => exact hfile
    | succ later ih => exact (hstep (n + later)).material.keeps artifact bytes ih hne
  · intro key hheld hnew
    exact ((hstep n).material.creates key hheld).resolve_left hnew
  · refine hmoves.cut (fun _ _ hadvance => hadvance.readable) ?_ n
    intro row hrow
    rw [hempty] at hrow
    cases hrow

/-- A TPM without PCRs that takes keys only. -/
def keyTpm : Tpm Unit where
  create _ indices data :=
    if indices.isNone && data.length == 32 then .ok ([], data)
    else .error (tpmError "TPM seal failed")
  loadAndUnseal _ _ _ privBytes :=
    if privBytes.length = 32 then .ok privBytes else .error (tpmError "TPM load failed")

theorem sealedBlob_no_public (privBytes : Bytes) :
    sealedBlob none [] privBytes = 1 :: 0 :: 0 :: 0 :: 0 :: privBytes := by
  simp [sealedBlob, toLeBytes, Blob.sealedVersionByte]

theorem parseSealedBlob_no_public (privBytes : Bytes) :
    parseSealedBlob (1 :: 0 :: 0 :: 0 :: 0 :: privBytes) = .ok (none, [], privBytes) := by
  rw [← sealedBlob_no_public]
  exact parse_sealedBlob nofun (by decide)

theorem keyTpm_correct : keyTpm.Correct := by
  intro pcrs pcrs' pcrIndices data blob length unsealed hseal hunseal
  obtain ⟨hdata, rfl⟩ : data.length = 32 ∧ blob = 1 :: 0 :: 0 :: 0 :: 0 :: data := by
    unfold sealBytes keyTpm at hseal
    cases pcrIndices with
    | some indices => cases hseal
    | none =>
      simp only [Option.isNone_none, Bool.true_and, beq_iff_eq] at hseal
      split_ifs at hseal with hdata
      · cases hseal
        exact ⟨hdata, sealedBlob_no_public data⟩
      · cases hseal
  match length with
  | 0 | 1 | 2 | 3 | 4 => cases hunseal
  | n + 5 =>
    have hpart : (1 :: 0 :: 0 :: 0 :: 0 :: data : Bytes).take (n + 5) =
        1 :: 0 :: 0 :: 0 :: 0 :: data.take n := rfl
    rw [hpart] at hunseal
    simp only [unsealBytes, parseSealedBlob_no_public, bind, Except.bind, keyTpm] at hunseal
    split_ifs at hunseal with hlength
    rw [length_take] at hlength
    rw [← Except.ok.inj hunseal]
    exact take_of_length_le (by omega)

/-- The calls of an operation, all of which work. -/
def worksWith (detectTpm : Bool) (key : AesKey) : SetupCalls Unit where
  pcrs := ()
  tpmSealer := .ok ()
  readKeyFile := .ok ()
  readSealedKey := .ok ()
  createFile := .ok ()
  ensureMode := .ok ()
  writeFails := none
  updateConfig := .ok true
  detectTpm := detectTpm
  interactive := false
  confirm := .ok false
  openStore := .ok ()
  countModels := .ok ()
  clearAll := .ok ()
  lockStore := .ok ()
  blobShapes := .ok ()
  createKeyFile := .ok ()
  commit := .ok ()
  randomKey := key

def plainConfig : SetupConfig where
  keyPath := "/etc/facelock/encryption.key"
  sealedKeyPath := "/etc/facelock/encryption.key.sealed"
  pcrBinding := false
  pcrIndices := [0, 1, 2, 3, 7]
  tcti := "device:/dev/tpmrm0"
  dbPath := "/var/lib/facelock/facelock.db"
  allowPlaintext := false

/-- An enrollment under a new key file, and then a switch to the TPM. -/
def switchToTpm : List (Request Unit) :=
  [⟨.setup .keyfile, worksWith false (equalBytes 1)⟩,
    ⟨.enroll "user" "face" none [zeroTemplate, zeroTemplate, zeroTemplate],
      worksWith false (equalBytes 2)⟩,
    ⟨.setup .tpm, worksWith true (equalBytes 3)⟩]

/-- The switch seals the key of the key file, under which the rows are
sealed. -/
theorem history_keeps_keys_switch :
    let run := (history plainConfig keyTpm (fun _ => "key") switchToTpm).run
      (freshMachine .none none)
    keyTpm.Correct ∧ (freshMachine .none none).rows = [] ∧
    (run.final.rows.length = 3 ∧
      run.final.material.sealedKey = some (sealedBlob none [] (equalBytes 1).val)) ∧
    (∀ artifact bytes, (run.cut 3).material.file artifact = some bytes → bytes ≠ [] →
      ∀ later, (run.cut (3 + later)).material.file artifact = some bytes) ∧
    (∀ key, Held keyTpm (run.cut (3 + 1)).material key → ¬ Held keyTpm (run.cut 3).material key →
      ∀ row ∈ (run.cut 3).rows, ¬ Encrypted row) ∧
    (∀ row ∈ (run.cut 3).rows, Encrypted row →
      ∃ key, row.blob.OpensUnder key.toKey ∧ Held keyTpm (run.cut 3).material key) := by
  intro run
  refine ⟨keyTpm_correct, rfl, by decide +kernel, ?_⟩
  exact history_keeps_keys plainConfig keyTpm_correct (fun _ => "key") .none none rfl switchToTpm 3

end Facelock.Keys
