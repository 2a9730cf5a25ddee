import Facelock.Lib.Transition
import Facelock.Templates.Store

/-!
# The key file, the daemons and the store

Three parties share one key file and one database: daemons that load the
key when they start (`SealingKeys::load` and `refresh_primary` of
`crates/facelock-daemon/src/keyring.rs` over the gate of `key_policy.rs`),
their enrollments (`persist_enrollment` of `enroll.rs`), and
`facelock tpm encrypt --generate-key` (`generate_key_serialized` of
`crates/facelock-cli/src/commands/encrypt.rs`).  The method is `keyfile`
and the database exists.  Without one the generator takes no lock, and
nothing here is said about that.

The gate and the generator hold the database in an exclusive section, and
an enrollment is one transaction, so these exclude each other.  The gate
writes the key file by a rename, and its section is one step.  The
generator truncates the file and then writes it, and a daemon may read in
between: the reader takes no lock.

A daemon keeps the key that it has loaded.  While a sealed row is there, no
step changes the key file (`keyFile_eq_of_sealed`), so whether a row can be
read is decided when it is committed: exactly if the key file holds the
daemon's key then (`committed_readable_iff`).
-/

namespace Facelock.Templates

open Facelock.Transition List

/-! ## State -/

inductive KeyFile where
  | absent
  | holds (key : Key)
  /-- A file that is not 32 bytes long. -/
  | malformed (length : Nat)
  | symlink
  deriving DecidableEq, Repr

/-- Where a daemon stands.  `running` keeps the primary key, or the reason why
there is none. -/
inductive DaemonPhase where
  | starting
  | gated
  | reading
  | running (primary : Except String Key)

/-- Where the generator in the exclusive section stands. -/
inductive Generator where
  | checked
  | truncated
  deriving DecidableEq, Repr

structure KeySystem where
  store : FaceStore
  keyFile : KeyFile
  exclusive : Option Generator
  daemons : List DaemonPhase

/-- The paths of the configuration. -/
structure KeyPaths where
  keyPath : String
  sealedKeyPath : String

/-- A template: 512 floats. -/
structure Template where
  blob : Blob
  length_eq : blob.length = Blob.rawEmbeddingSize

/-! ## The gate -/

def symlinkKeyRefusal (path : String) : String :=
  "refusing to use a symlink as the encryption key file: " ++ path ++ " is a symbolic link. " ++
    "Replace it with the key file itself, or point encryption.key_path at the real file."

section

variable (keyIdOf : Key → String) (store : FaceStore) (paths : KeyPaths)

/-- `encrypted_rows_at_risk`: what a new key would orphan. -/
def encryptedRowsAtRisk : Option String :=
  let software := store.embeddings.countP fun row => row.blob.isSoftwareEncrypted
  let tpm := store.embeddings.countP fun row => row.blob.isSealed
  if software = 0 && tpm = 0 then none
  else
    let found :=
      (if 0 < software then
        [toString software ++ " row(s) are software-encrypted (method \"keyfile\", key file " ++
          paths.keyPath ++ ")"]
      else []) ++
      (if 0 < tpm then
        [toString tpm ++ " row(s) are TPM-sealed (method \"tpm\", sealed key " ++
          paths.sealedKeyPath ++ ")"]
      else [])
    some (String.intercalate "; " found ++
      ". A new key cannot read them, and writing one makes a later restore of the original " ++
      "useless. Restore the key artifacts for the encryption method that wrote those rows, or " ++
      "clear the encrypted enrollments with `facelock clear` and enroll again. The daemon " ++
      "re-checks the key on the next authentication or enrollment attempt.")

def keyCreationRefusal : Option String :=
  (encryptedRowsAtRisk store paths).map fun atRisk =>
    "refusing to write an encryption key at " ++ paths.keyPath ++ ": " ++ atRisk

/-- `decide_and_create`: the key file and the phase it leaves.  `created` is
the new key, or the reason why the file could not be created. -/
def decideAndCreate (store : FaceStore) (keyFile : KeyFile)
    (created : Except String Key) : KeyFile × DaemonPhase :=
  match keyFile with
  | .symlink => (.symlink, .running (.error (symlinkKeyRefusal paths.keyPath)))
  | .holds key => (.holds key, .reading)
  | .malformed length => (.malformed length, .reading)
  | .absent =>
    match keyCreationRefusal store paths with
    | some refusal => (.absent, .running (.error refusal))
    | none =>
      match created with
      | .ok key => (.holds key, .reading)
      | .error cause =>
        (.absent, .running (.error ("no encryption key could be created at " ++ paths.keyPath ++
          ": " ++ cause)))

def fromKeyFile (path : String) : KeyFile → Except String Key
  | .holds key => .ok key
  | .symlink => .error ("encryption error: " ++ symlinkKeyRefusal path)
  | .absent =>
    .error ("encryption error: failed to read key file " ++ path ++
      ": No such file or directory (os error 2)")
  | .malformed length =>
    .error ("encryption error: key file " ++ path ++ " must be exactly 32 bytes, got " ++
      if 32 < length then "more than 32" else toString length)

/-- The end of `resolve_keyfile_sealer`. -/
def readKeyFile (store : FaceStore) (keyFile : KeyFile) : Except String Key :=
  (fromKeyFile paths.keyPath keyFile).mapError fun e =>
    let complaint := paths.keyPath ++ " keyfile could not be read: " ++ e
    match encryptedRowsAtRisk store paths with
    | some atRisk => complaint ++ " — " ++ atRisk
    | none => complaint

/-! ## Steps -/

/-- What can happen.  A process that is killed in its exclusive section gives
it up with `killGenerator`, and any other process that is killed has no
events any more. -/
inductive KeyEvent where
  | startDaemon
  | stat (daemon : Nat)
  | gate (daemon : Nat) (created : Except String Key)
  | gateFails (daemon : Nat) (reason : String)
  | read (daemon : Nat)
  | refresh (daemon : Nat)
  | enroll (daemon : Nat) (user label : String) (deviceId : Option String)
      (templates : List Template)
  | beginGenerate
  | truncate
  | write (key : Key)
  | failWrite (length : Nat)
  | killGenerator

/-- The transaction of an enrollment under the key of its daemon. -/
def commitEnrollment (key : Key)
    (user label : String) (deviceId : Option String) (templates : List Template) :
    Except String FaceStore :=
  store.replaceModelWithEmbeddings user label
    (templates.map fun template => .software key template.blob) true deviceId
    (some (keyIdOf key))

def daemonStep (system : KeySystem) (i : Nat) : DaemonPhase → KeyEvent → Option KeySystem
  | .starting, .stat _ =>
    -- the fast path of the gate takes no lock
    match system.keyFile with
    | .holds _ | .malformed _ => some { system with daemons := system.daemons.set i .reading }
    | .absent | .symlink => some { system with daemons := system.daemons.set i .gated }
  | .gated, .gate _ created =>
    if system.exclusive = none then
      let (keyFile, phase) := decideAndCreate paths system.store system.keyFile created
      some { system with keyFile, daemons := system.daemons.set i phase }
    else none
  | .gated, .gateFails _ reason =>
    some { system with daemons := system.daemons.set i (.running (.error reason)) }
  | .reading, .read _ =>
    some { system with
      daemons := system.daemons.set i
        (.running (readKeyFile paths system.store system.keyFile)) }
  | .running (.error _), .refresh _ =>
    some { system with daemons := system.daemons.set i .starting }
  | .running (.ok key), .enroll _ user label deviceId templates =>
    if system.exclusive = none then
      match commitEnrollment keyIdOf system.store key user label deviceId templates with
      | .ok store => some { system with store }
      | .error _ => some system
    else none
  | _, _ => none

def KeyEvent.daemon : KeyEvent → Option Nat
  | .stat i | .gate i _ | .gateFails i _ | .read i | .refresh i | .enroll i _ _ _ _ => some i
  | _ => none

def keyStep (event : KeyEvent) (system : KeySystem) : Option KeySystem :=
  match event, system.exclusive with
  | .startDaemon, _ => some { system with daemons := system.daemons ++ [.starting] }
  | .beginGenerate, none =>
    if (keyCreationRefusal system.store paths).isSome then some system
    else some { system with exclusive := some .checked }
  | .truncate, some .checked =>
    match system.keyFile with
    | .symlink => some { system with exclusive := none }
    | _ => some { system with keyFile := .malformed 0, exclusive := some .truncated }
  | .write key, some .truncated =>
    some { system with keyFile := .holds key, exclusive := none }
  | .failWrite length, some .truncated =>
    some { system with keyFile := .malformed length, exclusive := none }
  | .killGenerator, some _ => some { system with exclusive := none }
  | event, _ =>
    event.daemon.bind fun i =>
      (system.daemons[i]?).bind fun phase => daemonStep keyIdOf paths system i phase event

/-- A store, a key file and no daemon yet. -/
def initialKeys (keyFile : KeyFile) : KeySystem where
  store := store
  keyFile := keyFile
  exclusive := none
  daemons := []

end

/-! ## What a step does -/

section Steps

variable {keyIdOf : Key → String} {paths : KeyPaths} {system next : KeySystem} {event : KeyEvent}

/-- The five ways in which a step changes the system. -/
inductive KeyMoves (keyIdOf : Key → String) (paths : KeyPaths) (system : KeySystem) :
    KeyEvent → KeySystem → Prop
  | daemons {event : KeyEvent} (daemons : List DaemonPhase) :
      KeyMoves keyIdOf paths system event { system with daemons }
  | commits {i : Nat} {user label : String} {deviceId : Option String}
      {templates : List Template} {key : Key} {store : FaceStore}
      (hdaemon : system.daemons[i]? = some (.running (.ok key)))
      (hfree : system.exclusive = none)
      (hcommit : commitEnrollment keyIdOf system.store key user label deviceId templates =
        .ok store) :
      KeyMoves keyIdOf paths system (.enroll i user label deviceId templates)
        { system with store }
  | creates {event : KeyEvent} (keyFile : KeyFile) (daemons : List DaemonPhase)
      (hfree : system.exclusive = none)
      (hkey : keyFile = system.keyFile ∨ keyCreationRefusal system.store paths = none) :
      KeyMoves keyIdOf paths system event { system with keyFile, daemons }
  | begins {event : KeyEvent} (hrisk : keyCreationRefusal system.store paths = none) :
      KeyMoves keyIdOf paths system event { system with exclusive := some .checked }
  | generates {event : KeyEvent} (keyFile : KeyFile) (exclusive : Option Generator)
      (hheld : system.exclusive ≠ none) :
      KeyMoves keyIdOf paths system event { system with keyFile, exclusive }

/-- The gate changes the key file only if no row is at risk. -/
theorem decideAndCreate_keyFile (store : FaceStore) (keyFile : KeyFile)
    (created : Except String Key) :
    (decideAndCreate paths store keyFile created).1 = keyFile ∨
      keyCreationRefusal store paths = none := by
  unfold decideAndCreate
  split
  · exact .inl rfl
  · exact .inl rfl
  · exact .inl rfl
  · split
    · exact .inl rfl
    · exact .inr ‹_›

theorem moves_of_daemonStep {i phase} (hevent : event.daemon = some i)
    (hphase : system.daemons[i]? = some phase)
    (h : daemonStep keyIdOf paths system i phase event = some next) :
    KeyMoves keyIdOf paths system event next := by
  unfold daemonStep at h
  split at h
  · split at h <;> cases h
    all_goals exact .daemons _
  · split_ifs at h with hfree
    cases h
    exact .creates _ _ hfree (decideAndCreate_keyFile _ _ _)
  · cases h
    exact .daemons _
  · cases h
    exact .daemons _
  · cases h
    exact .daemons _
  · split_ifs at h with hfree
    cases hevent
    split at h <;> cases h
    · exact .commits hphase hfree ‹_›
    · exact .daemons _
  · cases h

theorem moves_of_keyStep (h : keyStep keyIdOf paths event system = some next) :
    KeyMoves keyIdOf paths system event next := by
  unfold keyStep at h
  split at h
  · cases h
    exact .daemons _
  · split_ifs at h with hrisk
    · cases h
      exact .daemons _
    · cases h
      exact .begins (by simpa using hrisk)
  · rename_i hheld
    split at h <;> cases h
    · exact .generates _ _ (by simp [hheld])
    · exact .generates _ _ (by simp [hheld])
  · rename_i hheld
    cases h
    exact .generates _ _ (by simp [hheld])
  · rename_i hheld
    cases h
    exact .generates _ _ (by simp [hheld])
  · rename_i hheld
    cases h
    exact .generates _ _ (by simp [hheld])
  · obtain ⟨i, hevent, h⟩ := Option.bind_eq_some_iff.mp h
    obtain ⟨phase, hphase, h⟩ := Option.bind_eq_some_iff.mp h
    exact moves_of_daemonStep hevent hphase h

/-! ## Sealed rows hold the key file -/

variable {row : EmbeddingRow}

theorem unencrypted_of_no_risk {store} (h : encryptedRowsAtRisk store paths = none)
    (hrow : row ∈ store.embeddings) :
    row.blob.isSoftwareEncrypted = false ∧ row.blob.isSealed = false := by
  rw [encryptedRowsAtRisk] at h
  split_ifs at h with hzero
  simp only [Bool.and_eq_true, decide_eq_true_eq, countP_eq_zero] at hzero
  exact ⟨by simpa using hzero.1 row hrow, by simpa using hzero.2 row hrow⟩

theorem not_sealed_of_no_refusal {store} (h : keyCreationRefusal store paths = none)
    (hrow : row ∈ store.embeddings) : row.blob.isSoftwareEncrypted = false :=
  (unencrypted_of_no_risk (Option.map_eq_none_iff.mp h) hrow).1

/-- While a generator holds its section, no row is sealed. -/
def SectionClear (system : KeySystem) : Prop :=
  system.exclusive ≠ none → ∀ row ∈ system.store.embeddings,
    row.blob.isSoftwareEncrypted = false

theorem SectionClear.step (hclear : SectionClear system)
    (h : keyStep keyIdOf paths event system = some next) : SectionClear next := by
  cases moves_of_keyStep h with
  | daemons => exact hclear
  | commits hdaemon hfree hcommit => exact fun hheld => absurd hfree hheld
  | creates keyFile daemons hfree hkey => exact hclear
  | begins hrisk => exact fun _ row hrow => not_sealed_of_no_refusal hrisk hrow
  | generates keyFile exclusive hheld => exact fun _ => hclear hheld

/-- No step changes the key file while a sealed row is there. -/
theorem keyFile_eq_of_sealed (hclear : SectionClear system) (hrow : row ∈ system.store.embeddings)
    (hsealed : row.blob.isSoftwareEncrypted = true)
    (h : keyStep keyIdOf paths event system = some next) : next.keyFile = system.keyFile := by
  cases moves_of_keyStep h with
  | daemons => rfl
  | commits => rfl
  | creates keyFile daemons hfree hkey =>
    rcases hkey with hsame | hrisk
    · exact hsame
    · rw [not_sealed_of_no_refusal hrisk hrow] at hsealed
      cases hsealed
  | begins => rfl
  | generates keyFile exclusive hheld =>
    rw [hclear hheld row hrow] at hsealed
    cases hsealed

theorem nextEmbeddingId_le (h : keyStep keyIdOf paths event system = some next) :
    system.store.nextEmbeddingId ≤ next.store.nextEmbeddingId := by
  cases moves_of_keyStep h with
  | daemons | creates | begins | generates => exact Nat.le_refl _
  | commits hdaemon hfree hcommit =>
    rw [commitEnrollment, FaceStore.replaceModelWithEmbeddings] at hcommit
    split_ifs at hcommit
    cases hcommit
    exact Nat.le_add_right _ _

theorem gone_step (hid : row.id < system.store.nextEmbeddingId)
    (hgone : row ∉ system.store.embeddings) (h : keyStep keyIdOf paths event system = some next) :
    row.id < next.store.nextEmbeddingId ∧ row ∉ next.store.embeddings := by
  refine ⟨Nat.lt_of_lt_of_le hid (nextEmbeddingId_le h), ?_⟩
  cases moves_of_keyStep h with
  | daemons | creates | begins | generates => exact hgone
  | commits hdaemon hfree hcommit =>
    rw [commitEnrollment, FaceStore.replaceModelWithEmbeddings] at hcommit
    split_ifs at hcommit
    cases hcommit
    intro hmem
    rcases mem_append.mp hmem with hold | hnew
    · exact hgone (mem_of_mem_filter hold)
    · have hle := (FaceStore.id_of_mem_newRows hnew).1
      omega

theorem keyFile_eq_of_run {events final} (hclear : SectionClear system)
    (hrow : row ∈ system.store.embeddings) (hsealed : row.blob.isSoftwareEncrypted = true)
    (hrun : run (keyStep keyIdOf paths) events system = some final)
    (hfinal : row ∈ final.store.embeddings) : final.keyFile = system.keyFile := by
  induction events generalizing system with
  | nil =>
    cases hrun
    rfl
  | cons event events ih =>
    obtain ⟨next, hnext, hrest⟩ := run_cons_eq_some.mp hrun
    by_cases hmem : row ∈ next.store.embeddings
    · rw [ih (hclear.step hnext) hmem hrest]
      exact keyFile_eq_of_sealed hclear hrow hsealed hnext
    · -- a row that was removed on the way is not there at the end
      have hid : row.id < next.store.nextEmbeddingId :=
        Nat.lt_of_lt_of_le (system.store.embeddings_lt row hrow) (nextEmbeddingId_le hnext)
      have hgone := run_keeps
        (fun _ _ _ (hinv : row.id < _ ∧ row ∉ _) hstep => gone_step hinv.1 hinv.2 hstep)
        ⟨hid, hmem⟩ hrest
      exact absurd hfinal hgone.2

/-- The rows of an enrollment are sealed under the key of its daemon. -/
theorem commit_rows {i user label deviceId templates}
    (h : keyStep keyIdOf paths (.enroll i user label deviceId templates) system = some next)
    (hold : row ∉ system.store.embeddings) (hrow : row ∈ next.store.embeddings) :
    ∃ key, system.daemons[i]? = some (.running (.ok key)) ∧ row.blob.OpensUnder key ∧
      row.blob.isSoftwareEncrypted = true ∧ next.keyFile = system.keyFile := by
  cases moves_of_keyStep h with
  | daemons | creates | begins | generates => exact absurd hrow hold
  | @commits _ _ _ _ _ key _ hdaemon hfree hcommit =>
    rw [commitEnrollment, FaceStore.replaceModelWithEmbeddings] at hcommit
    split_ifs at hcommit
    cases hcommit
    rcases mem_append.mp hrow with hkept | hnew
    · exact absurd (mem_of_mem_filter hkept) hold
    · obtain ⟨⟨blob, id⟩, hpair, rfl⟩ := mem_map.mp hnew
      obtain ⟨template, -, rfl⟩ := mem_map.mp (of_mem_zip hpair).1
      exact ⟨key, hdaemon, ⟨template.blob, rfl⟩,
        Blob.isSoftwareEncrypted_seal key template.length_eq, rfl⟩

/-- A committed row can be read, for as long as it is there, exactly if the
key file held the key of its daemon when the row was committed. -/
theorem committed_readable_iff {store : FaceStore} {keyFile : KeyFile}
    {events later : List KeyEvent} {before after final : KeySystem}
    (hbefore : run (keyStep keyIdOf paths) events (initialKeys store keyFile) = some before)
    {i : Nat} {user label : String} {deviceId : Option String} {templates : List Template}
    (hcommit : keyStep keyIdOf paths (.enroll i user label deviceId templates) before = some after)
    (hlater : run (keyStep keyIdOf paths) later after = some final) {row : EmbeddingRow}
    (hold : row ∉ before.store.embeddings) (hnew : row ∈ after.store.embeddings)
    (hfinal : row ∈ final.store.embeddings) :
    ∃ key, before.daemons[i]? = some (.running (.ok key)) ∧ row.blob.OpensUnder key ∧
      (final.keyFile = .holds key ↔ before.keyFile = .holds key) := by
  have hclear : SectionClear before :=
    run_keeps (fun _ _ _ => SectionClear.step) (fun hheld => absurd rfl hheld) hbefore
  obtain ⟨key, hdaemon, hopens, hsealed, hsame⟩ := commit_rows hcommit hold hnew
  have hkeyFile := keyFile_eq_of_run (hclear.step hcommit) hnew hsealed hlater hfinal
  exact ⟨key, hdaemon, hopens, by rw [hkeyFile, hsame]⟩

/-- Over one existing database: while a sealed row stays stored, no
interleaving of daemons, gates and generators changes the key file. -/
theorem sealed_row_pins_keyFile {store keyFile before final row} (events later : List KeyEvent)
    (hbefore : run (keyStep keyIdOf paths) events (initialKeys store keyFile) = some before)
    (hlater : run (keyStep keyIdOf paths) later before = some final)
    (hrow : row ∈ before.store.embeddings) (hsealed : row.blob.isSoftwareEncrypted = true)
    (hfinal : row ∈ final.store.embeddings) : final.keyFile = before.keyFile := by
  have hclear : SectionClear before :=
    run_keeps (fun _ _ _ => SectionClear.step) (fun hheld => absurd rfl hheld) hbefore
  exact keyFile_eq_of_run hclear hrow hsealed hlater hfinal

end Steps

/-! ## A key that was replaced -/

def emptyStore : FaceStore where
  models := []
  embeddings := []
  nextModelId := 1
  nextEmbeddingId := 1
  models_nodup := nodup_nil
  embeddings_nodup := nodup_nil
  models_lt := by simp
  embeddings_lt := by simp

def defaultPaths : KeyPaths where
  keyPath := "/etc/facelock/encryption.key"
  sealedKeyPath := "/etc/facelock/encryption.key.sealed"

def zeroTemplate : Template where
  blob := .raw (List.replicate Blob.rawEmbeddingSize 0)
  length_eq := length_replicate

def startUp : List KeyEvent :=
  [.startDaemon, .stat 0, .read 0]

def firstEnrollment : KeyEvent :=
  .enroll 0 "alice" "front" none [zeroTemplate, zeroTemplate, zeroTemplate]

/-- A generator that replaces the key. -/
def replaceKey (key : Key) : List KeyEvent :=
  [.beginGenerate, .truncate, .write key]

/-- A daemon that has loaded the key of the file. -/
def loadedDaemon (key : Key) : KeySystem :=
  { initialKeys emptyStore (.holds key) with daemons := [.running (.ok key)] }

/-- Another daemon starts and loads the key. -/
def secondStart : List KeyEvent :=
  [.startDaemon, .stat 1, .read 1]

/-- A daemon enrolls under the key of the file, and another one starts. -/
theorem firstEnrollment_readable :
    ∃ final, run (keyStep (fun _ => "") defaultPaths)
        (startUp ++ firstEnrollment :: secondStart) (initialKeys emptyStore (.holds 1)) =
          some final ∧
      ∃ row ∈ final.store.embeddings, row.blob.OpensUnder 1 ∧ final.keyFile = .holds 1 := by
  have hbefore : run (keyStep (fun _ => "") defaultPaths) startUp
      (initialKeys emptyStore (.holds 1)) = some (loadedDaemon 1) := rfl
  let row : EmbeddingRow :=
    { id := 1, modelId := 1, blob := .software 1 zeroTemplate.blob, sealed := true }
  obtain ⟨after, final, hrun, hcommit, hlater, hrow, hfinal⟩ : ∃ after final,
      run (keyStep (fun _ => "") defaultPaths) (startUp ++ firstEnrollment :: secondStart)
          (initialKeys emptyStore (.holds 1)) = some final ∧
        keyStep (fun _ => "") defaultPaths firstEnrollment (loadedDaemon 1) = some after ∧
        run (keyStep (fun _ => "") defaultPaths) secondStart after = some final ∧
        row ∈ after.store.embeddings ∧ row ∈ final.store.embeddings :=
    ⟨_, _, rfl, rfl, rfl, mem_cons_self, mem_cons_self⟩
  obtain ⟨key, hdaemon, hopens, hiff⟩ :=
    committed_readable_iff hbefore hcommit hlater
      (by simp [loadedDaemon, initialKeys, emptyStore]) hrow hfinal
  cases hdaemon
  exact ⟨final, hrun, row, hfinal, hopens, hiff.mpr rfl⟩

/-- A daemon starts after an enrollment. -/
theorem sealed_row_pins_keyFile_started : ∃ before final,
    run (keyStep (fun _ => "") defaultPaths) (startUp ++ [firstEnrollment])
        (initialKeys emptyStore (.holds 1)) = some before ∧
      run (keyStep (fun _ => "") defaultPaths) secondStart before = some final ∧
      final.keyFile = before.keyFile :=
  ⟨_, _, rfl, rfl, @sealed_row_pins_keyFile (fun _ => "") defaultPaths emptyStore (.holds 1) _ _ _
    (startUp ++ [firstEnrollment]) secondStart rfl rfl mem_cons_self
    (Blob.isSoftwareEncrypted_seal 1 zeroTemplate.length_eq) mem_cons_self⟩

/-- The key is replaced between the start of the daemon and its first
enrollment: the row is sealed under a key that the file no longer holds. -/
theorem enrollment_under_replaced_key : ∃ final, run (keyStep (fun _ => "") defaultPaths)
        (startUp ++ replaceKey 2 ++ [firstEnrollment])
        (initialKeys emptyStore (.holds 1)) = some final ∧
      ∃ row ∈ final.store.embeddings, row.blob.OpensUnder 1 ∧ final.keyFile = .holds 2 := by
  refine ⟨_, rfl, _, mem_cons_self, ⟨_, rfl⟩, rfl⟩

end Facelock.Templates
