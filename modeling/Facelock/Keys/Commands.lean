import Facelock.Keys.Sealing
import Facelock.Lib.Crash

/-!
# The key commands

`facelock tpm seal-key`, `unseal-key` and `reseal` of
`crates/facelock-cli/src/commands/tpm.rs`.  They carry one AES key between
two artifacts: the plaintext key file and the sealed key file.

A file is written in place.  `create_truncate_file` empties what is there,
and the bytes follow in a second step, so a run that is cut in between
leaves an empty file.  `sealKey` and `unsealKey` refuse to start when the
file they write is there already, and can lose nothing.  `runReseal` is made
for a file that is there.  If the sealed key file held a key that is not in
the key file, that key is gone from the truncation on, and it only comes
back if the run gets as far as writing it again.

`command_keeps_held_iff` says exactly when a command keeps every key at
every cut.

Both artifacts are regular files at two different paths, or absent.
-/

namespace Facelock.Keys

open Facelock.Crash
open Facelock.Templates (KeyPaths)

/-! ## State -/

inductive EncryptionMethod where
  | none
  | keyfile
  | tpm
  deriving DecidableEq, Repr

/-- The `Debug` form. -/
def EncryptionMethod.debug : EncryptionMethod → String
  | .none => "None"
  | .keyfile => "Keyfile"
  | .tpm => "Tpm"

/-- The part of the configuration that no command changes. -/
structure KeyConfig extends KeyPaths where
  pcrBinding : Bool
  pcrIndices : List UInt32

def KeyConfig.pcr (config : KeyConfig) : Option (List UInt32) :=
  if config.pcrBinding then some config.pcrIndices else none

/-- What is on disk: `encryption.method` of the configuration file, and the
two key artifacts. -/
structure KeyMaterial where
  method : EncryptionMethod
  keyFile : Option Bytes
  sealedKey : Option Bytes
  deriving DecidableEq, Repr

inductive Artifact where
  | keyFile
  | sealedKey
  deriving DecidableEq, Repr

namespace KeyMaterial

def file (material : KeyMaterial) : Artifact → Option Bytes
  | .keyFile => material.keyFile
  | .sealedKey => material.sealedKey

def withFile (material : KeyMaterial) (bytes : Bytes) : Artifact → KeyMaterial
  | .keyFile => { material with keyFile := some bytes }
  | .sealedKey => { material with sealedKey := some bytes }

end KeyMaterial

/-- What the calls of one run answer.  Every call may fail. -/
structure Calls (Pcrs : Type) where
  pcrs : Pcrs
  /-- `TpmSealer::new`. -/
  tpmSealer : Except String Unit
  readKeyFile : Except String Unit
  readSealedKey : Except String Unit
  createFile : Except String Unit
  ensureMode : Except String Unit
  /-- A write that fails after some of the bytes, with its error. -/
  writeFails : Option (Nat × String)
  /-- Whether there is a configuration file to change. -/
  updateConfig : Except String Bool

/-- `anyhow::Context`. -/
def context (text e : String) : String :=
  text ++ ": " ++ e

variable {Pcrs : Type}

/-! ## Files -/

/-- `create_truncate_file`, and `create_truncate_file_nofollow` where no
link is. -/
def createTruncateFile (calls : Calls Pcrs) (artifact : Artifact) :
    Prog KeyMaterial String Unit := do
  Prog.act fun material => calls.createFile.map fun _ => material.withFile [] artifact
  Prog.read fun _ => calls.ensureMode

/-- `write_all` and `sync_all`. -/
def writeAll (calls : Calls Pcrs) (artifact : Artifact) (bytes : Bytes) :
    Prog KeyMaterial String Unit :=
  match calls.writeFails with
  | none => Prog.act fun material => .ok (material.withFile bytes artifact)
  | some (written, e) => do
    Prog.act fun material => .ok (material.withFile (bytes.take written) artifact)
    Prog.fail e

def readFile (content : Option Bytes) (answer : Except String Unit) : Except String Bytes :=
  match content with
  | none => .error "No such file or directory (os error 2)"
  | some bytes => answer.map fun _ => bytes

/-- `update_config_encryption`, as far as `encryption.method` goes. -/
def updateConfigEncryption (calls : Calls Pcrs) (method : EncryptionMethod) :
    Prog KeyMaterial String Unit :=
  Prog.act fun material =>
    calls.updateConfig.map fun present => if present then { material with method } else material

section Programs

variable (config : KeyConfig) (tpm : Tpm Pcrs) (calls : Calls Pcrs)

def sealKeyToFile (key : AesKey) : Prog KeyMaterial String Unit := do
  let blob ← Prog.read fun _ => sealBytes tpm calls.pcrs config.pcr key.val
  (createTruncateFile calls .sealedKey).mapError fun e =>
    tpmError (context ("failed to create sealed key file " ++ config.sealedKeyPath) e)
  (writeAll calls .sealedKey blob).mapError fun e =>
    tpmError (context ("failed to write sealed key to " ++ config.sealedKeyPath) e)

def writeKeyFile (key : AesKey) : Prog KeyMaterial String Unit := do
  (createTruncateFile calls .keyFile).mapError fun e =>
    "encryption error: " ++ context ("failed to create key file " ++ config.keyPath) e
  (writeAll calls .keyFile key.val).mapError fun e =>
    "encryption error: " ++ context ("failed to write key file " ++ config.keyPath) e

section

variable (material : KeyMaterial)

def unsealKeyFromFile : Except String AesKey := do
  let blob ← (readFile material.sealedKey calls.readSealedKey).mapError fun e =>
    tpmError (context ("failed to read sealed key from " ++ config.sealedKeyPath) e)
  unsealKey tpm calls.pcrs blob

/-- `TpmSealer::new`. -/
def initializeTpm : Prog KeyMaterial String Unit :=
  Prog.read fun _ => calls.tpmSealer.mapError (context "failed to initialize TPM")

/-! ## Sealing and unsealing -/

/-- The key that `seal_existing_keyfile` reads. -/
def existingKey : Except String AesKey := do
  let data ← (readFile material.keyFile calls.readKeyFile).mapError
    (context ("failed to read key file " ++ config.keyPath))
  if h : data.length = 32 then .ok ⟨data, h⟩
  else
    .error ("key file " ++ config.keyPath ++ " must be exactly 32 bytes, got " ++
      toString data.length ++ ": it is not an AES-256 key facelock can seal. Restore the real " ++
      "key, or remove it and re-run to have a new key generated (any embeddings the original " ++
      "sealed become unreadable, so clear them with `facelock clear` if you take that route).")

def sealExistingKeyfile : Prog KeyMaterial String Unit := do
  let key ← Prog.read (existingKey config calls)
  initializeTpm calls
  (sealKeyToFile config tpm calls key).mapError (context "failed to seal key with TPM")

/-- The two refusals of `seal_key`. -/
def sealKeyRefusal : Except String Unit :=
  if material.keyFile.isNone then
    .error ("No plaintext key file found at " ++ config.keyPath ++
      ".\nGenerate one first with: sudo facelock tpm encrypt --generate-key")
  else if material.sealedKey.isSome then
    .error ("Sealed key already exists at " ++ config.sealedKeyPath ++
      ".\nRemove it first if you want to re-seal.")
  else .ok ()

def sealKey : Prog KeyMaterial String Unit := do
  Prog.read (sealKeyRefusal config)
  sealExistingKeyfile config tpm calls
  updateConfigEncryption calls .tpm

def unsealIntoKeyfile : Prog KeyMaterial String Unit := do
  initializeTpm calls
  let key ← Prog.read fun material =>
    (unsealKeyFromFile config tpm calls material).mapError
      (context "failed to unseal key from TPM")
  (writeKeyFile config calls key).mapError (context "failed to write unsealed key")

/-- The two refusals of `unseal_key`. -/
def unsealKeyRefusal : Except String Unit :=
  if material.sealedKey.isNone then
    .error ("No sealed key found at " ++ config.sealedKeyPath ++ ".")
  else if material.keyFile.isSome then
    .error ("Plaintext key already exists at " ++ config.keyPath ++
      ".\nRemove it first if you want to overwrite.")
  else .ok ()

def unsealKeyCommand : Prog KeyMaterial String Unit := do
  Prog.read (unsealKeyRefusal config)
  unsealIntoKeyfile config tpm calls
  updateConfigEncryption calls .keyfile

/-! ## Resealing -/

/-- The refusals of `run_reseal` in front of the TPM. -/
def resealRefusal : Except String Unit :=
  if material.method ≠ .tpm then
    .error ("`facelock tpm reseal` only applies when encryption.method = \"tpm\" (current: " ++
      material.method.debug ++ "). Nothing to reseal.")
  else if material.sealedKey.isNone then
    .error ("no sealed key found at " ++ config.sealedKeyPath ++ " to re-seal.")
  else .ok ()

/-- The key that `run_reseal` recovers: from the blob, or else from the key
file. -/
def recoverKey : Except String AesKey :=
  match unsealKeyFromFile config tpm calls material with
  | .ok key => .ok key
  | .error _ =>
    if material.keyFile.isSome then do
      let data ← (readFile material.keyFile calls.readKeyFile).mapError
        (context ("failed to read key backup " ++ config.keyPath))
      if h : data.length = 32 then .ok ⟨data, h⟩
      else
        .error ("key backup at " ++ config.keyPath ++ " is " ++ toString data.length ++
          " bytes, expected 32")
    else
      .error ("cannot recover the AES key: the sealed blob no longer unseals under the current " ++
        "PCRs and there is no plaintext backup at " ++ config.keyPath ++
        ".\nPassword login still works. Restore a key backup to " ++ config.keyPath ++
        ", then re-run `sudo facelock tpm reseal`, or clear and re-enroll: sudo facelock clear " ++
        "--yes")

end

def runReseal : Prog KeyMaterial String Unit := do
  Prog.read (resealRefusal config)
  initializeTpm calls
  let key ← Prog.read (recoverKey config tpm calls)
  (sealKeyToFile config tpm calls key).mapError
    (context "failed to re-seal key under current PCRs")

end Programs

/-! ## Keys that are held -/

/-- The sealed key file is a complete blob of the key: it unseals under
some PCR values. -/
def SealedHolds (tpm : Tpm Pcrs) (material : KeyMaterial) (key : AesKey) : Prop :=
  ∃ blob pcrs, material.sealedKey = some blob ∧ unsealBytes tpm pcrs blob = .ok key.val

/-- One of the two artifacts gives the key back. -/
def Held (tpm : Tpm Pcrs) (material : KeyMaterial) (key : AesKey) : Prop :=
  material.keyFile = some key.val ∨ SealedHolds tpm material key

variable {tpm : Tpm Pcrs} {material next : KeyMaterial} {key : AesKey}

theorem SealedHolds.congr (h : SealedHolds tpm material key)
    (heq : next.sealedKey = material.sealedKey) : SealedHolds tpm next key := by
  obtain ⟨blob, pcrs, hfile, hunseal⟩ := h
  exact ⟨blob, pcrs, heq.trans hfile, hunseal⟩

theorem not_sealedHolds_of_isNone (h : material.sealedKey = none) :
    ¬ SealedHolds tpm material key := by
  rintro ⟨blob, pcrs, hfile, -⟩
  rw [h] at hfile
  cases hfile

theorem not_sealedHolds_of_truncated (h : material.sealedKey = some []) :
    ¬ SealedHolds tpm material key := by
  rintro ⟨blob, pcrs, hfile, hunseal⟩
  rw [h, Option.some.injEq] at hfile
  rw [← hfile, unsealBytes_nil] at hunseal
  cases hunseal

/-! ## What the programs touch -/

section Keeps

variable {inv : KeyMaterial → Prop} {calls : Calls Pcrs} {config : KeyConfig}
  {artifact : Artifact}

/-- `inv` does not depend on what the file of an artifact holds. -/
def FreeOf (inv : KeyMaterial → Prop) (artifact : Artifact) : Prop :=
  ∀ material bytes, inv material → inv (material.withFile bytes artifact)

theorem keeps_createTruncateFile (h : FreeOf inv artifact) :
    (createTruncateFile calls artifact).Keeps inv := by
  refine keeps_bind (keeps_act ?_) fun _ => keeps_read _
  intro material next hinv hnext
  obtain ⟨-, -, rfl⟩ := map_eq_ok hnext
  exact h material [] hinv

theorem keeps_writeAll (bytes : Bytes) (h : FreeOf inv artifact) :
    (writeAll calls artifact bytes).Keeps inv := by
  unfold writeAll
  split
  · refine keeps_act ?_
    intro material next hinv hnext
    cases hnext
    exact h material bytes hinv
  · rename_i written e _
    refine keeps_bind (keeps_act ?_) fun _ => keeps_fail _
    intro material next hinv hnext
    cases hnext
    exact h material (bytes.take written) hinv

theorem keeps_updateConfigEncryption (method : EncryptionMethod)
    (h : ∀ material : KeyMaterial, inv material → inv { material with method }) :
    (updateConfigEncryption calls method).Keeps inv := by
  refine keeps_act ?_
  intro material next hinv hnext
  obtain ⟨present, -, rfl⟩ := map_eq_ok hnext
  cases present with
  | false => exact hinv
  | true => exact h material hinv

theorem keeps_sealKeyToFile (key : AesKey) (h : FreeOf inv .sealedKey) :
    (sealKeyToFile config tpm calls key).Keeps inv :=
  keeps_reading fun blob =>
    keeps_bind (keeps_mapError (keeps_createTruncateFile h)) fun _ =>
      keeps_mapError (keeps_writeAll blob h)

theorem keeps_sealExistingKeyfile (h : FreeOf inv .sealedKey) :
    (sealExistingKeyfile config tpm calls).Keeps inv :=
  keeps_reading fun key =>
    keeps_reading fun _ => keeps_mapError (keeps_sealKeyToFile key h)

theorem keeps_writeKeyFile (key : AesKey) (h : FreeOf inv .keyFile) :
    (writeKeyFile config calls key).Keeps inv :=
  keeps_bind (keeps_mapError (keeps_createTruncateFile h)) fun _ =>
    keeps_mapError (keeps_writeAll key.val h)

theorem keeps_unsealIntoKeyfile (h : FreeOf inv .keyFile) :
    (unsealIntoKeyfile config tpm calls).Keeps inv :=
  keeps_reading fun _ =>
    keeps_reading fun key => keeps_mapError (keeps_writeKeyFile key h)

theorem keeps_runReseal (h : FreeOf inv .sealedKey) :
    (runReseal config tpm calls).Keeps inv :=
  keeps_reading fun _ =>
    keeps_reading fun _ =>
      keeps_reading fun key => keeps_mapError (keeps_sealKeyToFile key h)

end Keeps

/-! ## Commands -/

inductive Command where
  | sealKey
  | unsealKey
  | reseal
  deriving DecidableEq, Repr

section Commands

variable (config : KeyConfig) (tpm : Tpm Pcrs) (calls : Calls Pcrs)

def Command.program : Command → Prog KeyMaterial String Unit
  | .sealKey => Facelock.Keys.sealKey config tpm calls
  | .unsealKey => unsealKeyCommand config tpm calls
  | .reseal => runReseal config tpm calls

/-- `reseal` gets as far as truncating the sealed key file. -/
def Overwrites (material : KeyMaterial) : Prop :=
  resealRefusal config material = .ok () ∧ calls.tpmSealer = .ok () ∧
    ∃ key blob, recoverKey config tpm calls material = .ok key ∧
      sealBytes tpm calls.pcrs config.pcr key.val = .ok blob ∧ calls.createFile = .ok ()

variable {config tpm calls} {start : KeyMaterial}

theorem sealedKey_of_sealKeyRefusal {value} (h : sealKeyRefusal config start = .ok value) :
    start.sealedKey = none := by
  unfold sealKeyRefusal at h
  split_ifs at h with hkey hsealed
  simpa using hsealed

theorem keyFile_of_unsealKeyRefusal {value} (h : unsealKeyRefusal config start = .ok value) :
    start.keyFile = none := by
  unfold unsealKeyRefusal at h
  split_ifs at h with hsealed hkey
  simpa using hkey

/-- `seal-key` starts only where no sealed key file is, and leaves the key
file alone. -/
theorem sealKey_keeps_held {key} (hheld : Held tpm start key) :
    ((sealKey config tpm calls).run start).Meets (Held tpm · key) fun _ final =>
      Held tpm final key := by
  refine meets_read_bind (fun _ => hheld) fun _ hrefusal => ?_
  have habsent := sealedKey_of_sealKeyRefusal hrefusal
  have hfile : start.keyFile = some key.val := by
    rcases hheld with hfile | hholds
    · exact hfile
    · exact absurd hholds (not_sealedHolds_of_isNone habsent)
  have hkeeps : (sealExistingKeyfile config tpm calls >>= fun _ =>
      updateConfigEncryption calls .tpm).Keeps fun material => material.keyFile = some key.val :=
    keeps_bind (keeps_sealExistingKeyfile fun _ _ h => h) fun _ =>
      keeps_updateConfigEncryption _ fun _ h => h
  exact (hkeeps start hfile).mono (fun _ h => .inl h) fun _ _ h => .inl h

/-- `unseal-key` starts only where no key file is, and leaves the sealed key
file alone. -/
theorem unsealKey_keeps_held {key} (hheld : Held tpm start key) :
    ((unsealKeyCommand config tpm calls).run start).Meets (Held tpm · key) fun _ final =>
      Held tpm final key := by
  refine meets_read_bind (fun _ => hheld) fun _ hrefusal => ?_
  have habsent := keyFile_of_unsealKeyRefusal hrefusal
  have hholds : SealedHolds tpm start key := by
    rcases hheld with hfile | hholds
    · rw [habsent] at hfile
      cases hfile
    · exact hholds
  have hkeeps : (unsealIntoKeyfile config tpm calls >>= fun _ =>
      updateConfigEncryption calls .keyfile).Keeps fun material =>
        material.sealedKey = start.sealedKey :=
    keeps_bind (keeps_unsealIntoKeyfile fun _ _ h => h) fun _ =>
      keeps_updateConfigEncryption _ fun _ h => h
  exact (hkeeps start rfl).mono (fun _ h => .inr (hholds.congr h)) fun _ _ h =>
    .inr (hholds.congr h)

/-- A `reseal` that does not get to the truncation changes nothing. -/
theorem runReseal_idle (h : ¬ Overwrites config tpm calls start) :
    ((runReseal config tpm calls).run start).Meets (· = start) fun _ final => final = start := by
  refine meets_read_bind (fun _ => rfl) fun _ hrefusal => ?_
  refine meets_read_bind (fun _ => rfl) fun _ htpm => ?_
  refine meets_read_bind (fun _ => rfl) fun key hkey => ?_
  rw [meets_mapError]
  refine meets_read_bind (fun _ => rfl) fun blob hblob => ?_
  rw [meets_bind, meets_mapError, createTruncateFile, meets_bind]
  cases hcreate : calls.createFile with
  | ok value => exact absurd ⟨hrefusal, mapError_eq_ok htpm, key, blob, hkey, hblob, hcreate⟩ h
  | error e => rfl

/-- A `reseal` that gets to the truncation is in it after one step. -/
theorem runReseal_truncates (h : Overwrites config tpm calls start) :
    ((runReseal config tpm calls).run start).cut 1 = start.withFile [] .sealedKey := by
  obtain ⟨hrefusal, htpm, key, blob, hkey, hblob, hcreate⟩ := h
  have hact : (Prog.act fun material : KeyMaterial =>
      calls.createFile.map fun _ => material.withFile [] .sealedKey).run start =
        .step start (.done (start.withFile [] .sealedKey) (.ok ())) :=
    run_act_ok (by rw [hcreate]; rfl)
  unfold runReseal initializeTpm sealKeyToFile createTruncateFile Prog.mapError
  simp only [run_bind, run_read, run_attempt, hrefusal, htpm, hkey, hblob, hact, Except.mapError,
    bind_ok, bind_step, attempt_step]
  cases calls.ensureMode with
  | error e => rfl
  | ok value =>
    unfold writeAll
    cases calls.writeFails <;> rfl

/-- A command keeps every key at every cut exactly if it is not a `reseal`
that truncates the only copy of a key. -/
theorem command_keeps_held_iff (config : KeyConfig) (tpm : Tpm Pcrs) (calls : Calls Pcrs)
    (command : Command) (start : KeyMaterial) :
    (∀ n key, Held tpm start key →
        Held tpm (((command.program config tpm calls).run start).cut n) key) ↔
      (command = .reseal → Overwrites config tpm calls start →
        ∀ key, SealedHolds tpm start key → start.keyFile = some key.val) := by
  cases command with
  | sealKey =>
    refine ⟨fun _ h => Command.noConfusion h, fun _ n key hheld => ?_⟩
    exact (sealKey_keeps_held hheld).cut n
  | unsealKey =>
    refine ⟨fun _ h => Command.noConfusion h, fun _ n key hheld => ?_⟩
    exact (unsealKey_keeps_held hheld).cut n
  | reseal =>
    constructor
    · intro hkeeps _ hoverwrites key hholds
      have hheld := hkeeps 1 key (.inr hholds)
      rw [Command.program, runReseal_truncates hoverwrites] at hheld
      rcases hheld with hfile | htruncated
      · exact hfile
      · exact absurd htruncated (not_sealedHolds_of_truncated rfl)
    · intro hbackup n key hheld
      by_cases hoverwrites : Overwrites config tpm calls start
      · have hfile : start.keyFile = some key.val := by
          rcases hheld with hfile | hholds
          · exact hfile
          · exact hbackup rfl hoverwrites key hholds
        have hkeeps : (runReseal config tpm calls).Keeps fun material =>
            material.keyFile = some key.val := keeps_runReseal fun _ _ h => h
        exact .inl ((hkeeps start hfile).cut n)
      · have hidle := (runReseal_idle hoverwrites).cut n
        rw [Command.program, hidle]
        exact hheld

end Commands

/-! ## Two ways to lose a key -/

/-- A TPM with one PCR.  A bound object opens under the value it was made
under. -/
def onePcr : Tpm Bool where
  create pcrs indices data := .ok ([if indices.isSome && pcrs then 1 else 0], data)
  loadAndUnseal pcrs indices pubBytes privBytes :=
    if indices.isNone || pubBytes == [if pcrs then 1 else 0] then .ok privBytes
    else .error (tpmError "TPM unseal failed: a policy check failed")

def allWork (pcrs : Bool) : Calls Bool where
  pcrs := pcrs
  tpmSealer := .ok ()
  readKeyFile := .ok ()
  readSealedKey := .ok ()
  createFile := .ok ()
  ensureMode := .ok ()
  writeFails := none
  updateConfig := .ok true

def boundToPcr : KeyConfig where
  keyPath := "/etc/facelock/encryption.key"
  sealedKeyPath := "/etc/facelock/encryption.key.sealed"
  pcrBinding := true
  pcrIndices := [7]

/-- The key of 32 equal bytes. -/
def equalBytes (byte : UInt8) : AesKey :=
  ⟨List.replicate 32 byte, List.length_replicate⟩

/-- The sealed key file is the only copy of the key. -/
def onlySealed : KeyMaterial where
  method := .tpm
  keyFile := none
  sealedKey := some (sealedBlob (some [7]) [1] (equalBytes 1).val)

/-- The key file holds another key than the sealed key file. -/
def diverged : KeyMaterial :=
  { onlySealed with keyFile := some (equalBytes 2).val }

/-- Cut after its first step, `reseal` leaves an empty file in the place of
the only copy of a key.  And after a change of the bound PCR it replaces the
sealed key by the key of the key file, and reports success. -/
theorem reseal_loses_key : (Held onePcr onlySealed (equalBytes 1) ∧
      ¬ Held onePcr (((Command.reseal.program boundToPcr onePcr (allWork true)).run
        onlySealed).cut 1) (equalBytes 1)) ∧
    (Held onePcr diverged (equalBytes 1) ∧
      ((Command.reseal.program boundToPcr onePcr (allWork false)).run diverged).result = .ok () ∧
      ¬ Held onePcr ((Command.reseal.program boundToPcr onePcr (allWork false)).run
        diverged).final (equalBytes 1)) := by
  have hsealed : unsealBytes onePcr true (sealedBlob (some [7]) [1] (equalBytes 1).val) =
      .ok (equalBytes 1).val := by decide +kernel
  have hcut : ((Command.reseal.program boundToPcr onePcr (allWork true)).run onlySealed).cut 1 =
      { onlySealed with sealedKey := some [] } := by decide +kernel
  have hfinal : ((Command.reseal.program boundToPcr onePcr (allWork false)).run diverged).final =
      { diverged with sealedKey := some (sealedBlob (some [7]) [0] (equalBytes 2).val) } := by
    decide +kernel
  refine ⟨⟨.inr ⟨_, true, rfl, hsealed⟩, ?_⟩, .inr ⟨_, true, rfl, hsealed⟩, by decide +kernel, ?_⟩
  · rintro (hfile | hholds)
    · cases hfile
    · exact not_sealedHolds_of_truncated rfl hholds
  · rintro (hfile | ⟨blob, pcrs, hblob, hunseal⟩)
    · exact absurd hfile (by decide +kernel)
    · cases hblob
      have hother : unsealBytes onePcr pcrs (sealedBlob (some [7]) [0] (equalBytes 2).val) ≠
          .ok (equalBytes 1).val := by
        revert pcrs
        decide +kernel
      exact hother hunseal

end Facelock.Keys
