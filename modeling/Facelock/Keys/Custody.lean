import Facelock.Keys.Setup
import Facelock.Lib.Moves
import Mathlib.Data.Nat.Digits.Lemmas

/-!
# Custody of keys

What one step of a setup may do to the keys.  `MaterialStep` is about the
key material: a file that has bytes keeps them, and a key that comes to be
held was held before, or keys may be minted freely.  `Advances` is the same
about a machine.  Keys may be minted there while no encrypted row is stored,
and an encrypted row that is new is sealed under a key that is held.

Every program of the setup is a sequence of such steps.  The lemmas follow
the programs: the two files first, then the actions that carry a key
across, the two guards in front of a mint, and the four choices.

The TPM is trusted in one respect.  What it unseals from a blob, or from
the part of it that an interrupted write leaves, is what was sealed
(`Tpm.Correct`).  That it unseals at all is not assumed.
-/

namespace Facelock.Keys

open Facelock.Crash
open Facelock.Templates

variable {Pcrs : Type}

/-- A blob unseals to what was sealed, and so does a part of it, if it
unseals at all. -/
def Tpm.Correct (tpm : Tpm Pcrs) : Prop :=
  ∀ pcrs pcrs' pcrIndices data blob length unsealed,
    sealBytes tpm pcrs pcrIndices data = .ok blob →
      unsealBytes tpm pcrs' (blob.take length) = .ok unsealed → unsealed = data

/-! ## The key material -/

/-- A step of the key material.  `free` says that keys may be minted. -/
structure MaterialStep (tpm : Tpm Pcrs) (free : Prop) (before after : KeyMaterial) : Prop where
  keeps : ∀ artifact bytes, before.file artifact = some bytes → bytes ≠ [] →
    after.file artifact = some bytes
  creates : ∀ key, Held tpm after key → Held tpm before key ∨ free

section Material

variable {tpm : Tpm Pcrs} {free : Prop} {material : KeyMaterial} {artifact : Artifact}
  {key : AesKey} {config : KeyConfig} {calls : Calls Pcrs}

theorem AesKey.val_ne_nil (key : AesKey) : key.val ≠ [] := by
  intro hnil
  have hlength := key.property
  rw [hnil] at hlength
  cases hlength

/-- An empty file in the place of no file changes nothing about the keys. -/
theorem held_truncated_iff (habsent : material.file artifact = none) :
    Held tpm (material.withFile [] artifact) key ↔ Held tpm material key := by
  cases artifact with
  | keyFile =>
    have hnew : ¬ (some [] = some key.val) := by
      intro heq
      exact key.val_ne_nil (Option.some.inj heq).symm
    have hold : ¬ (material.keyFile = some key.val) := by
      intro heq
      cases habsent.symm.trans heq
    exact ⟨fun h => .inr (h.resolve_left hnew), fun h => .inr (h.resolve_left hold)⟩
  | sealedKey =>
    have hnew : ¬ SealedHolds tpm (material.withFile [] .sealedKey) key :=
      not_sealedHolds_of_truncated rfl
    have hold : ¬ SealedHolds tpm material key := not_sealedHolds_of_isNone habsent
    exact ⟨fun h => .inl (h.resolve_right hnew), fun h => .inl (h.resolve_right hold)⟩

theorem held_of_part_keyFile {other length}
    (h : Held tpm (material.withFile (key.val.take length) .keyFile) other) :
    other = key ∨ Held tpm material other := by
  rcases h with hfile | hholds
  · left
    have heq : key.val.take length = other.val := Option.some.inj hfile
    have hlength : (key.val.take length).length = 32 := by
      rw [heq]
      exact other.property
    rw [List.length_take, key.property] at hlength
    rw [List.take_of_length_le (by rw [key.property]; omega)] at heq
    exact Subtype.ext heq.symm
  · exact .inr (.inr hholds)

theorem held_of_part_sealedKey (htpm : tpm.Correct) {other pcrs pcrIndices blob length}
    (hblob : sealBytes tpm pcrs pcrIndices key.val = .ok blob)
    (h : Held tpm (material.withFile (blob.take length) .sealedKey) other) :
    other = key ∨ Held tpm material other := by
  rcases h with hfile | ⟨part, pcrs', hpart, hunseal⟩
  · exact .inr (.inl hfile)
  · left
    cases hpart
    exact Subtype.ext (htpm _ _ _ _ _ _ _ hblob hunseal)

theorem MaterialStep.truncate (habsent : material.file artifact = none) :
    MaterialStep tpm free material (material.withFile [] artifact) where
  keeps := by
    intro other bytes hfile _
    cases artifact <;> cases other <;> first | exact hfile | cases habsent.symm.trans hfile
  creates := fun _ h => .inl ((held_truncated_iff habsent).mp h)

variable {bytes : Bytes}

theorem MaterialStep.write (hempty : material.file artifact = some [])
    (hcreates : ∀ key, Held tpm (material.withFile bytes artifact) key →
      Held tpm material key ∨ free) :
    MaterialStep tpm free material (material.withFile bytes artifact) where
  keeps := by
    intro other content hfile hne
    cases artifact <;> cases other <;>
      first | exact hfile | exact absurd (Option.some.inj (hfile.symm.trans hempty)) hne
  creates := hcreates

theorem MaterialStep.publish (habsent : material.keyFile = none) (hfree : free) :
    MaterialStep tpm free material (material.withFile key.val .keyFile) where
  keeps := by
    intro other bytes hfile _
    cases other with
    | keyFile => cases habsent.symm.trans hfile
    | sealedKey => exact hfile
  creates := fun _ _ => .inr hfree

theorem MaterialStep.changeMethod (method : EncryptionMethod) :
    MaterialStep tpm free material { material with method } where
  keeps := by
    intro other bytes hfile _
    cases other <;> exact hfile
  creates := fun _ h => .inl h

/-! ## Programs on the key material -/

variable {f : String → String}

theorem moves_createTruncateFile (habsent : material.file artifact = none) :
    ((createTruncateFile calls artifact).mapError f).Moves (MaterialStep tpm free)
      (fun result final => ∀ value, result = .ok value → final = material.withFile [] artifact)
      material := by
  refine moves_mapError (moves_bind (moves_act ?_ ?_))
  · intro next hnext
    obtain ⟨-, -, rfl⟩ := map_eq_ok hnext
    exact ⟨.truncate habsent, moves_read fun _ _ => rfl⟩
  · intro e _ value hvalue
    cases hvalue

theorem moves_writeAll (hempty : material.file artifact = some [])
    (hcreates : ∀ length key, Held tpm (material.withFile (bytes.take length) artifact) key →
      Held tpm material key ∨ free) :
    ((writeAll calls artifact bytes).mapError f).Steps (MaterialStep tpm free) material := by
  refine moves_mapError ?_
  unfold writeAll
  split
  · refine moves_act (fun next hnext => ?_) fun _ _ => trivial
    cases hnext
    refine ⟨.write hempty fun key hkey => hcreates bytes.length key ?_, trivial⟩
    rw [List.take_length]
    exact hkey
  · rename_i written e _
    refine moves_bind (moves_act (fun next hnext => ?_) fun _ _ => trivial)
    cases hnext
    exact ⟨.write hempty (hcreates written), moves_fail trivial⟩

/-- The key file is created with a key that is held, or that may be
minted. -/
theorem moves_writeKeyFile (habsent : material.file .keyFile = none)
    (hkey : Held tpm material key ∨ free) :
    (writeKeyFile config calls key).Steps (MaterialStep tpm free) material := by
  refine steps_bind (moves_createTruncateFile habsent) fun value final hfinal => ?_
  rw [hfinal value rfl]
  refine moves_writeAll rfl fun length other hother => ?_
  rcases held_of_part_keyFile hother with rfl | hheld
  · exact hkey.imp_left (held_truncated_iff habsent).mpr
  · exact .inl hheld

/-- The sealed key file is created with a key that is held, or that may be
minted. -/
theorem moves_sealKeyToFile (htpm : tpm.Correct) (habsent : material.file .sealedKey = none)
    (hkey : Held tpm material key ∨ free) :
    (sealKeyToFile config tpm calls key).Steps (MaterialStep tpm free) material := by
  refine steps_read fun blob hblob => ?_
  refine steps_bind (moves_createTruncateFile habsent) fun value final hfinal => ?_
  rw [hfinal value rfl]
  refine moves_writeAll rfl fun length other hother => ?_
  rcases held_of_part_sealedKey htpm hblob hother with rfl | hheld
  · exact hkey.imp_left (held_truncated_iff habsent).mpr
  · exact .inl hheld

theorem readFile_eq_ok {content answer}
    (h : (readFile content answer).mapError f = .ok bytes) : content = some bytes := by
  replace h := mapError_eq_ok h
  cases content with
  | none => cases h
  | some stored =>
    obtain ⟨-, -, rfl⟩ := map_eq_ok h
    rfl

theorem keyFile_of_existingKey (h : existingKey config calls material = .ok key) :
    material.keyFile = some key.val := by
  obtain ⟨data, hread, h⟩ := bind_eq_ok h
  split_ifs at h with hlength
  cases h
  exact readFile_eq_ok hread

theorem sealedHolds_of_unsealKeyFromFile
    (h : unsealKeyFromFile config tpm calls material = .ok key) : SealedHolds tpm material key := by
  obtain ⟨blob, hread, h⟩ := bind_eq_ok h
  exact ⟨blob, calls.pcrs, readFile_eq_ok hread, unsealKey_eq_ok.mp h⟩

/-- The key of the key file is carried across. -/
theorem moves_sealExistingKeyfile (htpm : tpm.Correct) (habsent : material.sealedKey = none) :
    (sealExistingKeyfile config tpm calls).Steps (MaterialStep tpm free) material := by
  refine steps_read fun key hkey => steps_read fun _ _ => ?_
  exact moves_mapError
    (moves_sealKeyToFile htpm habsent (.inl (.inl (keyFile_of_existingKey hkey))))

/-- The key of the sealed key file is carried across. -/
theorem moves_unsealIntoKeyfile (habsent : material.keyFile = none) :
    (unsealIntoKeyfile config tpm calls).Steps (MaterialStep tpm free) material := by
  refine steps_read fun _ _ => steps_read fun key hread => ?_
  have hkey := sealedHolds_of_unsealKeyFromFile (mapError_eq_ok hread)
  exact moves_mapError (moves_writeKeyFile habsent (.inl (.inr hkey)))

theorem moves_updateConfigEncryption (method : EncryptionMethod) :
    (updateConfigEncryption calls method).Steps (MaterialStep tpm free) material := by
  refine moves_act (fun next hnext => ⟨?_, trivial⟩) fun _ _ => trivial
  obtain ⟨present, -, rfl⟩ := map_eq_ok hnext
  cases present with
  | false => exact .changeMethod material.method
  | true => exact .changeMethod method

theorem moves_sealKey (htpm : tpm.Correct) :
    (sealKey config tpm calls).Steps (MaterialStep tpm free) material := by
  refine steps_read fun _ hrefusal => ?_
  exact steps_bind (moves_sealExistingKeyfile htpm (sealedKey_of_sealKeyRefusal hrefusal))
    fun _ _ _ => moves_updateConfigEncryption .tpm

theorem moves_unsealKeyCommand :
    (unsealKeyCommand config tpm calls).Steps (MaterialStep tpm free) material := by
  refine steps_read fun _ hrefusal => ?_
  exact steps_bind (moves_unsealIntoKeyfile (keyFile_of_unsealKeyRefusal hrefusal))
    fun _ _ _ => moves_updateConfigEncryption .keyfile

end Material

/-! ## Machines -/

def Encrypted (row : EmbeddingRow) : Prop :=
  row.blob.isSoftwareEncrypted = true ∨ row.blob.isSealed = true

def Unencrypted (machine : Machine) : Prop :=
  ∀ row ∈ machine.rows, ¬ Encrypted row

/-- The key as the rows name it. -/
def AesKey.toKey (key : AesKey) : Key :=
  BitVec.ofNat 256 (Nat.ofDigits 256 (key.val.map UInt8.toNat))

/-- The row was sealed under a key that is held. -/
def Readable (tpm : Tpm Pcrs) (machine : Machine) (row : EmbeddingRow) : Prop :=
  ∃ key, row.blob.OpensUnder key.toKey ∧ Held tpm machine.material key

/-- A step of a machine. -/
structure Advances (tpm : Tpm Pcrs) (before after : Machine) : Prop where
  material : MaterialStep tpm (Unencrypted before) before.material after.material
  rows : ∀ row ∈ after.rows, Encrypted row → row ∈ before.rows ∨ Readable tpm after row

section Machines

variable {tpm : Tpm Pcrs} {machine next : Machine}

theorem Held.step {free : Prop} {before after key} (h : Held tpm before key)
    (hstep : MaterialStep tpm free before after) : Held tpm after key := by
  rcases h with hfile | ⟨blob, pcrs, hfile, hunseal⟩
  · exact .inl (hstep.keeps .keyFile _ hfile key.val_ne_nil)
  · have hne : blob ≠ [] := by
      rintro rfl
      cases hunseal
    exact .inr ⟨blob, pcrs, hstep.keeps .sealedKey _ hfile hne, hunseal⟩

/-- Whatever is encrypted and stored stays readable. -/
theorem Advances.readable (hstep : Advances tpm machine next)
    (h : ∀ row ∈ machine.rows, Encrypted row → Readable tpm machine row) :
    ∀ row ∈ next.rows, Encrypted row → Readable tpm next row := by
  intro row hrow hencrypted
  rcases hstep.rows row hrow hencrypted with hold | hreadable
  · obtain ⟨key, hopens, hheld⟩ := h row hold hencrypted
    exact ⟨key, hopens, hheld.step hstep.material⟩
  · exact hreadable

theorem MaterialStep.refl (free : Prop) (material : KeyMaterial) :
    MaterialStep tpm free material material :=
  .changeMethod material.method

theorem Advances.refl (machine : Machine) : Advances tpm machine machine where
  material := .refl _ _
  rows := fun _ hrow _ => .inl hrow

theorem Advances.delete {database}
    (h : ∀ row ∈ { machine with database }.rows, row ∈ machine.rows) :
    Advances tpm machine { machine with database } where
  material := .refl _ _
  rows := fun row hrow _ => .inl (h row hrow)

variable {α : Type} {post : Except String α → Machine → Prop}

theorem moves_onMaterial {program}
    (h : program.Moves (MaterialStep tpm (Unencrypted machine))
      (fun result material => post result { machine with material }) machine.material) :
    (onMaterial program).Moves (Advances tpm) post machine := by
  refine moves_zoom rfl (Run.Moves.mono h ?_ fun _ _ hpost => hpost)
  intro before after hstep
  exact { material := hstep, rows := fun _ hrow _ => .inl hrow }

/-! ## Guards -/

variable {config : SetupConfig} {calls : SetupCalls Pcrs}

theorem unencrypted_of_rows_eq_nil (h : machine.rows = []) : Unencrypted machine := by
  intro row hrow
  rw [h] at hrow
  cases hrow

theorem Database.rows_eq_nil {database : Database} (h : database.store.models = []) :
    database.store.embeddings = [] := by
  rw [List.eq_nil_iff_forall_not_mem]
  intro row hrow
  obtain ⟨model, hmodel, -⟩ := database.referenced row hrow
  rw [h] at hmodel
  cases hmodel

theorem Database.clearAll_rows (database : Database) : database.clearAll.store.embeddings = [] :=
  Database.rows_eq_nil (by simp [Database.clearAll, Database.deleteModels])

/-- The guard lets a mint pass without a deletion only where nothing is
stored. -/
theorem rows_eq_nil_of_orphanModels (h : orphanModels config calls machine = .ok false) :
    machine.rows = [] := by
  unfold orphanModels at h
  unfold Machine.rows Machine.contents
  cases hdatabase : machine.database with
  | none => rfl
  | some database =>
    rw [hdatabase] at h
    obtain ⟨-, -, h⟩ := bind_eq_ok h
    obtain ⟨-, -, h⟩ := bind_eq_ok h
    split_ifs at h with hempty hprompt
    · exact Database.rows_eq_nil (List.isEmpty_iff.mp hempty)
    · split at h <;> cases h

theorem moves_handleOrphanModelsBeforeKeygen :
    (handleOrphanModelsBeforeKeygen config calls).Moves (Advances tpm)
      (fun result final => ∀ value, result = .ok value →
        final.material = machine.material ∧ Unencrypted final) machine := by
  refine moves_bind (moves_read ?_)
  cases hguard : orphanModels config calls machine with
  | error e =>
    intro value hvalue
    cases hvalue
  | ok clear =>
    cases clear with
    | false =>
      refine moves_pure fun _ _ => ⟨rfl, ?_⟩
      exact unencrypted_of_rows_eq_nil (rows_eq_nil_of_orphanModels hguard)
    | true =>
      refine moves_act ?_ fun e _ value hvalue => by cases hvalue
      intro next hnext
      have hcleared : { machine with database := machine.database.map Database.clearAll }.rows =
          [] := by
        cases machine.database with
        | none => rfl
        | some database => exact database.clearAll_rows
      obtain ⟨-, -, rfl⟩ := map_eq_ok hnext
      refine ⟨.delete ?_, fun _ _ => ⟨rfl, unencrypted_of_rows_eq_nil hcleared⟩⟩
      rw [hcleared]
      intro row hrow
      cases hrow

variable {method : EncryptionMethod}

/-- The gate refuses while an encrypted row is there. -/
theorem unencrypted_of_no_refusal (h : keyCreationRefusal config calls method machine = none) :
    Unencrypted machine := by
  unfold keyCreationRefusal rowsAtRisk at h
  rw [Option.map_eq_none_iff] at h
  split at h
  · cases h
  · intro row hrow hencrypted
    obtain ⟨hsoftware, hsealed⟩ := unencrypted_of_no_risk h hrow
    simp [Encrypted, hsoftware, hsealed] at hencrypted

theorem keyfileDecision_created (h : keyfileDecision config calls method machine = .created) :
    machine.material.keyFile = none ∧ Unencrypted machine := by
  unfold keyfileDecision at h
  split_ifs at h with hmethod hexists
  split at h
  · cases h
  · split at h
    · cases h
    · rename_i hrefusal
      refine ⟨?_, unencrypted_of_no_refusal hrefusal⟩
      simpa [Machine.keyfileExists] using hexists

theorem moves_ensureEncryptByDefaultKey :
    (ensureEncryptByDefaultKey config calls method).Steps (Advances tpm) machine := by
  refine moves_bind (moves_read (moves_bind ?_))
  cases hdecision : keyfileDecision config calls method machine with
  | created =>
    obtain ⟨habsent, hfree⟩ := keyfileDecision_created hdecision
    refine moves_onMaterial (moves_act (fun next hnext => ?_) fun _ _ => trivial)
    cases hnext
    exact ⟨.publish habsent hfree, moves_pure trivial⟩
  | present | notApplicable | refused message => exact moves_pure (moves_pure trivial)

theorem moves_refuseKeygen_keyfile :
    (refuseKeygen config calls .keyfile).Steps (Advances tpm) machine := by
  refine steps_read fun _ _ => ?_
  exact steps_bind moves_ensureEncryptByDefaultKey fun _ _ _ => moves_ofResult trivial

theorem moves_refuseKeygen_tpm :
    (refuseKeygen config calls .tpm).Moves (Advances tpm)
      (fun result final => ∀ value, result = .ok value →
        final.material = machine.material ∧ Unencrypted final) machine := by
  refine moves_bind (moves_read ?_)
  cases storeOpens config calls machine with
  | error e =>
    intro value hvalue
    cases hvalue
  | ok value =>
    refine moves_read fun value hvalue => ⟨rfl, ?_⟩
    cases hrefusal : keyCreationRefusal config calls .tpm machine with
    | none => exact unencrypted_of_no_refusal hrefusal
    | some refusal =>
      rw [hrefusal] at hvalue
      cases hvalue

/-! ## Choices -/

theorem moves_switchMethod (method : EncryptionMethod) :
    (switchMethod calls method).Steps (Advances tpm) machine :=
  moves_onMaterial (moves_updateConfigEncryption method)

theorem moves_then_switchMethod {program : Prog Machine String Unit}
    (h : program.Steps (Advances tpm) machine) :
    (program >>= fun _ => switchMethod calls method).Steps (Advances tpm) machine :=
  steps_bind h fun _ _ _ => moves_switchMethod method

theorem moves_sealExisting (htpm : tpm.Correct) (habsent : machine.material.sealedKey = none) :
    (sealExisting config tpm calls).Steps (Advances tpm) machine :=
  moves_mapError (moves_onMaterial (moves_sealExistingKeyfile htpm habsent))

theorem moves_unsealExisting (habsent : machine.material.keyFile = none) :
    (unsealExisting config tpm calls).Steps (Advances tpm) machine :=
  moves_mapError (moves_onMaterial (moves_unsealIntoKeyfile habsent))

/-- A guarded mint of a sealed key: what the guard establishes is what the
mint needs. -/
theorem moves_guard_generateAndSealKey (htpm : tpm.Correct)
    {guard : Prog Machine String Unit} (habsent : machine.material.sealedKey = none)
    (hguard : guard.Moves (Advances tpm) (fun result final => ∀ value, result = .ok value →
      final.material = machine.material ∧ Unencrypted final) machine) :
    (guard >>= fun _ => generateAndSealKey config tpm calls).Steps (Advances tpm) machine := by
  refine steps_bind hguard fun value final hfinal => ?_
  obtain ⟨hsame, hfree⟩ := hfinal value rfl
  have hgone : final.material.sealedKey = none := by
    rw [hsame]
    exact habsent
  refine moves_onMaterial (steps_read fun _ _ => ?_)
  exact moves_mapError (moves_sealKeyToFile htpm hgone (.inr hfree))

theorem sealedKey_of_not_exists (h : machine.sealedExists = false) :
    machine.material.sealedKey = none := by
  simpa [Machine.sealedExists] using h

theorem keyFile_of_not_exists (h : machine.keyfileExists = false) :
    machine.material.keyFile = none := by
  simpa [Machine.keyfileExists] using h

variable {action : KeyAction}

/-- Every action that is planned for the TPM, by hand or by the automatic
policy. -/
theorem moves_tpmPlan (htpm : tpm.Correct) {usable : Bool}
    (hplan : planKeyAction .tpm machine.keyfileExists machine.sealedExists usable = action) :
    (tpmKeyAction config tpm calls action).Steps (Advances tpm) machine ∧
      (autoTpmAction config tpm calls action).Steps (Advances tpm) machine := by
  have hfits := planKeyAction_fits .tpm machine.keyfileExists machine.sealedExists usable
  rw [hplan] at hfits
  cases action with
  | reuseExisting => exact ⟨moves_pure trivial, moves_pure trivial⟩
  | sealExistingKeyfile =>
    have habsent := sealedKey_of_not_exists hfits.1
    exact ⟨moves_sealExisting htpm habsent, moves_sealExisting htpm habsent⟩
  | unsealExistingSealed => exact hfits.elim
  | mint =>
    have habsent := sealedKey_of_not_exists hfits.1
    exact ⟨moves_guard_generateAndSealKey htpm habsent moves_handleOrphanModelsBeforeKeygen,
      moves_guard_generateAndSealKey htpm habsent moves_refuseKeygen_tpm⟩

theorem moves_keyfilePlan {usable}
    (hplan : planKeyAction .keyfile machine.keyfileExists machine.sealedExists usable = action) :
    (keyfileAction config tpm calls action).Steps (Advances tpm) machine ∧
      (autoKeyfileAction config tpm calls action).Steps (Advances tpm) machine := by
  have hfits := planKeyAction_fits .keyfile machine.keyfileExists machine.sealedExists usable
  rw [hplan] at hfits
  cases action with
  | reuseExisting => exact ⟨moves_pure trivial, moves_refuseKeygen_keyfile⟩
  | sealExistingKeyfile => exact hfits.elim
  | unsealExistingSealed =>
    have habsent := keyFile_of_not_exists hfits.1
    exact ⟨moves_unsealExisting habsent, moves_unsealExisting habsent⟩
  | mint =>
    have habsent := keyFile_of_not_exists hfits
    refine ⟨?_, moves_refuseKeygen_keyfile⟩
    refine steps_bind moves_handleOrphanModelsBeforeKeygen fun value final hfinal => ?_
    obtain ⟨hsame, hfree⟩ := hfinal value rfl
    have hgone : final.material.keyFile = none := by
      rw [hsame]
      exact habsent
    exact moves_mapError (moves_onMaterial (moves_writeKeyFile hgone (.inr hfree)))

/-- The automatic policy plans as the explicit choices do. -/
theorem planKeyAction_of_autoPlan {available target}
    (h : autoPlan machine available = some (target, action)) :
    ∃ usable, planKeyAction target machine.keyfileExists machine.sealedExists usable = action := by
  unfold autoPlan planAutoForConfig at h
  split at h
  · unfold planAutoKeyAction at h
    split_ifs at h
    · cases h
      exact ⟨true, rfl⟩
    · cases h
      exact ⟨false, rfl⟩
  · split_ifs at h
    cases h
    exact ⟨available, rfl⟩
  · split_ifs at h
    cases h
    exact ⟨true, rfl⟩

theorem moves_setupEncryptionAuto (htpm : tpm.Correct) (available : Bool) :
    (setupEncryptionAuto config tpm calls available).Steps (Advances tpm) machine := by
  refine moves_bind (moves_read ?_)
  split
  · exact moves_pure trivial
  · cases hplan : autoPlan machine available with
    | none => exact moves_pure trivial
    | some plan =>
      obtain ⟨target, action⟩ := plan
      obtain ⟨usable, haction⟩ := planKeyAction_of_autoPlan hplan
      refine moves_then_switchMethod ?_
      cases target with
      | tpm => exact (moves_tpmPlan htpm haction).2
      | keyfile => exact (moves_keyfilePlan haction).2

theorem moves_applyEncryptionChoice (htpm : tpm.Correct) (choice : EncryptionChoice) :
    (applyEncryptionChoice config tpm calls choice).Steps (Advances tpm) machine := by
  cases choice with
  | tpm =>
    simp only [applyEncryptionChoice]
    split_ifs
    · exact moves_bind (moves_read (moves_then_switchMethod (moves_tpmPlan htpm rfl).1))
    · exact moves_fail trivial
  | keyfile =>
    exact moves_bind (moves_read (moves_then_switchMethod (moves_keyfilePlan rfl).1))
  | none => exact moves_switchMethod .none
  | auto =>
    refine steps_read fun _ hneeds => ?_
    cases hneeds
    have hguard : (guardAutoKeygen config calls
        (autoEncryptionNeedsKeygen machine calls.detectTpm)).Steps (Advances tpm) machine := by
      unfold guardAutoKeygen
      split
      · exact moves_handleOrphanModelsBeforeKeygen.mono fun _ _ _ => trivial
      · exact moves_pure trivial
    exact steps_bind hguard fun _ _ _ => moves_setupEncryptionAuto htpm calls.detectTpm

end Machines

end Facelock.Keys
