import Facelock.Store.Scan

/-!
# What a plan guarantees

`plan_at_unlocked` picks a sequence number that no backup pair has and a
name whose backup and record are free.
-/

namespace Facelock.Store

variable {P : Platform} {files : Files}

theorem le_foldl_max (sequences : List Nat) (start : Nat) : start ≤ sequences.foldl max start := by
  induction sequences generalizing start with
  | nil => exact le_rfl
  | cons sequence sequences ih => exact (le_max_left ..).trans (ih _)

theorem le_foldl_max_of_mem {sequences : List Nat} {sequence} (start : Nat)
    (h : sequence ∈ sequences) : sequence ≤ sequences.foldl max start := by
  induction sequences generalizing start with
  | nil => cases h
  | cons head sequences ih =>
    rcases List.mem_cons.mp h with rfl | hmem
    · exact (le_max_right ..).trans (le_foldl_max sequences _)
    · exact ih _ hmem

theorem nextSequence_fresh {sequence : Nat} (h : nextSequence P files = .ok sequence) :
    sequence ≠ 0 ∧ ∀ pair ∈ scannedRecordPairs P files, pair.provenance.sequence < sequence := by
  simp only [nextSequence] at h
  split at h
  next =>
    obtain rfl := Except.ok.inj h
    refine ⟨by omega, ?_⟩
    intro pair hpair
    have hmem : pair.provenance.sequence ∈ scannedSequences P files :=
      List.mem_map_of_mem hpair
    have := le_foldl_max_of_mem 0 hmem
    omega
  next => cases h

/-- The name that the probe returns is one of a backup of the service, and
it is free. -/
theorem probeBackupName_some {service probes sinceEpoch backup}
    (hbounded : sinceEpoch < durationLimit)
    (h : probeBackupName service files probes sinceEpoch = some backup) :
    backup.service = service ∧ validBackupName service backup = true ∧
      files.get (.state (.backup backup)) = none ∧ files.get (.state (.record backup)) = none := by
  induction probes generalizing sinceEpoch with
  | zero => cases h
  | succ probes ih =>
    simp only [probeBackupName] at h
    split at h
    next =>
      refine ih ?_ h
      split <;> assumption
    next hfree =>
      obtain rfl := Option.some.inj h
      simp only [Bool.or_eq_true, not_or, Bool.not_eq_true, entryExistsAt,
        Option.isSome_eq_false_iff, Option.isNone_iff_eq_none] at hfree
      refine ⟨rfl, ?_, hfree⟩
      have hseconds : sinceEpoch / 1000000000 < 2 ^ 64 := Nat.div_lt_of_lt_mul hbounded
      have hnanoseconds : sinceEpoch % 1000000000 < 1000000000 := Nat.mod_lt _ (by decide)
      simp only [validBackupName, decide_true, hseconds, hnanoseconds, Bool.and_self]

/-- A plan that succeeds. -/
structure IsPlan (P : Platform) (service : String) (original installed : Pam.Bytes)
    (files : Files) (prepared : PreparedBackup) : Prop where
  isConfined : confined service = true
  isService : prepared.backup.service = service
  valid : validBackupName service prepared.backup = true
  provenance : prepared.provenance =
    { version := provenanceVersion
      sequence := prepared.provenance.sequence
      state := .prepared
      service := service
      backup := prepared.backup
      originalSha256 := P.sha256 (.bytes original)
      installedSha256 := P.sha256 (.bytes installed) }
  sequence : prepared.provenance.sequence ≠ 0
  unallocated : ∀ pair ∈ scannedRecordPairs P files,
    pair.provenance.sequence < prepared.provenance.sequence
  backup_free : files.get (.state (.backup prepared.backup)) = none
  record_free : files.get (.state (.record prepared.backup)) = none

theorem isPlan_of_plan {service original installed now prepared}
    (h : planAtUnlocked P service original installed now files = .ok prepared) :
    IsPlan P service original installed files prepared := by
  unfold planAtUnlocked at h
  split at h
  next hconfined =>
    split at h
    next => cases h
    next sequence hsequence =>
      split at h
      next => cases h
      next backup hprobe =>
        obtain rfl := Except.ok.inj h
        obtain ⟨hservice, hvalid, hbackup, hrecord⟩ := probeBackupName_some now.bounded hprobe
        obtain ⟨hne, hfresh⟩ := nextSequence_fresh hsequence
        exact ⟨hconfined, hservice, hvalid, rfl, hne, hfresh, hbackup, hrecord⟩
  next => cases h

end Facelock.Store
