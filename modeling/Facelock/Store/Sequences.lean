import Facelock.Store.Pairs
import Facelock.Store.Reference

/-!
# The order of the backup pairs

The sequence number of a new pair is one more than the largest that a scan
of the state directory finds.  Numbers are used again after a cleanup, and
the names come from a clock that may stand still or go back.  This module
follows the pairs through any history of the store: transactions that
prepare, commit or clean up, each for any service and at any time, in any
order, and each cut short after any of its steps, with arbitrary changes
of the other files in between.

`History` keeps the names of the pairs in the order in which they were
created.  A pair is created by the step after which a scan accepts it and
before which none did.  `Ordered` is the invariant: along the order of
creation the numbers increase.  Each step keeps it, since a new pair has
the largest number and no other pair changes its own.
-/

namespace Facelock.Store

open Facelock.Crash List
open Facelock.Pam (Bytes)

variable (P : Platform)

/-! ## Histories -/

/-- The files, and the names of the pairs in the order of their
creation. -/
structure History where
  files : Files
  order : List BackupName

/-- The names that have a pair after a step and had none in front of
it. -/
def created (before after : Files) : List BackupName :=
  ((scannedRecordPairs P after).map fun pair => pair.backup).filter fun backup =>
    (pairAt P before backup).isNone

/-- The history goes on.  A pair that is created is the last in the order,
also if its name was used before. -/
def History.next (history : History) (after : Files) : History where
  files := after
  order := (history.order.filter fun backup => backup ∉ created P history.files after) ++
    created P history.files after

/-- One transaction, cut short after any number of its steps or not, or a
change of anything but the records and backups. -/
inductive StoreStep : Files → Files → Prop where
  | prepare (files : Files) (service : String) (original installed : Bytes)
      (sinceEpoch : Duration) (n : Nat) :
      StoreStep files (((prepare P service original installed sinceEpoch).run files).cut n)
  | commit (files : Files) (prepared : PreparedBackup) (n : Nat) :
      StoreStep files (((commitUnlocked P prepared).run files).cut n)
  | cleanup (files : Files) (service : String) (n : Nat) :
      StoreStep files (((cleanup P service).run files).cut n)
  | other (files after : Files)
      (record : ∀ backup, after.get (.state (.record backup)) =
        files.get (.state (.record backup)))
      (backup : ∀ backup, after.get (.state (.backup backup)) =
        files.get (.state (.backup backup))) :
      StoreStep files after

/-- The histories that begin with a store without pairs. -/
inductive Reaches : History → Prop where
  | start (files : Files) (hempty : scannedRecordPairs P files = []) : Reaches ⟨files, []⟩
  | next {history : History} {after : Files} (h : Reaches history)
      (hstep : StoreStep P history.files after) : Reaches (history.next P after)

theorem StoreStep.cases {P before after} (h : StoreStep P before after) :
    NoNewPairs P before after ∨ ∃ backup, NewPair P backup before after := by
  cases h with
  | prepare service original installed sinceEpoch n =>
    exact prepare_step before service original installed sinceEpoch n
  | commit prepared n => exact Or.inl (commit_step before prepared n)
  | cleanup service n => exact Or.inl (cleanup_step before service n)
  | other _ hrecord hbackup =>
    apply Or.inl
    intro backup pair hpair
    refine ⟨pair, ?_, rfl⟩
    rw [← hpair]
    exact recordPairAt_congr (hrecord backup).symm (hbackup backup).symm

/-! ## The order of creation -/

/-- The pairs of a history, in the order of their creation. -/
def History.pairs (history : History) : List PreparedBackup :=
  history.order.filterMap (pairAt P history.files)

/-- Every pair has its place in the order, and the sequence numbers
increase along it. -/
structure Ordered (order : List BackupName) (files : Files) : Prop where
  nodup : order.Nodup
  covers : ∀ backup pair, pairAt P files backup = some pair → backup ∈ order
  increasing : order.Pairwise fun first second =>
    ∀ pair, pairAt P files first = some pair → ∀ later, pairAt P files second = some later →
      pair.provenance.sequence < later.provenance.sequence

section Order

variable {P} {order : List BackupName} {before after files : Files} {backup : BackupName}

theorem mem_created : backup ∈ created P before after ↔
    (∃ pair, pairAt P after backup = some pair) ∧ pairAt P before backup = none := by
  rw [created, mem_filter, mem_map, Option.isNone_iff_eq_none]
  refine and_congr_left' ⟨?_, ?_⟩
  · rintro ⟨pair, hpair, rfl⟩
    exact ⟨pair, mem_scannedRecordPairs.mp hpair⟩
  · rintro ⟨pair, hpair⟩
    have hname := (pairAt_eq_some hpair).1
    refine ⟨pair, mem_scannedRecordPairs.mpr ?_, hname⟩
    rw [hname]
    exact hpair

theorem nodup_created : (created P before after).Nodup := by
  apply List.Nodup.filter
  apply nodup_scannedRecordPairs.map_on
  intro pair hpair other hother heq
  have hfirst := mem_scannedRecordPairs.mp hpair
  have hsecond := mem_scannedRecordPairs.mp hother
  rw [heq, hsecond] at hfirst
  exact (Option.some.inj hfirst).symm

theorem Ordered.of_noNewPairs (h : Ordered P order before) (hstep : NoNewPairs P before after) :
    created P before after = [] ∧ Ordered P order after := by
  refine ⟨?_, h.nodup, ?_, ?_⟩
  · rw [eq_nil_iff_forall_not_mem]
    intro backup hmem
    obtain ⟨⟨pair, hpair⟩, hnone⟩ := mem_created.mp hmem
    obtain ⟨earlier, hearlier, -⟩ := hstep backup pair hpair
    rw [hnone] at hearlier
    cases hearlier
  · intro backup pair hpair
    obtain ⟨earlier, hearlier, -⟩ := hstep backup pair hpair
    exact h.covers backup earlier hearlier
  · refine h.increasing.imp ?_
    intro first second hlt pair hpair later hlater
    obtain ⟨earlier, hearlier, hsequence⟩ := hstep first pair hpair
    obtain ⟨earlier', hearlier', hsequence'⟩ := hstep second later hlater
    rw [← hsequence, ← hsequence']
    exact hlt earlier hearlier earlier' hearlier'

theorem Ordered.of_newPair (h : Ordered P order before) (hstep : NewPair P backup before after) :
    created P before after = [backup] ∧
      Ordered P ((order.filter fun other => other ∉ [backup]) ++ [backup]) after := by
  obtain ⟨new, hnew, habove⟩ := hstep.above
  have hmem : ∀ other, other ∈ order.filter (fun other => other ∉ [backup]) →
      other ∈ order ∧ other ≠ backup := by
    intro other hother
    rw [mem_filter, decide_eq_true_eq, mem_singleton] at hother
    exact hother
  refine ⟨?_, ?_, ?_, ?_⟩
  · apply perm_singleton.mp
    rw [perm_ext_iff_of_nodup nodup_created (nodup_singleton _)]
    intro other
    rw [mem_created, mem_singleton]
    constructor
    · rintro ⟨⟨pair, hpair⟩, hnone⟩
      by_contra hne
      obtain ⟨earlier, hearlier, -⟩ := hstep.others other pair hne hpair
      rw [hnone] at hearlier
      cases hearlier
    · rintro rfl
      exact ⟨⟨new, hnew⟩, hstep.fresh⟩
  · refine (h.nodup.filter _).append (nodup_singleton _) ?_
    intro other hother hsingle
    exact (hmem other hother).2 (mem_singleton.mp hsingle)
  · intro other pair hpair
    by_cases hne : other = backup
    · subst hne
      exact mem_append_right _ (mem_singleton_self _)
    · obtain ⟨earlier, hearlier, -⟩ := hstep.others other pair hne hpair
      apply mem_append_left
      rw [mem_filter, decide_eq_true_eq, mem_singleton]
      exact ⟨h.covers other earlier hearlier, hne⟩
  · rw [pairwise_append]
    refine ⟨?_, pairwise_singleton _ _, ?_⟩
    · refine (h.increasing.filter _).imp_of_mem ?_
      intro first second hfirst hsecond hlt pair hpair later hlater
      obtain ⟨earlier, hearlier, hsequence⟩ :=
        hstep.others first pair (hmem first hfirst).2 hpair
      obtain ⟨earlier', hearlier', hsequence'⟩ :=
        hstep.others second later (hmem second hsecond).2 hlater
      rw [← hsequence, ← hsequence']
      exact hlt earlier hearlier earlier' hearlier'
    · intro first hfirst second hsecond pair hpair later hlater
      obtain rfl := mem_singleton.mp hsecond
      obtain ⟨earlier, hearlier, hsequence⟩ :=
        hstep.others first pair (hmem first hfirst).2 hpair
      rw [hnew] at hlater
      obtain rfl := Option.some.inj hlater
      rw [← hsequence]
      exact habove first earlier hearlier

theorem Reaches.ordered {history} (h : Reaches P history) :
    Ordered P history.order history.files := by
  induction h with
  | start files hempty =>
    refine ⟨nodup_nil, ?_, List.Pairwise.nil⟩
    intro backup pair hpair
    have hmem : pair ∈ scannedRecordPairs P files := by
      rw [mem_scannedRecordPairs, (pairAt_eq_some hpair).1]
      exact hpair
    rw [hempty] at hmem
    cases hmem
  | @next history after _ hstep ih =>
    rcases hstep.cases with hnone | ⟨backup, hnew⟩
    · obtain ⟨hcreated, hordered⟩ := ih.of_noNewPairs hnone
      have horder : (history.next P after).order = history.order := by
        simp [History.next, hcreated]
      rw [horder]
      exact hordered
    · obtain ⟨hcreated, hordered⟩ := ih.of_newPair hnew
      have horder : (history.next P after).order =
          (history.order.filter fun other => other ∉ [backup]) ++ [backup] := by
        rw [History.next, hcreated]
      rw [horder]
      exact hordered

/-! ## What the scans return -/

section

variable (h : Ordered P order files)

include h

theorem Ordered.nodup_pairs : (order.filterMap (pairAt P files)).Nodup := by
  refine h.nodup.filterMap ?_
  intro first second pair hfirst hsecond
  exact (pairAt_eq_some hfirst).1.symm.trans (pairAt_eq_some hsecond).1

theorem Ordered.perm_scanned :
    (scannedRecordPairs P files).Perm (order.filterMap (pairAt P files)) := by
  rw [perm_ext_iff_of_nodup nodup_scannedRecordPairs h.nodup_pairs]
  intro pair
  rw [mem_scannedRecordPairs, mem_filterMap]
  constructor
  · intro hpair
    exact ⟨pair.backup, h.covers _ _ hpair, hpair⟩
  · rintro ⟨backup, -, hpair⟩
    rw [(pairAt_eq_some hpair).1]
    exact hpair

theorem Ordered.sequences : (order.filterMap (pairAt P files)).Pairwise fun pair later =>
      pair.provenance.sequence < later.provenance.sequence :=
  pairwise_filterMap.mpr h.increasing

theorem Ordered.nodup_names :
    ((order.filterMap (pairAt P files)).map fun pair => pair.backup).Nodup := by
  apply h.nodup_pairs.map_on
  intro pair hpair other hother heq
  obtain ⟨first, -, hfirst⟩ := mem_filterMap.mp hpair
  obtain ⟨second, -, hsecond⟩ := mem_filterMap.mp hother
  have hname : first = second := by
    rw [← (pairAt_eq_some hfirst).1, ← (pairAt_eq_some hsecond).1, heq]
  rw [hname, hsecond] at hfirst
  exact (Option.some.inj hfirst).symm

theorem Ordered.eq_of_sequence_eq {pair other} (hpair : pair ∈ order.filterMap (pairAt P files))
    (hother : other ∈ order.filterMap (pairAt P files))
    (heq : pair.provenance.sequence = other.provenance.sequence) : pair = other := by
  have hnodup : ((order.filterMap (pairAt P files)).map fun pair =>
      pair.provenance.sequence).Nodup :=
    pairwise_map.mpr (h.sequences.imp fun hlt => Nat.ne_of_lt hlt)
  exact inj_on_of_nodup_map hnodup hpair hother heq

/-- No number occurs twice, so the scan for a service drops no pair of it
and returns them from the last to the first. -/
theorem Ordered.validatedRecords_eq (service : String) : validatedRecords P service files =
      ((order.filterMap (pairAt P files)).filter fun pair =>
        pair.provenance.service = service).reverse := by
  let falling : PreparedBackup → PreparedBackup → Prop := fun pair other =>
    other.provenance.sequence ≤ pair.provenance.sequence
  have hmem : ∀ pair, pair ∈ validatedRecords P service files ↔
      pair ∈ order.filterMap (pairAt P files) ∧ pair.provenance.service = service := by
    intro pair
    rw [mem_validatedRecords, h.perm_scanned.mem_iff]
    refine and_congr_right fun hpair => and_iff_left ?_
    intro other hother hsequence
    exact h.eq_of_sequence_eq (h.perm_scanned.mem_iff.mp hother) hpair hsequence
  refine @List.Perm.eq_of_pairwise _ falling _ _ ?_ (pairwise_insertionSort falling _) ?_ ?_
  · intro pair other hpair hother hle hle'
    rw [mem_reverse, mem_filter] at hother
    exact h.eq_of_sequence_eq ((hmem pair).mp hpair).1 hother.1 (Nat.le_antisymm hle' hle)
  · rw [pairwise_reverse]
    exact (h.sequences.filter _).imp fun hlt => Nat.le_of_lt hlt
  · rw [perm_ext_iff_of_nodup (nodup_validatedRecords service)
      (nodup_reverse.mpr (h.nodup_pairs.filter _))]
    intro pair
    rw [hmem, mem_reverse, mem_filter, decide_eq_true_eq]

theorem Ordered.latestCommitted_eq (service : String) : latestCommitted P service files =
      (((order.filterMap (pairAt P files)).filter fun pair =>
        pair.provenance.service = service ∧ pair.provenance.state = .committed).getLast?).map
          fun pair => pair.backup := by
  have hfilter : validatedCommittedRecords P service files =
      ((order.filterMap (pairAt P files)).filter fun pair =>
        pair.provenance.service = service ∧ pair.provenance.state = .committed).reverse := by
    rw [validatedCommittedRecords, h.validatedRecords_eq, filter_reverse, filter_filter]
    congr 2
    funext pair
    rw [Bool.decide_and, Bool.and_comm]
  rw [latestCommitted, hfilter, head?_reverse]

end

end Order

/-- In every history the pairs that a scan finds are the pairs of the
history; their sequence numbers increase in the order of creation and
their names are distinct; and `latest_committed` returns the last pair of
the service that is committed. -/
theorem pairs_keep_their_order {history : History} (h : Reaches P history) :
    (scannedRecordPairs P history.files).Perm (history.pairs P) ∧
      (history.pairs P).Pairwise (fun pair later =>
        pair.provenance.sequence < later.provenance.sequence) ∧
      ((history.pairs P).map fun pair => pair.backup).Nodup ∧
      ∀ service, latestCommitted P service history.files =
        (((history.pairs P).filter fun pair =>
          pair.provenance.service = service ∧ pair.provenance.state = .committed).getLast?).map
            fun pair => pair.backup :=
  ⟨h.ordered.perm_scanned, h.ordered.sequences, h.ordered.nodup_names,
    h.ordered.latestCommitted_eq⟩

/-- The plan of a first backup of an empty `sudo`, five nanoseconds after
the epoch. -/
noncomputable def sudoPlan : PreparedBackup where
  backup := ⟨"sudo", 0, 5⟩
  provenance :=
    { version := provenanceVersion
      sequence := 1
      state := .prepared
      service := "sudo"
      backup := ⟨"sudo", 0, 5⟩
      originalSha256 := referencePlatform.sha256 (.bytes [])
      installedSha256 := referencePlatform.sha256 (.bytes Pam.pamLine) }
  backupIdentity := none
  recordIdentity := none

/-- The files after each of three transactions: the first backup, its
commit, and a second backup with a clock that has gone back. -/
noncomputable def sudoPrepared : Files :=
  ((prepare referencePlatform "sudo" [] Pam.pamLine ⟨5, by decide⟩).run ∅).final

noncomputable def sudoCommitted : Files :=
  ((commitUnlocked referencePlatform sudoPlan).run sudoPrepared).final

noncomputable def sudoTwice : Files :=
  ((prepare referencePlatform "sudo" [] Pam.pamLine epoch).run sudoCommitted).final

theorem pairs_keep_their_order_sudo :
    let history := (((History.mk ∅ []).next referencePlatform sudoPrepared).next
      referencePlatform sudoCommitted).next referencePlatform sudoTwice
    (∃ pair, pairAt referencePlatform sudoPrepared sudoPlan.backup = some pair) ∧
      Reaches referencePlatform history ∧
      (history.pairs referencePlatform).Pairwise (fun pair later =>
        pair.provenance.sequence < later.provenance.sequence) := by
  intro history
  have hscan : scannedRecordPairs referencePlatform ∅ = [] := by
    rw [eq_nil_iff_forall_not_mem]
    intro pair hpair
    exact (recordPairAt_some (mem_scannedRecordPairs.mp hpair)).2.2.2 (Dir.get_empty _)
  have hplan : planAtUnlocked referencePlatform "sudo" [] Pam.pamLine ⟨5, by decide⟩ ∅ =
      .ok sudoPlan := by
    have hsequence : nextSequence referencePlatform ∅ = .ok 1 := by
      rw [nextSequence, scannedSequences, hscan]
      rfl
    have hconfined : confined "sudo" = true := by decide +kernel
    simp [planAtUnlocked, hconfined, hsequence, maxTimestampCollisionProbes, probeBackupName,
      entryExistsAt, sudoPlan]
  have hreaches : Reaches referencePlatform history := by
    obtain ⟨n, hn⟩ :=
      ((prepare referencePlatform "sudo" [] Pam.pamLine ⟨5, by decide⟩).run ∅).exists_cut_eq_final
    obtain ⟨m, hm⟩ :=
      ((commitUnlocked referencePlatform sudoPlan).run sudoPrepared).exists_cut_eq_final
    obtain ⟨k, hk⟩ := ((prepare referencePlatform "sudo" [] Pam.pamLine
      epoch).run sudoCommitted).exists_cut_eq_final
    refine .next (.next (.next (.start ∅ hscan) ?_) ?_) ?_
    · rw [sudoPrepared, ← hn]
      exact .prepare _ _ _ _ _ n
    · rw [sudoCommitted, ← hm]
      exact .commit _ _ m
    · rw [sudoTwice, ← hk]
      exact .prepare _ _ _ _ _ k
  refine ⟨prepare_creates hplan (Nat.zero_le _) (Dir.get_empty _), hreaches, ?_⟩
  exact (pairs_keep_their_order referencePlatform hreaches).2.1

end Facelock.Store
