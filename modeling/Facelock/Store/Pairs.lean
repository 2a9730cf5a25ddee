import Facelock.Store.Footprint
import Facelock.Store.Planning

/-!
# What a transaction does to the backup pairs

A scan of the state directory accepts a pair if its record and its backup
are in place and fit together.  This module says for the transactions that
prepare, commit and clean up pairs which pairs a scan can find after them,
wherever the transaction is cut short.

* `NoNewPairs` is what a commit and a cleanup do: no pair appears, and
  none changes its sequence number.
* `NewPair` is what a `prepare` may do besides: one pair appears, and its
  number is above all that were there.

Both are read off a bound on the entries under the names of the pairs
(`Dir.Within`), which the steps of a transaction keep.  A commit exchanges
a record with one of the same number.  A cleanup moves the two files of a
pair away, and can only move back what it has moved away.
-/

namespace Facelock.Store

open Facelock.Crash
open Facelock.Pam (Bytes)

variable (P : Platform)

/-! ## The source -/

variable (service : String)

/-- A transaction that plans a backup pair and persists it. -/
def prepare (original installed : Bytes) (sinceEpoch : Duration) : Action PreparedBackup := do
  let prepared ← Prog.read (planAtUnlocked P service original installed sinceEpoch)
  persist P prepared original
  pure prepared

def validatedCommittedRecords (files : Files) : List PreparedBackup :=
  (validatedRecords P service files).filter fun record => record.provenance.state = .committed

/-- `latest_committed`.  The name of a backup stands for its path. -/
def latestCommitted (files : Files) : Option BackupName :=
  ((validatedCommittedRecords P service files).head?).map fun record => record.backup

def cleanup : Action Unit := do
  let records ← Prog.read fun files => .ok (validatedCommittedRecords P service files)
  records.forM (cleanupOneAt P)

/-- The pair under a backup name, if a scan accepts it. -/
def pairAt (files : Files) (backup : BackupName) : Option PreparedBackup :=
  recordPairAt P files (.record backup)

/-! ## One pair -/

section Pair

variable {P} {files files' : Files} {backup : BackupName} {pair : PreparedBackup}

theorem pairAt_eq_some (h : pairAt P files backup = some pair) :
    pair.backup = backup ∧ ∃ record copy original,
      ownedContentAt P (.record backup) maxRecordBytes files =
        some (record, .record pair.provenance) ∧
      validProvenanceRecord (.record backup) pair.provenance = true ∧
      ownedContentAt P (.backup backup) maxBackupBytes files = some (copy, original) ∧
      P.sha256 original = pair.provenance.originalSha256 := by
  obtain ⟨hname, hbackup, -⟩ := recordPairAt_some h
  obtain rfl := StateName.record.inj hname
  obtain ⟨-, record, copy, original, hrecord, hvalid, hcopy, hdigest, -⟩ :=
    recordPairAt_eq_some.mp h
  rw [hbackup] at hcopy
  exact ⟨rfl, record, copy, original, hrecord, hvalid, hcopy, hdigest⟩

theorem exists_pairAt {provenance record copy original}
    (hrecord : ownedContentAt P (.record backup) maxRecordBytes files =
      some (record, .record provenance))
    (hvalid : validProvenanceRecord (.record backup) provenance = true)
    (hcopy : ownedContentAt P (.backup backup) maxBackupBytes files = some (copy, original))
    (hdigest : P.sha256 original = provenance.originalSha256) :
    ∃ pair, pairAt P files backup = some pair ∧ pair.provenance = provenance := by
  obtain rfl := backup_of_valid hvalid
  have hjson : StateName.isJson (.record provenance.backup) = true := rfl
  simp only [pairAt, recordPairAt, hjson, hrecord, hvalid, hcopy, hdigest, if_true,
    Option.some.injEq, exists_eq_left']

theorem get_of_ownedContentAt {name limit file content}
    (h : ownedContentAt P name limit files = some (file, content)) :
    files.get (.state name) = some (.regular file) ∧ file.content = content := by
  obtain ⟨⟨hget, -⟩, -, -, hcontent⟩ := ownedContentAt_eq_some.mp h
  exact ⟨hget, hcontent⟩

theorem ownedContentAt_of_entries {name limit file content}
    (hentries : ∀ entry, files'.get (.state name) = some entry →
      files.get (.state name) = some entry)
    (h : ownedContentAt P name limit files' = some (file, content)) :
    ownedContentAt P name limit files = some (file, content) := by
  have hget := (get_of_ownedContentAt h).1
  rw [← h]
  apply ownedContentAt_congr
  rw [hget, hentries _ hget]

theorem pairAt_of_entries (hrecord : ∀ entry, files'.get (.state (.record backup)) = some entry →
      files.get (.state (.record backup)) = some entry)
    (hbackup : ∀ entry, files'.get (.state (.backup backup)) = some entry →
      files.get (.state (.backup backup)) = some entry)
    (h : pairAt P files' backup = some pair) : pairAt P files backup = some pair := by
  obtain ⟨-, record, copy, original, hr, -, hc, -⟩ := pairAt_eq_some h
  have hrget := (get_of_ownedContentAt hr).1
  have hcget := (get_of_ownedContentAt hc).1
  rw [← h]
  apply recordPairAt_congr
  · rw [hrget, hrecord _ hrget]
  · rw [hcget, hbackup _ hcget]

end Pair

/-! ## What a step does to the pairs -/

/-- No pair appears, and no pair changes its sequence number. -/
def NoNewPairs (before after : Files) : Prop :=
  ∀ backup pair, pairAt P after backup = some pair →
    ∃ earlier, pairAt P before backup = some earlier ∧
      earlier.provenance.sequence = pair.provenance.sequence

/-- One pair appears, with a number above all others, and no other pair
changes its number. -/
structure NewPair (backup : BackupName) (before after : Files) : Prop where
  fresh : pairAt P before backup = none
  others : ∀ other pair, other ≠ backup → pairAt P after other = some pair →
    ∃ earlier, pairAt P before other = some earlier ∧
      earlier.provenance.sequence = pair.provenance.sequence
  above : ∃ pair, pairAt P after backup = some pair ∧
    ∀ other earlier, pairAt P before other = some earlier →
      earlier.provenance.sequence < pair.provenance.sequence

section Steps

variable {P} {start files : Files} {prepared : PreparedBackup}

theorem NoNewPairs.refl (files : Files) : NoNewPairs P files files :=
  fun _ pair h => ⟨pair, h, rfl⟩

theorem NoNewPairs.trans {first second third} (h : NoNewPairs P first second)
    (h' : NoNewPairs P second third) : NoNewPairs P first third := by
  intro backup pair hpair
  obtain ⟨middle, hmiddle, hsequence⟩ := h' backup pair hpair
  obtain ⟨earlier, hearlier, hsequence'⟩ := h backup middle hmiddle
  exact ⟨earlier, hearlier, hsequence'.trans hsequence⟩

/-- The records and backups are those of the start. -/
def FromStart (start : Files) : Name → Entry → Prop
  | .state (.record backup), entry => start.get (.state (.record backup)) = some entry
  | .state (.backup backup), entry => start.get (.state (.backup backup)) = some entry
  | _, _ => True

theorem fromStart_refl (start : Files) : start.Within (FromStart start) := by
  intro name entry hget
  unfold FromStart
  split
  · exact hget
  · exact hget
  · trivial

theorem noNewPairs_of_fromStart (h : files.Within (FromStart start)) :
    NoNewPairs P start files := by
  intro backup pair hpair
  refine ⟨pair, pairAt_of_entries ?_ ?_ hpair, rfl⟩
  · exact fun entry hget => h _ entry hget
  · exact fun entry hget => h _ entry hget

/-! ### Prepare -/

/-- Besides what stood there, the new backup and the new record. -/
def Persisting (start : Files) (prepared : PreparedBackup) : Name → Entry → Prop
  | .state (.record backup), entry =>
    start.get (.state (.record backup)) = some entry ∨ backup = prepared.backup ∧
      ∃ file, entry = .regular file ∧ file.content = .record prepared.provenance
  | .state (.backup backup), entry =>
    start.get (.state (.backup backup)) = some entry ∨ backup = prepared.backup
  | _, _ => True

theorem keeps_persist_within (original : Bytes) :
    (persist P prepared original).Keeps (Dir.Within (Persisting start prepared)) := by
  apply keeps_persist_of keeps_unlinkState_within
  · exact keeps_atomicStateCreate_within rfl (fun _ _ _ => trivial) fun _ _ => trivial
  · intro hlength
    have hfits : (Content.bytes original).fits maxBackupBytes = true := by
      simpa [Content.fits] using hlength
    exact keeps_atomicStateCreate_within hfits (fun _ _ _ => trivial) fun _ _ => Or.inr rfl
  · exact keeps_atomicStateCreate_within rfl (fun _ _ _ => trivial) fun file hfile =>
      Or.inr ⟨rfl, file, rfl, hfile.content⟩

/-- A plan takes a free name and a number above all, so what its
persistence leaves has at most the one new pair. -/
theorem persisting_step {service original installed}
    (hplan : IsPlan P service original installed start prepared)
    (h : files.Within (Persisting start prepared)) :
    NoNewPairs P start files ∨ NewPair P prepared.backup start files := by
  have hother : ∀ other pair, other ≠ prepared.backup → pairAt P files other = some pair →
      ∃ earlier, pairAt P start other = some earlier ∧
        earlier.provenance.sequence = pair.provenance.sequence := by
    intro other pair hne hpair
    refine ⟨pair, pairAt_of_entries ?_ ?_ hpair, rfl⟩
    · intro entry hget
      exact (h _ entry hget).resolve_right fun hnew => hne hnew.1
    · intro entry hget
      exact (h _ entry hget).resolve_right hne
  cases hpair : pairAt P files prepared.backup with
  | none =>
    apply Or.inl
    intro other pair hfound
    refine hother other pair ?_ hfound
    intro heq
    rw [heq, hpair] at hfound
    cases hfound
  | some pair =>
    apply Or.inr
    refine ⟨?_, hother, pair, hpair, ?_⟩
    · cases hearlier : pairAt P start prepared.backup with
      | none => rfl
      | some earlier => exact absurd hplan.record_free (recordPairAt_some hearlier).2.2.2
    · intro other earlier hearlier
      obtain ⟨-, record, -, -, hrecord, -⟩ := pairAt_eq_some hpair
      obtain ⟨hget, hcontent⟩ := get_of_ownedContentAt hrecord
      -- The record was not there at the start, so it is the one of the plan.
      have hprovenance : pair.provenance = prepared.provenance := by
        rcases h _ _ hget with hstart | ⟨-, file, hfile, hnew⟩
        · rw [hplan.record_free] at hstart
          cases hstart
        · cases hfile
          rw [hnew] at hcontent
          exact (Content.record.inj hcontent).symm
      rw [hprovenance]
      apply hplan.unallocated
      rw [mem_scannedRecordPairs, (pairAt_eq_some hearlier).1]
      exact hearlier

theorem persisting_start (start : Files) (prepared : PreparedBackup) :
    start.Within (Persisting start prepared) := by
  refine (fromStart_refl start).mono fun name entry h => ?_
  unfold Persisting
  split
  · exact Or.inl h
  · exact Or.inl h
  · trivial

/-- What a `prepare` leaves, wherever it is cut short. -/
theorem prepare_step (start : Files) (service : String) (original installed : Bytes)
    (sinceEpoch : Duration) (n : Nat) :
    NoNewPairs P start (((prepare P service original installed sinceEpoch).run start).cut n) ∨
      ∃ backup, NewPair P backup start
        (((prepare P service original installed sinceEpoch).run start).cut n) := by
  let done : Files → Prop := fun files =>
    NoNewPairs P start files ∨ ∃ backup, NewPair P backup start files
  suffices hmeets : ((prepare P service original installed sinceEpoch).run start).Meets done
      fun _ => done from hmeets.cut n
  refine meets_read_bind (fun _ => Or.inl (NoNewPairs.refl start)) fun prepared hplan => ?_
  have hdone : ∀ f : Files, f.Within (Persisting start prepared) → done f := fun f hf =>
    (persisting_step (isPlan_of_plan hplan) hf).imp_right fun h => ⟨_, h⟩
  have hkeeps : Prog.Keeps (Dir.Within (Persisting start prepared))
      (persist P prepared original >>= fun _ => pure prepared) :=
    keeps_bind (keeps_persist_within original) fun _ => keeps_pure _
  exact hkeeps.meets (persisting_start start prepared) hdone fun _ => hdone

/-- A `prepare` that finds its names free ends with the pair in place. -/
theorem prepare_creates {service original installed sinceEpoch}
    (hplan : planAtUnlocked P service original installed sinceEpoch start = .ok prepared)
    (hlength : original.length ≤ maxBackupBytes)
    (hintent : start.get (.state (.intent .prepare prepared.backup)) = none) :
    ∃ pair, pairAt P ((prepare P service original installed sinceEpoch).run start).final
      prepared.backup = some pair := by
  have hisPlan := isPlan_of_plan hplan
  have hdigest : P.sha256 (.bytes original) = prepared.provenance.originalSha256 := by
    rw [hisPlan.provenance]
  have hunused : sequenceInUse P prepared.provenance.sequence start = false := by
    simp only [sequenceInUse, hisPlan.sequence, decide_false, Bool.false_or]
    rw [List.contains_eq_any_beq, List.any_eq_false]
    intro sequence hmem hbeq
    obtain ⟨pair, hpair, rfl⟩ := List.mem_map.mp hmem
    have hlt := hisPlan.unallocated pair hpair
    rw [beq_iff_eq] at hbeq
    omega
  have hvalid : validProvenanceRecord (.record prepared.backup) prepared.provenance = true := by
    rw [hisPlan.provenance]
    simp [validProvenanceRecord, hisPlan.sequence, hisPlan.isConfined, hisPlan.valid]
  -- Both files are in place, whatever becomes of the intent.
  let present : Files → Prop := fun files =>
    (∃ file, files.get (.state (.record prepared.backup)) = some (.regular file) ∧
      IsState P (.record prepared.provenance) file) ∧
    ∃ file, files.get (.state (.backup prepared.backup)) = some (.regular file) ∧
      IsState P (.bytes original) file
  have hpair : ∀ files, present files → ∃ pair, pairAt P files prepared.backup = some pair := by
    rintro files ⟨⟨record, hrecord, hrecordState⟩, copy, hcopy, hcopyState⟩
    have hfits : (Content.bytes original).fits maxBackupBytes = true := by
      simpa [Content.fits] using hlength
    obtain ⟨pair, hpair, -⟩ := exists_pairAt (ownedContentAt_of_state hrecord hrecordState rfl)
      hvalid (ownedContentAt_of_state hcopy hcopyState hfits) hdigest
    exact ⟨pair, hpair⟩
  have hignores : Ignores {.state (.intent .prepare prepared.backup)} present := by
    intro files files' hsame hpresent
    simpa only [present, hsame (.state (.record prepared.backup)) (by simp),
      hsame (.state (.backup prepared.backup)) (by simp)] using hpresent
  suffices hmeets : ((prepare P service original installed sinceEpoch).run start).Meets
      (fun _ => True) fun _ files => present files from hpair _ hmeets.post_final
  have hbackupFree (entry : Entry) : (start.set (.state (.intent .prepare prepared.backup))
      entry).get (.state (.backup prepared.backup)) = none := by
    rw [Dir.get_set_of_ne _ _ (by simp), hisPlan.backup_free]
  have hrecordFree (entry entry' : Entry) : ((start.set (.state (.intent .prepare prepared.backup))
      entry).set (.state (.backup prepared.backup)) entry').get
        (.state (.record prepared.backup)) = none := by
    rw [Dir.get_set_of_ne _ _ (by simp), Dir.get_set_of_ne _ _ (by simp), hisPlan.record_free]
  rw [prepare, meets_bind, run_read, meets_done, hplan, afterwards_ok, meets_bind, persist,
    meets_bind, run_read, meets_done, hunused, afterwards_ok, if_neg (by simp [hdigest]),
    if_neg (Nat.not_lt.mpr hlength), if_neg (by simp), meets_bind,
    run_atomicStateCreate_of_none hintent]
  refine ⟨trivial, trivial, ?_⟩
  rw [meets_done, afterwards_ok, meets_bind, meets_attempt,
    run_atomicStateCreate_of_none (hbackupFree _)]
  refine ⟨trivial, trivial, ?_⟩
  rw [meets_done, afterwards_ok]
  rw [meets_bind, meets_attempt, run_atomicStateCreate_of_none (hrecordFree _ _)]
  refine ⟨trivial, trivial, ?_⟩
  refine (keeps_unlinkAtIfIdentityMatches hignores (Set.mem_singleton _) _ _).meets ?_
    (fun _ _ => trivial) ?_
  · refine ⟨⟨_, Dir.get_set_self _ _ _, isState_newStateFile _ _⟩, _,
      (Dir.get_set_of_ne _ _ ?_).trans (Dir.get_set_self _ _ _), isState_newStateFile _ _⟩
    simp
  · intro result files hpresent
    cases result with
    | ok value => exact hpresent
    | error e => exact hpresent

/-! ### Commit -/

/-- The entry is the record that a commit publishes. -/
def Committed (prepared : PreparedBackup) (entry : Entry) : Prop :=
  ∃ file, entry = .regular file ∧ file.content = .record prepared.provenance.commit

/-- The record and the exchange file hold the old record or the new
one. -/
def Committing (start : Files) (prepared : PreparedBackup) : Name → Entry → Prop
  | .state (.record backup), entry =>
    start.get (.state (.record backup)) = some entry ∨
      backup = prepared.backup ∧ Committed prepared entry
  | .state (.commitExchange backup), entry => backup = prepared.backup →
    start.get (.state (.record backup)) = some entry ∨ Committed prepared entry
  | .state (.backup backup), entry => start.get (.state (.backup backup)) = some entry
  | _, _ => True

theorem committing_of_fromStart {name} (hname : name ≠ .state (.commitExchange prepared.backup))
    (entry : Entry) (h : FromStart start name entry) : Committing start prepared name entry := by
  unfold Committing
  split
  · exact Or.inl h
  · rename_i backup
    intro heq
    exact absurd (congrArg (fun b => Name.state (.commitExchange b)) heq) hname
  · exact h
  · trivial

theorem committing_exchange (entry : Entry) :
    Committing start prepared (.state (.commitExchange prepared.backup)) entry ↔
      Committing start prepared (.state (.record prepared.backup)) entry := by
  constructor
  · intro h
    exact (h rfl).imp_right fun hnew => ⟨rfl, hnew⟩
  · intro h _
    exact h.imp_right fun hnew => hnew.2

/-- The new record has the number of the one it replaces. -/
theorem noNewPairs_of_committing {record}
    (hrecord : ownedContentAt P (.record prepared.backup) maxRecordBytes start =
      some (record, .record prepared.provenance))
    (h : files.Within (Committing start prepared)) : NoNewPairs P start files := by
  intro backup pair hpair
  obtain ⟨-, file, copy, original, hfile, hvalid, hcopy, hdigest⟩ := pairAt_eq_some hpair
  obtain ⟨hget, hcontent⟩ := get_of_ownedContentAt hfile
  have hbackup : ∀ entry, files.get (.state (.backup backup)) = some entry →
      start.get (.state (.backup backup)) = some entry := fun entry => h _ entry
  rcases h _ _ hget with hold | ⟨heq, new, hnew, hcommitted⟩
  · refine ⟨pair, pairAt_of_entries ?_ hbackup hpair, rfl⟩
    intro entry hentry
    rw [hget] at hentry
    rw [hold, hentry]
  · subst heq
    cases hnew
    have hprovenance : pair.provenance = prepared.provenance.commit := by
      rw [hcommitted] at hcontent
      exact (Content.record.inj hcontent).symm
    rw [hprovenance] at hvalid hdigest
    have hcopied := ownedContentAt_of_entries hbackup hcopy
    obtain ⟨earlier, hearlier, hsame⟩ := exists_pairAt hrecord hvalid hcopied hdigest
    refine ⟨earlier, hearlier, ?_⟩
    rw [hsame, hprovenance]
    rfl

/-- A file with the identity that a commit expects is the record it was
planned for. -/
theorem ownedContentAt_of_identityAt {current}
    (hread : identityAt P (.state (.record prepared.backup)) (some maxRecordBytes) files =
      .ok current)
    (hmatches : stateIdentityMatches P current (P.sha256 (.record prepared.provenance)) = true) :
    ∃ record, ownedContentAt P (.record prepared.backup) maxRecordBytes files =
      some (record, .record prepared.provenance) := by
  obtain ⟨record, hopen, hfits, rfl⟩ := identityAt_eq_ok.mp hread
  simp only [stateIdentityMatches, File.identity, Bool.and_eq_true] at hmatches
  obtain ⟨⟨⟨hdigest, -⟩, hmode⟩, howner⟩ := hmatches
  have howned : ownedStateFile P record = true := by
    simp [ownedStateFile, of_decide_eq_true hmode, of_decide_eq_true howner]
  exact ⟨record, ownedContentAt_eq_some.mpr ⟨hopen, howned, hfits _ rfl,
    P.sha256_injective (of_decide_eq_true hdigest)⟩⟩

/-- What a commit leaves, wherever it is cut short. -/
theorem commit_step (start : Files) (prepared : PreparedBackup) (n : Nat) :
    NoNewPairs P start (((commitUnlocked P prepared).run start).cut n) := by
  have hplain : ∀ f : Files, f.Within (FromStart start) → NoNewPairs P start f :=
    fun f => noNewPairs_of_fromStart
  suffices hmeets : ((commitUnlocked P prepared).run start).Meets (NoNewPairs P start)
      fun _ f => NoNewPairs P start f from hmeets.cut n
  have hintent : (atomicStateCreate P (.intent .commit prepared.backup)
      (.intent (commitIntent P prepared))).Keeps (Dir.Within (FromStart start)) :=
    keeps_atomicStateCreate_within rfl (fun _ _ _ => trivial) fun _ _ => trivial
  refine (hintent start (fromStart_refl start)).bind hplain (fun _ => hplain) ?_
  intro intentIdentity f hf
  refine meets_read_bind (fun _ => hplain f hf) fun current hread => ?_
  split
  · exact (keeps_attempt_fail (keeps_unlinkState_within _ _) _).meets hf hplain fun _ => hplain
  · rename_i hmatches
    obtain ⟨record, hrecord⟩ := ownedContentAt_of_identityAt hread (by simpa using hmatches)
    have hstarted := ownedContentAt_of_entries (fun entry => hf _ entry) hrecord
    have hcommitting : ∀ f : Files, f.Within (Committing start prepared) →
        NoNewPairs P start f := fun f => noNewPairs_of_committing hstarted
    have hcreate : ((atomicStateCreate P (.commitExchange prepared.backup)
        (.record prepared.provenance.commit)).run f).Meets (Dir.Within (FromStart start))
        (Turned (FromStart start) (Committing start prepared)) :=
      meets_atomicStateCreate_within hf rfl (fun _ _ _ => trivial)
        (fun file hfile _ => Or.inr ⟨file, rfl, hfile.content⟩)
        fun _ hne entry => committing_of_fromStart hne entry
    have hexchange : (renameExchangeAt (.state (.commitExchange prepared.backup))
        (.state (.record prepared.backup))).Keeps (Dir.Within (Committing start prepared)) :=
      keeps_renameExchangeAt_within committing_exchange
    rw [meets_bind, meets_attempt]
    refine hcreate.mono hplain fun result g hg => ?_
    cases result with
    | error e =>
      refine Prog.Keeps.meets ?_ hg hplain fun _ => hplain
      exact keeps_ite (keeps_fail _) (keeps_attempt_fail (keeps_unlinkState_within _ _) _)
    | ok replacement =>
      refine Prog.Keeps.meets ?_ hg hcommitting fun _ => hcommitting
      have hbind : (createPublicationBinding P .commit (commitIntent P prepared)
          replacement).Keeps (Dir.Within (Committing start prepared)) := by
        refine keeps_bind ?_ fun _ => keeps_pure _
        exact keeps_atomicStateCreate_within rfl (fun _ _ _ => trivial) fun _ _ => trivial
      apply keeps_attempt_bind hbind
      · intro publication
        refine keeps_bind hexchange fun _ => ?_
        exact keeps_finishCommit_of keeps_unlinkState_within hexchange _ _ _ _
      · intro e
        refine keeps_ite (keeps_fail _) ?_
        refine keeps_bind (keeps_cleanupUnpublishedTemp_within _ _ _ _) fun _ => ?_
        exact keeps_bind (keeps_unlinkState_within _ _) fun _ => keeps_fail _

/-! ### Cleanup -/

/-- The backup and its quarantine name hold the backup of the start, and
so for the record once it has been moved. -/
def Cleaning (start : Files) (backup : BackupName) (both : Bool) : Name → Entry → Prop
  | .state (.record other), entry => start.get (.state (.record other)) = some entry
  | .state (.backup other), entry => start.get (.state (.backup other)) = some entry
  | .state (.quarantineBackup other), entry => other = backup →
    start.get (.state (.backup other)) = some entry
  | .state (.quarantineRecord other), entry => both = true → other = backup →
    start.get (.state (.record other)) = some entry
  | _, _ => True

section Cleaning

variable {backup : BackupName} {both : Bool}

theorem fromStart_of_cleaning {name entry}
    (h : Cleaning start backup both name entry) : FromStart start name entry := by
  unfold FromStart
  split
  · exact h
  · exact h
  · trivial

theorem noNewPairs_of_cleaning (h : files.Within (Cleaning start backup both)) :
    NoNewPairs P start files :=
  noNewPairs_of_fromStart (h.mono fun _ _ => fromStart_of_cleaning)

theorem meets_of_cleaning {program : Action Unit}
    (h : program.Keeps (Dir.Within (Cleaning start backup both)))
    (hfiles : files.Within (Cleaning start backup both)) :
    (program.run files).Meets (NoNewPairs P start) fun _ f => NoNewPairs P start f :=
  h.meets hfiles (fun _ => noNewPairs_of_cleaning) fun _ _ => noNewPairs_of_cleaning

theorem cleaning_of_fromStart {name} (hname : name ≠ .state (.quarantineBackup backup))
    (entry : Entry) (h : FromStart start name entry) : Cleaning start backup false name entry := by
  unfold Cleaning
  split
  · exact h
  · exact h
  · rename_i other
    intro heq
    exact absurd (congrArg (fun b => Name.state (.quarantineBackup b)) heq) hname
  · intro hboth
    cases hboth
  · trivial

theorem cleaning_both {name} (hname : name ≠ .state (.quarantineRecord backup)) (entry : Entry)
    (h : Cleaning start backup false name entry) : Cleaning start backup true name entry := by
  unfold Cleaning at h ⊢
  split
  · exact h
  · exact h
  · exact h
  · rename_i other
    intro _ heq
    exact absurd (congrArg (fun b => Name.state (.quarantineRecord b)) heq) hname
  · trivial

theorem keeps_restoreBackup :
    (renameNoreplaceAt (.state (.quarantineBackup backup)) (.state (.backup backup))).Keeps
      (Dir.Within (Cleaning start backup both)) :=
  keeps_renameNoreplaceAt_within fun _ h => h rfl

theorem meets_finishCleanup_within (hfiles : files.Within (Cleaning start prepared.backup false))
    (expectedRecord quarantinedBackup intentIdentity : FileIdentity) :
    ((finishCleanup P prepared expectedRecord quarantinedBackup intentIdentity).run files).Meets
      (NoNewPairs P start) fun _ f => NoNewPairs P start f := by
  have hmove : ((renameNoreplaceAt (.state (.record prepared.backup))
      (.state (.quarantineRecord prepared.backup))).run files).Meets
      (Dir.Within (Cleaning start prepared.backup false))
      (Turned (Cleaning start prepared.backup false) (Cleaning start prepared.backup true)) :=
    meets_renameNoreplaceAt_within hfiles (fun _ h _ _ => h) fun _ hne entry =>
      cleaning_both hne entry
  have hrecord : (renameNoreplaceAt (.state (.quarantineRecord prepared.backup))
      (.state (.record prepared.backup))).Keeps
      (Dir.Within (Cleaning start prepared.backup true)) :=
    keeps_renameNoreplaceAt_within fun _ h => h rfl rfl
  rw [finishCleanup, meets_bind, meets_attempt]
  refine hmove.mono (fun _ => noNewPairs_of_cleaning) fun result f hf => ?_
  cases result with
  | error e => exact meets_of_cleaning (keeps_attempt_fail keeps_restoreBackup _) hf
  | ok value =>
    refine meets_of_cleaning ?_ hf
    refine keeps_reading fun quarantined => keeps_ite ?_ ?_
    · refine keeps_bind (keeps_attempt hrecord) fun _ => ?_
      exact keeps_attempt_fail keeps_restoreBackup _
    · refine keeps_bind (keeps_unlinkState_within _ _) fun _ => ?_
      exact keeps_bind (keeps_unlinkState_within _ _) fun _ => keeps_unlinkState_within _ _

end Cleaning

theorem meets_cleanupOneAt_within (start : Files) (prepared : PreparedBackup) :
    ((cleanupOneAt P prepared).run start).Meets (NoNewPairs P start)
      fun _ f => NoNewPairs P start f := by
  have hplain : ∀ f : Files, f.Within (FromStart start) → NoNewPairs P start f :=
    fun f => noNewPairs_of_fromStart
  have hrefl := NoNewPairs.refl (P := P) start
  refine meets_read_bind (fun _ => hrefl) fun backup _ => ?_
  refine meets_read_bind (fun _ => hrefl) fun record _ => ?_
  split
  · exact hrefl
  · exact hrefl
  · rename_i expectedBackup expectedRecord _ _
    refine meets_read_bind (fun _ => hrefl) fun _ _ => ?_
    refine meets_read_bind (fun _ => hrefl) fun _ _ => ?_
    split
    · exact hrefl
    · have hintent : (atomicStateCreate P (.intent .cleanup prepared.backup)
          (.intent (cleanupIntent prepared expectedBackup expectedRecord))).Keeps
          (Dir.Within (FromStart start)) :=
        keeps_atomicStateCreate_within rfl (fun _ _ _ => trivial) fun _ _ => trivial
      refine (hintent start (fromStart_refl start)).bind hplain (fun _ => hplain) ?_
      intro intentIdentity f hf
      have hmove : ((renameNoreplaceAt (.state (.backup prepared.backup))
          (.state (.quarantineBackup prepared.backup))).run f).Meets
          (Dir.Within (FromStart start))
          (Turned (FromStart start) (Cleaning start prepared.backup false)) :=
        meets_renameNoreplaceAt_within hf (fun _ h _ => h) fun _ hne entry =>
          cleaning_of_fromStart hne entry
      refine hmove.bind hplain (fun _ => hplain) fun _ g hg => ?_
      refine meets_read_bind (fun _ => noNewPairs_of_cleaning hg) fun quarantined _ => ?_
      split
      · exact meets_of_cleaning (keeps_attempt_fail keeps_restoreBackup _) hg
      · exact meets_finishCleanup_within hg _ _ _

theorem keeps_cleanupOneAt_noNewPairs (start : Files) (prepared : PreparedBackup) :
    (cleanupOneAt P prepared).Keeps (NoNewPairs P start) := by
  intro files hfiles
  exact (meets_cleanupOneAt_within files prepared).mono (fun _ h => hfiles.trans h)
    fun _ _ h => hfiles.trans h

/-- What a cleanup leaves, wherever it is cut short. -/
theorem cleanup_step (start : Files) (service : String) (n : Nat) :
    NoNewPairs P start (((cleanup P service).run start).cut n) := by
  have hkeeps : (cleanup P service).Keeps (NoNewPairs P start) :=
    keeps_reading fun records =>
      keeps_forM fun prepared _ => keeps_cleanupOneAt_noNewPairs start prepared
  exact (hkeeps start (NoNewPairs.refl start)).cut n

end Steps

end Facelock.Store
