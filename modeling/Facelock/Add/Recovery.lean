import Facelock.Add.Intents

/-!
# Recovery after an addition

The last pass of recovery, over prepared records, and one whole recovery
from any stage of an addition.  A recovery that succeeds leaves one of
three outcomes.

A recovery fails where it would have to create a name that is taken, or
to read a service file above the size limit.
-/

namespace Facelock.Store

open Facelock.Crash
open Facelock.Pam (Bytes)

variable {P : Platform} {dirs : PamDirs} {base files : Files} {own : OpFiles}

namespace Addition

variable {A : Addition P} {forward gap : Bool} {inv : Files → Prop}

/-! ## Outcomes -/

/-- What a recovery that succeeds leaves.  Where the temporary file of the
replacement had no binding, it stays with its intent and its pair. -/
inductive Outcome (A : Addition P) (base : Files) (gap : Bool) (files : Files) : Prop where
  | restored {p : Option File} (hp : A.Orphan false p)
      (h : Shape base A.op { service := some A.file, replaceBinding := p } files)
  | committed {b n x : File} (hb : A.IsBackup b) (hn : A.IsInstalled n)
      (hx : A.IsCommitted x) (hfits : A.Fits)
      (h : Shape base A.op { service := some n, backup := some b, record := some x } files)
  | undecided {b r i n : File} (hgap : gap = true) (hb : A.IsBackup b) (hr : A.IsRecord r)
      (hi : A.IsReplaceIntent i) (hn : A.IsReplacement n)
      (h : Shape base A.op
        { service := some A.file, temp := some n, backup := some b, record := some r
          replaceIntent := some i } files)

/-! ## Records -/

def pair (A : Addition P) (b r : File) : PreparedBackup :=
  { backup := A.op
    provenance := A.prepared.provenance
    backupIdentity := some (b.identity P)
    recordIdentity := some (r.identity P) }

def committedPair (A : Addition P) (b x : File) : PreparedBackup :=
  { A.pair b x with provenance := A.prepared.provenance.commit }

variable {b r : File}

section

variable (h : Shape base A.op own files)

include h

theorem recordPairAt_of_files {provenance} (hb : A.IsBackup b)
    (hr : IsState P (.record provenance) r) (hbackup : own.backup = some b)
    (hrecord : own.record = some r)
    (hvalid : validProvenanceRecord (.record A.op) provenance = true)
    (hname : provenance.backup = A.op)
    (horiginal : P.sha256 (.bytes A.original) = provenance.originalSha256) :
    recordPairAt P files (.record A.op) = some { A.pair b r with provenance } := by
  have hgetRecord : files.get (.state (.record A.op)) = some (.regular r) :=
    h.get_file .record rfl hrecord
  have hgetBackup : files.get (.state (.backup A.op)) = some (.regular b) :=
    h.get_file .backup rfl hbackup
  have hcontent := ownedContentAt_of_state hgetBackup hb.toIsState (decide_eq_true hb.fits)
  simp [recordPairAt, StateName.isJson, ownedContentAt_of_state hgetRecord hr rfl, hvalid, hname,
    hcontent, horiginal, pair]

theorem recordPairAt_pair (hb : A.IsBackup b)
    (hr : A.IsRecord r) (hbackup : own.backup = some b) (hrecord : own.record = some r) :
    recordPairAt P files (.record A.op) = some (A.pair b r) :=
  recordPairAt_of_files h hb hr hbackup hrecord A.valid_record A.provenance_backup
    A.provenance_originalSha256.symm

theorem recordPairAt_committedPair {x} (hb : A.IsBackup b) (hx : A.IsCommitted x)
    (hbackup : own.backup = some b) (hrecord : own.record = some x) :
    recordPairAt P files (.record A.op) = some (A.committedPair b x) :=
  recordPairAt_of_files h hb hx hbackup hrecord A.valid_committed A.provenance_backup
    A.provenance_originalSha256.symm

theorem recordPairAt_none (hrecord : own.record = none) :
    recordPairAt P files (.record A.op) = none := by
  have hget : files.get (.state (.record A.op)) = none := h.get_none .record rfl hrecord
  simp [recordPairAt, ownedContentAt_of_none hget]

/-- A pass over records that has nothing to do for the operation's own pair
has nothing to do. -/
theorem run_recoverRecords_done (hbase : Settled P base)
    (hown : ∀ found, recordPairAt P files (.record A.op) = some found →
      (recoverRecord P A.op.service found).run files = .done files (.ok ())) :
    (recoverRecords P).run files = .done files (.ok ()) := by
  apply run_recoverRecords_idle
  intro service found hfound
  obtain ⟨hscanned, hservice, -⟩ := mem_validatedRecords.mp hfound
  by_cases hbackup : found.backup = A.op
  · have hat := mem_scannedRecordPairs.mp hscanned
    rw [hbackup] at hat
    have hop := (recordPairAt_some hat).2.2.1
    rw [hservice, hbackup] at hop
    rw [hop]
    exact hown found hat
  · exact run_recoverRecord_of_committed (h.committed_of_ne hbase hscanned hbackup)

end

/-- The sequence number of the operation is no other pair's. -/
def Unallocated (A : Addition P) (base : Files) : Prop :=
  ∀ backup other, recordPairAt P base (.record backup) = some other →
    other.provenance.sequence ≠ A.prepared.provenance.sequence

theorem Unallocated.of_littered {litter} (h : A.Unallocated base)
    (hlitter : Littered P base litter) :
    A.Unallocated litter := by
  intro backup other hother
  exact h backup other (hlitter.recordPairAt_eq backup ▸ hother)

theorem cleanupIntent_pair (hb : A.IsBackup b) (hr : A.IsRecord r) :
    Store.cleanupIntent (A.pair b r) (b.identity P) (r.identity P) = A.cleanupIntent := by
  simp only [Store.cleanupIntent, cleanupIntent, hb.identity_sha256, hr.identity_sha256]
  rfl

variable {p : Option File} {post : Except IoError Unit → Files → Prop}

/-- `cleanup_one_at` of the pair of an addition that was not installed. -/
theorem meets_cleanupOneAt (hinv : A.Covers base false gap inv) (hb : A.IsBackup b)
    (hr : A.IsRecord r) (hp : A.Orphan false p)
    (h : Shape base A.op
      { OpFiles.saved A.file b r with replaceBinding := p } files)
    (hok : A.EndsAt base post { service := some A.file, replaceBinding := p }) :
    ((cleanupOneAt P (A.pair b r)).run files).Meets inv post := by
  have hbfits : b.content.fits maxBackupBytes = true := by
    rw [hb.content]
    exact decide_eq_true hb.fits
  have hrfits : r.content.fits maxRecordBytes = true := by
    rw [hr.content]
    rfl
  have hbackup : openRegularAt (.state (.backup A.op)) files = .ok b :=
    openRegularAt_of_get (h.get_file .backup rfl rfl) hb.links
  have hrecord : openRegularAt (.state (.record A.op)) files = .ok r :=
    openRegularAt_of_get (h.get_file .record rfl rfl) hr.links
  simp only [cleanupOneAt, meets_bind, run_read, pair, hbackup, hrecord, meets_done, afterwards_ok,
    run_ofResult, identityOfOpenBounded_of_fits hbfits, identityOfOpenBounded_of_fits hrfits,
    identityMatches, decide_true, Bool.not_true, Bool.or_self, Bool.false_eq_true, if_false]
  change ((atomicStateCreate P (.intent .cleanup A.op)
    (.intent (Store.cleanupIntent (A.pair b r) (b.identity P) (r.identity P)))).run files).Meets _ _
  rw [cleanupIntent_pair hb hr]
  refine hinv.meets_create h (.paired hb hr hp) .cleanupIntent rfl rfl rfl ?_
  intro i files₁ hi h₁
  obtain ⟨files₂, hmoveBackup, h₂⟩ := h₁.run_rename .backup .backupQuarantine rfl rfl
  simp only [Slot.name] at hmoveBackup
  have hquarantined : identityAt P (.state (.quarantineBackup A.op)) (some maxBackupBytes) files₂ =
      .ok (b.identity P) := by
    refine h₂.identityAt_slot .backupQuarantine rfl rfl hb.links ?_
    intro bound hbound
    obtain rfl := Option.some.inj hbound
    exact hbfits
  obtain ⟨files₃, hmoveRecord, h₃⟩ := h₂.run_rename .record .recordQuarantine rfl rfl
  simp only [Slot.name] at hmoveRecord
  have hquarantinedRecord : identityAt P (.state (.quarantineRecord A.op)) (some maxRecordBytes)
      files₃ = .ok (r.identity P) :=
    h₃.identityAt_slot .recordQuarantine rfl rfl hr.links fun bound => fits_record hr bound _
  simp only [afterwards_ok, meets_bind, hmoveBackup, meets_step, meets_done, run_read,
    hquarantined, decide_true, Bool.not_true, Bool.false_eq_true, if_false, finishCleanup,
    meets_attempt, hmoveRecord, hquarantinedRecord, identityMatches]
  refine ⟨hinv.at_stage (.cleaning hi (.none hb hr) hp) .bare h₁,
    hinv.at_stage (.cleaning hi (.backup hb hr) hp) .bare h₂, ?_⟩
  have hunlink := meets_unlinkQuarantine hinv hi (.both hb hr) hp h₃ hok
  simpa [meets_bind, unlinkEntry, Option.map_some] using hunlink

theorem readRegularNofollow_slot {content file} (h : Shape base A.op own files)
    (hservice : own.service = some file) (hlinks : file.links = 1)
    (hcontent : file.content = .bytes content) (hfits : content.length ≤ maxBackupBytes) :
    readRegularNofollow P A.op.service files = .ok (.bytes content, file.identity P) := by
  have hget : files.get (.pam (.service A.op.service)) = some (.regular file) :=
    h.get_file .service rfl hservice
  have hread : readOpenBounded file maxBackupBytes = .ok (.bytes content) := by
    rw [readOpenBounded_of_fits (by rw [hcontent]; exact decide_eq_true hfits), hcontent]
  simp [readRegularNofollow, openRegularAt_of_get hget hlinks, hread]

/-- Recovery of a prepared pair goes by the content of the service file. -/
theorem run_recoverRecord_pair {file content} (h : Shape base A.op own files)
    (hintent : own.replaceIntent = none) (hservice : own.service = some file)
    (hlinks : file.links = 1) (hcontent : file.content = .bytes content)
    (hfits : content.length ≤ maxBackupBytes) :
    (recoverRecord P A.op.service (A.pair b r)).run files =
      (if content = A.installed then commitUnlocked P A.prepared
        else if content = A.original then cleanupOneAt P (A.pair b r)
        else pure ()).run files := by
  have hunblocked : entryExistsAt (.state (.intent .pamReplace A.op)) files = false :=
    h.entryExistsAt_empty .replaceIntent rfl hintent
  have hread := readRegularNofollow_slot h hservice hlinks hcontent hfits
  have hsha : ∀ raw : Bytes, P.sha256 (.bytes content) = P.sha256 (.bytes raw) ↔ content = raw := by
    intro raw
    rw [P.sha256_injective.eq_iff, Content.bytes.injEq]
  simp only [recoverRecord, pair, A.provenance_state, ne_eq, not_true, if_false, run_bind, run_read,
    bind_ok, hunblocked, Bool.false_eq_true, run_attempt, hread, attempt_done,
    A.provenance_installedSha256, A.provenance_originalSha256, hsha]
  rfl

theorem isInstalled_file (h : A.installed = A.original) : A.IsInstalled A.file where
  content := by rw [h, A.content]
  links := A.links
  mode := rfl
  uid := rfl
  gid := rfl

theorem run_recoverRecords_restored (hbase : Settled P base)
    (h : Shape base A.op { service := some A.file, replaceBinding := p } files) :
    (recoverRecords P).run files = .done files (.ok ()) := by
  apply run_recoverRecords_done h hbase
  intro found hfound
  rw [recordPairAt_none h rfl] at hfound
  cases hfound

theorem run_settle_restored (hbase : Settled P base)
    (h : Shape base A.op { service := some A.file, replaceBinding := p } files) :
    (recoverIntents P >>= fun _ => recoverRecords P).run files = .done files (.ok ()) := by
  have hintents := run_recoverIntents_nil h hbase rfl rfl rfl rfl
  rw [run_bind, hintents, bind_ok, run_recoverRecords_restored hbase h]

/-- A record whose replacement has not been decided is passed over. -/
theorem run_recoverRecords_undecided {i n} (hbase : Settled P base) (hb : A.IsBackup b)
    (hr : A.IsRecord r)
    (h : Shape base A.op
      { OpFiles.saved A.file b r with replaceIntent := some i, temp := some n } files) :
    (recoverRecords P).run files = .done files (.ok ()) := by
  apply run_recoverRecords_done h hbase
  intro found hfound
  rw [recordPairAt_pair h hb hr rfl rfl] at hfound
  obtain rfl := Option.some.inj hfound
  have hblocked : entryExistsAt (.state (.intent .pamReplace A.op)) files = true :=
    h.entryExistsAt_file .replaceIntent rfl rfl
  simp [recoverRecord, pair, run_bind, hblocked]

theorem meets_settle_committed {n x} (hbase : Settled P base) (hb : A.IsBackup b)
    (hn : A.IsInstalled n) (hx : A.IsCommitted x) (hfits : A.Fits)
    (h : Shape base A.op (.saved n b x) files)
    (hok : ∀ files', A.Outcome base gap files' → post (.ok ()) files') :
    ((recoverIntents P >>= fun _ => recoverRecords P).run files).Meets inv post := by
  have hrecords : (recoverRecords P).run files = .done files (.ok ()) := by
    apply run_recoverRecords_done h hbase
    intro found hfound
    rw [recordPairAt_committedPair h hb hx rfl rfl] at hfound
    obtain rfl := Option.some.inj hfound
    exact run_recoverRecord_of_committed rfl
  rw [run_bind, run_recoverIntents_nil h hbase rfl rfl rfl rfl, bind_ok, hrecords, meets_done]
  exact hok files (.committed hb hn hx hfits h)

/-- When a recovery from a crash point of the addition itself succeeds: an
exchange file has its binding, and no replacement above the size limit has
been created. -/
def Recovers (A : Addition P) (own : OpFiles) : Prop :=
  (own.exchange ≠ none → own.commitBinding ≠ none) ∧
    (A.Fits ∨ own.temp = none ∧ own.replaceBinding = none)

theorem recovers_of_fits (hfits : A.Fits)
    (hexchange : own.exchange ≠ none → own.commitBinding ≠ none) : A.Recovers own :=
  ⟨hexchange, .inl hfits⟩

theorem recovers_of_unreplaced (hexchange : own.exchange = none) (htemp : own.temp = none)
    (hbinding : own.replaceBinding = none) : A.Recovers own :=
  ⟨fun hne => absurd hexchange hne, .inr ⟨htemp, hbinding⟩⟩

theorem not_recovers_oversized (hover : maxBackupBytes < A.installed.length)
    (hown : own.temp ≠ none ∨ own.replaceBinding ≠ none) : ¬A.Recovers own := by
  rintro ⟨-, hfits | ⟨htemp, hbinding⟩⟩
  · omega
  · exact hown.elim (fun hne => hne htemp) fun hne => hne hbinding

section

variable (hinv : A.Covers base false gap inv) (hbase : Settled P base)
  (hsequence : A.Unallocated base)

include hinv hbase hsequence

section Installed

variable {n : File} (hb : A.IsBackup b) (hr : A.IsRecord r) (hn : A.IsInstalled n)
  (hp : A.CommitOrphan false p) (hfits : A.Fits)
  (h : Shape base A.op { OpFiles.saved n b r with commitBinding := p } files)
  (hok : p = none → ∀ files', A.Outcome base gap files' → post (.ok ()) files')
  (herror : p ≠ none → ∀ e files', A.Reach base false gap files' → post (.error e) files')

include hb hr hn hp hfits h hok herror

theorem meets_recoverRecords_installed : ((recoverRecords P).run files).Meets inv post := by
  refine h.meets_recoverRecords hbase (recordPairAt_pair h hb hr rfl rfl) hsequence ?_
  rw [run_recoverRecord_pair h rfl rfl hn.links hn.content hfits, if_pos rfl]
  refine meets_commit hinv hb hr hn hp hfits h ?_ ?_
  · intro hnone x files' hx h'
    exact ⟨hok hnone files' (.committed hb hn hx hfits h'), _, h'⟩
  · intro hsome files' h'
    exact herror hsome _ files' (reach_of_shape (.installed hb hr hn hp hfits) h')

theorem meets_settle_installed :
    ((recoverIntents P >>= fun _ => recoverRecords P).run files).Meets inv post := by
  rw [run_bind, run_recoverIntents_nil h hbase rfl rfl rfl rfl, bind_ok]
  exact meets_recoverRecords_installed hinv hbase hsequence hb hr hn hp hfits h hok herror

end Installed

/-- A published replacement without a binding in its way is committed. -/
theorem meets_settle_unblocked {n} (hb : A.IsBackup b) (hr : A.IsRecord r) (hn : A.IsInstalled n)
    (hfits : A.Fits) (h : Shape base A.op (.saved n b r) files)
    (hok : ∀ files', A.Outcome base gap files' → post (.ok ()) files') :
    ((recoverIntents P >>= fun _ => recoverRecords P).run files).Meets inv post :=
  meets_settle_installed hinv hbase hsequence hb hr hn commitOrphan_none hfits h (fun _ => hok)
    fun hne => absurd rfl hne

/-- The pair of a service file that still has its original content goes.
Where the new content is the old one, the pair is committed instead. -/
theorem meets_recoverRecords_paired (hdiffers : p = none ∨ A.installed ≠ A.original)
    (hb : A.IsBackup b) (hr : A.IsRecord r) (hp : A.Orphan false p)
    (h : Shape base A.op
      { OpFiles.saved A.file b r with replaceBinding := p } files)
    (hok : ∀ files', A.Outcome base gap files' → post (.ok ()) files') :
    ((recoverRecords P).run files).Meets inv post := by
  by_cases hsame : A.installed = A.original
  · obtain rfl : p = none := hdiffers.resolve_right fun hne => hne hsame
    have hfits : A.Fits := le_of_eq_of_le (congrArg List.length hsame) hb.fits
    exact meets_recoverRecords_installed hinv hbase hsequence hb hr (isInstalled_file hsame)
      commitOrphan_none hfits h (fun _ => hok) fun hne => absurd rfl hne
  · refine h.meets_recoverRecords hbase (recordPairAt_pair h hb hr rfl rfl) hsequence ?_
    rw [run_recoverRecord_pair h rfl rfl A.links A.content hb.fits, if_neg (Ne.symm hsame),
      if_pos rfl]
    refine meets_cleanupOneAt hinv hb hr hp h ?_
    intro files' h'
    exact ⟨hok files' (.restored hp h'), _, h'⟩

/-- A commit whose intent name is taken fails before it changes anything. -/
theorem meets_recoverRecords_blocked {n i x} (hb : A.IsBackup b)
    (hr : A.IsRecord r) (hn : A.IsInstalled n) (hfits : A.Fits)
    (hstage : A.Stage false gap
      { OpFiles.saved n b r with commitIntent := some i, exchange := some x, commitBinding := p })
    (h : Shape base A.op
      { OpFiles.saved n b r with commitIntent := some i, exchange := some x, commitBinding := p }
      files)
    (herror : post (.error .alreadyExists) files) :
    ((recoverRecords P).run files).Meets inv post := by
  refine h.meets_recoverRecords hbase (recordPairAt_pair h hb hr rfl rfl) hsequence ?_
  rw [run_recoverRecord_pair h rfl rfl hn.links hn.content hfits, if_pos rfl]
  simp only [commitUnlocked, meets_bind]
  refine h.meets_create_exists .commitIntent rfl rfl rfl ?_ herror
  intro base' files' hstaged hshape
  exact hinv.at_stage hstage hstaged hshape

/-! ## One recovery -/

/-- The passes over publications, intents and records, from any stage of an
addition. -/
theorem meets_recoverPasses
    (hdiffers : forward = true ∨ A.installed ≠ A.original) (hstage : A.Stage forward gap own)
    (h : Shape base A.op own files)
    (hok : (forward = true → A.Recovers own) →
      ∀ final, A.Outcome base gap final → post (.ok ()) final)
    (herror : (forward = true → ¬A.Recovers own) →
      ∀ e final, A.Reach base false gap final → post (.error e) final) :
    ((recoverPublications P dirs >>= fun _ => recoverIntents P >>= fun _ => recoverRecords P).run
      files).Meets inv post := by
  have hreach : A.Reach base false gap files := reach_of_shape hstage.weaken h
  have hfitted : A.Fits → (own.exchange ≠ none → own.commitBinding ≠ none) →
      ∀ final, A.Outcome base gap final → post (.ok ()) final :=
    fun hfits hexchange => hok fun _ => recovers_of_fits hfits hexchange
  rw [meets_bind]
  -- each stage leaves work to one of the three passes, and the others pass it by
  cases hstage with
  | unstarted hp =>
    rw [run_recoverPublications_orphan h hbase hp rfl rfl rfl rfl (by simp), meets_done,
      afterwards_ok, run_settle_restored hbase h, meets_done]
    exact hok (fun hforward => recovers_of_unreplaced rfl rfl (hp.1 hforward)) files
      (.restored (hp.weaken (by simp)) h)
  | preparing hi hb hr hbr =>
    have hok := hok fun _ => recovers_of_unreplaced rfl rfl rfl
    rw [run_recoverPublications_nil h hbase rfl rfl, meets_done, afterwards_ok, meets_bind]
    refine meets_recoverIntents_preparing hinv hbase hi hb hr hbr h ?_ ?_
    · intro _ files₂ h₂
      rw [afterwards_ok, run_recoverRecords_restored hbase h₂]
      exact hok files₂ (.restored orphan_none h₂)
    · intro backup record hb hr files₂ h₂
      exact meets_recoverRecords_paired hinv hbase hsequence (.inl rfl) hb hr orphan_none h₂ hok
  | paired hb hr hp =>
    rw [run_recoverPublications_orphan h hbase hp rfl rfl rfl rfl (by simp), meets_done,
      afterwards_ok, run_bind, run_recoverIntents_nil h hbase rfl rfl rfl rfl, bind_ok]
    exact meets_recoverRecords_paired hinv hbase hsequence (hdiffers.imp_left hp.1) hb hr
      (hp.weaken (by simp)) h (hok fun hforward => recovers_of_unreplaced rfl rfl (hp.1 hforward))
  | replacing hb hr hi =>
    have hok := hok fun _ => recovers_of_unreplaced rfl rfl rfl
    rw [run_recoverPublications_nil h hbase rfl rfl, meets_done, afterwards_ok, meets_bind]
    refine meets_recoverIntents_replacing hbase hb hr hi h
      (hinv.at_stage (.replacing hb hr hi) .bare h) ?_
    intro files₂ h₂
    exact meets_recoverRecords_paired hinv hbase hsequence (.inl rfl) hb hr orphan_none h₂ hok
  | created hb hr hi hn =>
    rw [run_recoverPublications_nil h hbase rfl rfl, meets_done, afterwards_ok, meets_bind,
      run_recoverIntents_created hbase hb hr hi hn h, meets_done]
    by_cases hfits : A.Fits
    · rw [if_pos hfits, afterwards_ok, run_recoverRecords_undecided hbase hb hr h]
      exact hfitted hfits (by simp) files (.undecided rfl hb hr hi hn h)
    · rw [if_neg hfits, afterwards_error]
      exact herror (fun _ => not_recovers_oversized (Nat.not_le.mp hfits) (.inl (by simp))) _ files
        hreach
  | bound hb hr hi hn hp =>
    refine meets_recoverPublications_bound hinv hbase hb hr hi hn hp h ?_ ?_
    · intro hfits files₂ h₂
      rw [afterwards_ok, run_bind, run_recoverIntents_nil h₂ hbase rfl rfl rfl rfl, bind_ok]
      exact meets_recoverRecords_paired hinv hbase hsequence (.inl rfl) hb hr orphan_none h₂
        (hfitted hfits (by simp))
    · intro hover e
      exact herror (fun _ => not_recovers_oversized hover (.inl (by simp))) e files hreach
  | unbound hb hr hi hp =>
    rw [run_recoverPublications_orphan h hbase hp rfl rfl rfl rfl (by simpa using hi),
      meets_done, afterwards_ok, meets_bind]
    refine meets_recoverIntents_replacing hbase hb hr hi h
      (hinv.at_stage (.unbound hb hr hi hp) .bare h) ?_
    intro files₂ h₂
    exact meets_recoverRecords_paired hinv hbase hsequence (.inr (hdiffers.resolve_left (by simp)))
      hb hr hp h₂ (hok (by simp))
  | cleaning hi hq hp =>
    rw [run_recoverPublications_orphan h hbase hp rfl rfl rfl rfl (by simp), meets_done,
      afterwards_ok, meets_bind]
    refine meets_recoverIntents_cleaning hinv hbase hi hq hp h ?_
    intro files₂ h₂
    rw [afterwards_ok, run_recoverRecords_restored hbase h₂]
    exact hok (by simp) files₂ (.restored hp h₂)
  | exchanged hb hr hi hn hp ht =>
    refine meets_recoverPublications_exchanged hinv hbase hb hr hi hn hp ht h ?_ ?_
    · intro hfits files₂ h₂
      exact meets_settle_unblocked hinv hbase hsequence hb hr hn.toIsInstalled hfits h₂
        (hfitted hfits (by simp))
    · intro hover e
      exact herror (fun _ => not_recovers_oversized hover (.inr (by simp))) e files hreach
  | published hb hr hn hp hfits =>
    refine meets_recoverPublications_published hinv hbase hb hr hn hp hfits h ?_
    intro files₂ h₂
    exact meets_settle_unblocked hinv hbase hsequence hb hr hn.toIsInstalled hfits h₂
      (hfitted hfits (by simp))
  | installed hb hr hn hp hfits =>
    rw [run_recoverPublications_commitOrphan h hbase hr hp rfl rfl rfl rfl (by simp), meets_done]
    exact meets_settle_installed hinv hbase hsequence hb hr hn (hp.weaken (by simp)) hfits
      h (fun _ => hfitted hfits (by simp))
      fun hne => herror fun hforward => absurd (hp.1 hforward) hne
  | committing hb hr hn hi hp hfits =>
    rw [run_recoverPublications_commitOrphan h hbase hr hp rfl rfl rfl rfl (by simpa using hi),
      meets_done, afterwards_ok, meets_bind]
    refine meets_recoverIntents_committing hinv hbase hb hr hn hi (hp.weaken (by simp)) hfits h ?_
    intro files₂ h₂
    exact meets_recoverRecords_installed hinv hbase hsequence hb hr hn (hp.weaken (by simp)) hfits
      h₂ (fun _ => hfitted hfits (by simp))
      fun hne => herror fun hforward => absurd (hp.1 hforward) hne
  | exchangeReady hb hr hn hi hx hfits =>
    rw [run_recoverPublications_nil h hbase rfl rfl, meets_done, afterwards_ok, meets_bind,
      run_recoverIntents_exchangeReady hbase hi hx h, meets_done]
    refine meets_recoverRecords_blocked hinv hbase hsequence hb hr hn hfits
      (.exchangeReady hb hr hn hi hx hfits) h ?_
    refine herror (fun _ hrecovers => ?_) _ files hreach
    exact hrecovers.1 (by simp) rfl
  | commitBound hb hr hn hi hx hp hfits =>
    refine meets_recoverPublications_commitBound hinv hbase hb hr hn hi hx hp hfits h ?_
    intro files₂ h₂
    exact meets_settle_unblocked hinv hbase hsequence hb hr hn hfits h₂ (hfitted hfits (by simp))
  | commitMismatch hb hr hn hi hx hother hne hp hfits =>
    rw [run_recoverPublications_commitMismatch hbase hr hi hx hother hne hp h, meets_done,
      afterwards_ok, meets_bind, run_recoverIntents_exchangeReady hbase hi hx h, meets_done]
    exact meets_recoverRecords_blocked hinv hbase hsequence hb hr hn hfits
      (.commitMismatch hb hr hn hi hx hother hne hp hfits) h (herror (by simp) _ files hreach)
  | commitExchanged hb hr hn hi hx hp hfits =>
    refine meets_recoverPublications_commitExchanged hinv hbase hb (by simpa using hr) hn hi hx hp
      hfits h ?_
    intro files₂ h₂
    exact meets_settle_committed hbase hb hn hx hfits h₂ (hfitted hfits (by simp))
  | commitDisplaced hb hn hi hx hp hfits =>
    refine meets_recoverPublications_commitExchanged (r := none) hinv hbase hb (by simp) hn hi hx
      hp hfits h ?_
    intro files₂ h₂
    exact meets_settle_committed hbase hb hn hx hfits h₂ (hfitted hfits (by simp))
  | commitPublished hb hn hx hp hfits =>
    refine meets_recoverPublications_commitPublished hinv hbase hb hn hx hp hfits h ?_
    intro files₂ h₂
    exact meets_settle_committed hbase hb hn hx hfits h₂ (hfitted hfits (by simp))
  | committed hb hn hx hfits =>
    rw [run_recoverPublications_nil h hbase rfl rfl, meets_done]
    exact meets_settle_committed hbase hb hn hx hfits h (hfitted hfits (by simp))

theorem meets_recoverUnlocked {litter base'}
    (hdiffers : forward = true ∨ A.installed ≠ A.original) (hstage : A.Stage forward gap own)
    (hlitter : Littered P base litter) (hstaged : Staged P litter base')
    (h : Shape base' A.op own files)
    (hok : (forward = true → A.Recovers own) → ∀ litter final, Littered P base litter →
      A.Outcome litter gap final → post (.ok ()) final)
    (herror : (forward = true → ¬A.Recovers own) →
      ∀ e final, A.Reach base false gap final → post (.error e) final) :
    ((recoverUnlocked P dirs).run files).Meets inv post := by
  simp only [recoverUnlocked, meets_bind]
  refine h.meets_recoverOwnedTemps hstaged (hlitter.settled hbase)
    ((hinv.of_littered hlitter).at_stage hstage.weaken hstaged h) ?_
  intro litter' files₁ hlitter' h₁
  have hall := hlitter.trans hlitter'
  rw [afterwards_ok]
  refine meets_recoverPasses (hinv.of_littered hall) (hall.settled hbase)
    (hsequence.of_littered hall)
    hdiffers hstage h₁ (fun hrecovers final => hok hrecovers litter' final hall) ?_
  intro hrecovers e final hreach
  exact herror hrecovers e final (hreach.of_littered hall)

end

end Addition

end Facelock.Store
