import Facelock.Add.Publications

/-!
# The pass over intents

The third pass of recovery, from each stage of an addition that has an
intent.  An intent goes when the files it is about show that nothing has
begun, or after a pair that it belongs to is out of the way.
-/

namespace Facelock.Store

open Facelock.Crash

variable {P : Platform} {dirs : PamDirs} {base files : Files} {own : OpFiles}

namespace Addition

variable {A : Addition P} {forward gap : Bool} {inv : Files → Prop}

/-! ## Intents -/

theorem run_recoverIntents_nil (h : Shape base A.op own files) (hbase : Settled P base)
    (hprepare : own.prepareIntent = none) (hcommit : own.commitIntent = none)
    (hcleanup : own.cleanupIntent = none) (hreplace : own.replaceIntent = none) :
    (recoverIntents P).run files = .done files (.ok ()) := by
  have hempty : ∀ k : Slot, k.isIntent = true → own.get k = none := by
    intro k hk
    cases k <;> simp [Slot.isIntent] at hk <;> assumption
  simp only [recoverIntents, run_bind, run_read, bind_ok, h.validatedIntents_eq_nil hbase hempty]
  rfl

variable {i : File}

theorem run_recoverIntents_one (k : Slot) (intent : StateIntent) (h : Shape base A.op own files)
    (hbase : Settled P base) (hname : k.name A.op = .state (.intent intent.role A.op))
    (hfile : own.get k = some i) (hi : IsState P (.intent intent) i)
    (hbackup : intent.backup = A.op) (hvalid : validStateIntent intent = true)
    (hempty : ∀ k' : Slot, k'.isIntent = true → k' ≠ k → own.get k' = none := by
      intro k' hintent hne
      cases k' <;> simp [Slot.isIntent] at hintent hne <;> rfl) :
    (recoverIntents P).run files =
      (recoverIntent P
        { name := .intent intent.role A.op, intent, identity := i.identity P }).run files := by
  have hintents := h.validatedIntents_eq_singleton hbase hname hfile hi rfl hbackup hvalid hempty
  simp only [recoverIntents, run_bind, run_read, bind_ok, hintents, run_forM_singleton]

theorem matchingStateEntry_record {r} (h : Shape base A.op own files)
    (hrecord : own.record = some r) (hr : A.IsRecord r) :
    matchingStateEntry P (.record A.op) (P.sha256 A.record) maxRecordBytes files =
      .ok (some (r.identity P)) :=
  h.matchingStateEntry_slot .record rfl hrecord hr rfl rfl

theorem openForIntent_service (h : Shape base A.op own files)
    (hservice : own.service = some A.file) (hfits : A.original.length ≤ maxBackupBytes) :
    openForIntent P (.service A.op.service) files = .ok (some (some (A.file.identity P))) := by
  have hget : files.get (.pam (.service A.op.service)) = some (.regular A.file) :=
    h.get_file .service rfl hservice
  simp [openForIntent, openRegularAt_of_get hget A.links,
    identityOfOpenBounded_of_fits (fits_original hfits)]

variable {post : Except IoError Unit → Files → Prop}

/-- A pair without its record is taken back, and a whole pair stays. -/
theorem meets_recoverIntents_preparing {b r} (hinv : A.Covers base false gap inv)
    (hbase : Settled P base) (hi : IsState P (.intent A.prepareIntent) i)
    (hb : ∀ file ∈ b, A.IsBackup file) (hr : ∀ file ∈ r, A.IsRecord file)
    (hbr : r.isSome = true → b.isSome = true)
    (h : Shape base A.op
      { service := some A.file, prepareIntent := some i, backup := b, record := r } files)
    (hnone : r = none → A.EndsAt base post { service := some A.file })
    (hsome : ∀ backup record, A.IsBackup backup → A.IsRecord record →
      A.EndsAt base post (.saved A.file backup record)) :
    ((recoverIntents P).run files).Meets inv post := by
  rw [run_recoverIntents_one .prepareIntent A.prepareIntent h hbase rfl rfl hi rfl
    A.valid_prepareIntent]
  have hrecordSha : A.prepareIntent.recordSha256 = some (P.sha256 A.record) := rfl
  have horiginalSha : A.prepareIntent.originalSha256 = P.sha256 (.bytes A.original) :=
    A.provenance_originalSha256
  have hbackupName : A.prepareIntent.backup = A.op := rfl
  have hrole : A.prepareIntent.role = .prepare := rfl
  simp only [recoverIntent, hrole, recoverPrepareIntent, hrecordSha, horiginalSha, hbackupName,
    meets_bind, meets_attempt, run_read, meets_done, afterwards_ok]
  cases b with
  | none =>
    obtain rfl : r = none := by
      cases r with
      | none => rfl
      | some r => exact absurd (hbr rfl) (by simp)
    have hbackup : ∀ limit, matchingStateEntry P (.backup A.op) (P.sha256 (.bytes A.original))
        limit files = .ok none := fun _ => h.matchingStateEntry_empty .backup rfl rfl
    have hrecord : ∀ limit, matchingStateEntry P (.record A.op) (P.sha256 A.record)
        limit files = .ok none := fun _ => h.matchingStateEntry_empty .record rfl rfl
    simp only [hbackup, hrecord]
    exact hinv.meets_unlink h (.preparing (b := none) (r := none) hi (by simp) (by simp) (by simp))
      .prepareIntent rfl rfl hi rfl (hnone rfl)
  | some b =>
    have hb := hb b rfl
    have hbackup : matchingStateEntry P (.backup A.op) (P.sha256 (.bytes A.original))
        maxBackupBytes files = .ok (some (b.identity P)) :=
      h.matchingStateEntry_slot .backup rfl rfl hb.toIsState rfl
        (by simpa [Content.fits] using hb.fits)
    cases r with
    | none =>
      have hrecord : matchingStateEntry P (.record A.op) (P.sha256 A.record) maxRecordBytes files =
          .ok none := h.matchingStateEntry_empty .record rfl rfl
      simp only [hbackup, hrecord, meets_bind]
      refine h.meets_unlink .backup rfl rfl hb.links ?_ ?_ ?_
      · rw [hb.content]
        exact decide_eq_true hb.fits
      · exact hinv.at_stage (.preparing (b := some b) (r := none) hi (by simpa) (by simp) (by simp))
          .bare h
      intro files₁ h₁
      exact hinv.meets_unlink h₁
        (.preparing (b := none) (r := none) hi (by simp) (by simp) (by simp)) .prepareIntent rfl rfl
        hi rfl (hnone rfl)
    | some r =>
      have hr := hr r rfl
      have hrecord := matchingStateEntry_record h rfl hr
      simp only [hbackup, hrecord]
      exact hinv.meets_unlink h
        (.preparing (b := some b) (r := some r) hi (by simpa) (by simpa) (by simp)) .prepareIntent
        rfl rfl hi rfl (hsome b r hb hr)

variable {p : Option File}

/-- The intent of a replacement whose temporary file is not there goes. -/
theorem meets_recoverIntents_replacing {b r} (hbase : Settled P base) (hb : A.IsBackup b)
    (hr : A.IsRecord r) (hi : A.IsReplaceIntent i)
    (h : Shape base A.op
      { OpFiles.saved A.file b r with replaceIntent := some i, replaceBinding := p } files)
    (hinv : inv files)
    (hok : A.EndsAt base post { OpFiles.saved A.file b r with replaceBinding := p }) :
    ((recoverIntents P).run files).Meets inv post := by
  have hrecord := matchingStateEntry_record h rfl hr
  have hservice := openForIntent_service h rfl hb.fits
  have htemp : openForIntent P (.pamReplace A.op) files = .ok (some none) := by
    have hnone : files.get (.pam (.pamReplace A.op)) = none := h.get_none .temp rfl rfl
    simp [openForIntent, openRegularAt_of_none hnone, IoError.notFound]
  rw [run_recoverIntents_one .replaceIntent A.replaceIntent h hbase rfl rfl hi rfl
    A.valid_replaceIntent]
  simp only [recoverIntent, replaceIntent_role, recoverPamReplaceIntent, replaceIntent_recordSha256,
    replaceIntent_backup, meets_bind, meets_attempt, run_read, hrecord, meets_done, afterwards_ok,
    entryOrNone, Option.isNone_some, Bool.false_eq_true, if_false,
    recoverExistingPamMutationIntent, replaceIntent_service, hservice, htemp,
    exactOriginalIntentIdentity_replaceIntent, decide_true, if_true]
  exact h.meets_unlink .replaceIntent rfl rfl hi.links (by rw [hi.content]; rfl) hinv hok

/-- A temporary file without its binding stays, and blocks nothing unless
it is above the size limit. -/
theorem run_recoverIntents_created {b r n} (hbase : Settled P base) (hb : A.IsBackup b)
    (hr : A.IsRecord r) (hi : A.IsReplaceIntent i)
    (hn : A.IsReplacement n)
    (h : Shape base A.op
      { OpFiles.saved A.file b r with temp := some n, replaceIntent := some i } files) :
    (recoverIntents P).run files = .done files
      (if A.Fits then .ok ()
        else .error ⟨.invalidData, "state file exceeds size limit"⟩) := by
  have hrecord := matchingStateEntry_record h rfl hr
  have hservice := openForIntent_service h rfl hb.fits
  have hget : files.get (.pam (.pamReplace A.op)) = some (.regular n) := h.get_file .temp rfl rfl
  have htemp : openForIntent P (.pamReplace A.op) files =
      if A.Fits then .ok (some (some (n.identity P)))
      else .error ⟨.invalidData, "state file exceeds size limit"⟩ := by
    by_cases hfits : A.Fits <;>
      simp [openForIntent, openRegularAt_of_get hget hn.links, identityOfOpenBounded,
        readOpenBounded, fits_installed hn.toIsInstalled, hfits]
  rw [run_recoverIntents_one .replaceIntent A.replaceIntent h hbase rfl rfl hi rfl
    A.valid_replaceIntent]
  simp only [recoverIntent, replaceIntent_role, recoverPamReplaceIntent, replaceIntent_recordSha256,
    replaceIntent_backup, run_bind, run_attempt, run_read, hrecord, attempt_done, bind_ok,
    entryOrNone, Option.isNone_some, Bool.false_eq_true, if_false,
    recoverExistingPamMutationIntent, replaceIntent_service, hservice, htemp]
  split
  · rfl
  · rfl

/-! ### Quarantined pairs -/

/-- The end of a cleanup: what is in quarantine goes, then the intent. -/
theorem meets_unlinkQuarantine {qb qr} (hinv : A.Covers base false gap inv)
    (hi : IsState P (.intent A.cleanupIntent) i) (hq : A.Quarantine none qb none qr)
    (hp : A.Orphan false p)
    (h : Shape base A.op
      { service := some A.file, cleanupIntent := some i, backupQuarantine := qb
        recordQuarantine := qr, replaceBinding := p } files)
    (hok : A.EndsAt base post { service := some A.file, replaceBinding := p }) :
    ((do
      unlinkEntry P (.quarantineBackup A.op) (qb.map (File.identity P))
      unlinkEntry P (.quarantineRecord A.op) (qr.map (File.identity P))
      unlinkStateIfIdentityMatches P (.intent .cleanup A.op) (i.identity P) :
        Action Unit).run files).Meets inv post := by
  have hintent : ∀ files', Shape base A.op
      { service := some A.file, cleanupIntent := some i, replaceBinding := p } files' →
      ((unlinkStateIfIdentityMatches P (.intent .cleanup A.op) (i.identity P)).run
        files').Meets inv post := by
    intro files' h'
    exact hinv.meets_unlink h' (.cleaning hi .gone hp) .cleanupIntent rfl rfl hi rfl hok
  have hrecord : ∀ record files', A.IsRecord record → Shape base A.op
      { service := some A.file, cleanupIntent := some i, recordQuarantine := some record
        replaceBinding := p } files' →
      ((do
        unlinkEntry P (.quarantineRecord A.op) ((some record).map (File.identity P))
        unlinkStateIfIdentityMatches P (.intent .cleanup A.op) (i.identity P) :
          Action Unit).run files').Meets inv post := by
    intro record files' hr h'
    simp only [meets_bind, unlinkEntry, Option.map_some]
    exact hinv.meets_unlink h' (.cleaning hi (.record hr) hp) .recordQuarantine rfl rfl hr rfl
      hintent
  cases hq with
  | both hb hr =>
    rw [meets_bind]
    refine h.meets_unlink .backupQuarantine rfl rfl hb.links ?_ ?_ fun files' => hrecord _ files' hr
    · rw [hb.content]
      exact decide_eq_true hb.fits
    · exact hinv.at_stage (.cleaning hi (.both hb hr) hp) .bare h
  | record hr => exact hrecord _ files hr h
  | gone => exact hintent files h

theorem Quarantine.backup_state {b qb r qr} (hq : A.Quarantine b qb r qr) (file : File)
    (h : b = some file ∨ qb = some file) : A.IsBackup file := by
  cases hq <;> simp at h <;> subst h <;> assumption

theorem Quarantine.record_state {b qb r qr} (hq : A.Quarantine b qb r qr) (file : File)
    (h : r = some file ∨ qr = some file) : A.IsRecord file := by
  cases hq <;> simp at h <;> subst h <;> assumption

/-- The rest of a cleanup, once the backup is in quarantine. -/
def cleanupRecord (A : Addition P) (i : File) (backup : Option FileIdentity) : Action Unit := do
  match ← (resumeQuarantine P (.record A.op) (.quarantineRecord A.op) (P.sha256 A.record)
      maxRecordBytes).attempt with
  | .error _ => pure ()
  | .ok record => do
    unlinkEntry P (.quarantineBackup A.op) backup
    unlinkEntry P (.quarantineRecord A.op) record
    unlinkStateIfIdentityMatches P (.intent .cleanup A.op) (i.identity P)

theorem meets_cleanupRecord {qb r qr} (hinv : A.Covers base false gap inv)
    (hi : IsState P (.intent A.cleanupIntent) i) (hq : A.Quarantine none qb r qr)
    (hp : A.Orphan false p)
    (h : Shape base A.op
      { service := some A.file, cleanupIntent := some i, backupQuarantine := qb
        record := r, recordQuarantine := qr, replaceBinding := p } files)
    (hok : A.EndsAt base post { service := some A.file, replaceBinding := p }) :
    ((A.cleanupRecord i (qb.map (File.identity P))).run files).Meets inv post := by
  simp only [cleanupRecord, meets_bind, meets_attempt]
  refine h.meets_resumeQuarantine .record .recordQuarantine rfl rfl
    (fun file hfile => ⟨hq.record_state file hfile, rfl⟩) ?_ rfl
    (hinv.at_stage (.cleaning hi hq hp) .bare h) ?_ ?_
  · cases hq <;> simp [OpFiles.get]
  · intro file files₁ hfile h₁
    have hmoved : A.Quarantine none qb none (some file) := by
      cases hq <;> simp [OpFiles.get] at hfile
      subst hfile
      exact .both ‹_› ‹_›
    exact meets_unlinkQuarantine hinv hi hmoved hp h₁ hok
  · intro hnone
    obtain rfl : r = none := hnone
    exact meets_unlinkQuarantine hinv hi hq hp h hok

/-- A cleanup goes on from wherever it stopped. -/
theorem meets_recoverIntents_cleaning {b qb r qr} (hinv : A.Covers base false gap inv)
    (hbase : Settled P base) (hi : IsState P (.intent A.cleanupIntent) i)
    (hq : A.Quarantine b qb r qr) (hp : A.Orphan false p)
    (h : Shape base A.op
      { service := some A.file, cleanupIntent := some i, backup := b, backupQuarantine := qb
        record := r, recordQuarantine := qr, replaceBinding := p } files)
    (hok : A.EndsAt base post { service := some A.file, replaceBinding := p }) :
    ((recoverIntents P).run files).Meets inv post := by
  have hrole : A.cleanupIntent.role = .cleanup := rfl
  have hrecordSha : A.cleanupIntent.recordSha256 = some (P.sha256 A.record) := rfl
  have horiginalSha : A.cleanupIntent.originalSha256 = P.sha256 (.bytes A.original) := rfl
  have hbackupName : A.cleanupIntent.backup = A.op := rfl
  rw [run_recoverIntents_one .cleanupIntent A.cleanupIntent h hbase rfl rfl hi rfl
    A.valid_cleanupIntent]
  simp only [recoverIntent, hrole, recoverCleanupIntent, hrecordSha, horiginalSha, hbackupName,
    meets_bind, meets_attempt]
  refine h.meets_resumeQuarantine .backup .backupQuarantine rfl rfl ?_ ?_ rfl
    (hinv.at_stage (.cleaning hi hq hp) .bare h) ?_ ?_
  · intro file hfile
    have hb := hq.backup_state file hfile
    exact ⟨hb.toIsState, decide_eq_true hb.fits⟩
  · cases hq <;> simp [OpFiles.get]
  · intro file files₁ hfile h₁
    have hmoved : A.Quarantine none (some file) r qr := by
      cases hq <;> simp [OpFiles.get] at hfile
      subst hfile
      exact .backup ‹_› ‹_›
    exact meets_cleanupRecord hinv hi hmoved hp h₁ hok
  · intro hnone
    obtain rfl : b = none := hnone
    exact meets_cleanupRecord hinv hi hq hp h hok

/-! ### Commits -/

/-- The intent of a commit that has not begun goes. -/
theorem meets_recoverIntents_committing {b r n} (hinv : A.Covers base false gap inv)
    (hbase : Settled P base) (hb : A.IsBackup b) (hr : A.IsRecord r) (hn : A.IsInstalled n)
    (hi : A.IsCommitIntent i) (hp : A.CommitOrphan false p)
    (hfits : A.Fits)
    (h : Shape base A.op
      { OpFiles.saved n b r with commitIntent := some i, commitBinding := p } files)
    (hok : A.EndsAt base post { OpFiles.saved n b r with commitBinding := p }) :
    ((recoverIntents P).run files).Meets inv post := by
  have hrecord := matchingStateEntry_record h rfl hr
  have hexchange : openIdentityAt P (.state (.commitExchange A.op)) maxRecordBytes files =
      .ok none := h.openIdentityAt_empty .exchange rfl rfl
  rw [run_recoverIntents_one .commitIntent A.commitIntent h hbase rfl rfl hi rfl
    A.valid_commitIntent]
  simp only [recoverIntent, commitIntent_role, recoverCommitIntent, commitIntent_recordSha256,
    commitIntent_replacementRecordSha256, commitIntent_backup, meets_bind, meets_attempt, run_read,
    hrecord, hexchange, meets_done, afterwards_ok, entryOrNone, Option.isSome_some,
    Option.isNone_none, Bool.and_true, if_true]
  exact hinv.meets_unlink h (.committing hb hr hn hi hp hfits) .commitIntent rfl rfl hi rfl hok

/-- The intent of a commit stays as long as the exchange file does. -/
theorem run_recoverIntents_exchangeReady {b r n x} (hbase : Settled P base)
    (hi : A.IsCommitIntent i) (hx : A.IsCommitted x)
    (h : Shape base A.op
      { OpFiles.saved n b r with commitIntent := some i, exchange := some x, commitBinding := p }
      files) :
    (recoverIntents P).run files = .done files (.ok ()) := by
  have hexchange : openIdentityAt P (.state (.commitExchange A.op)) maxRecordBytes files =
      .ok (some (x.identity P)) := openIdentityAt_record (k := .exchange) h rfl rfl hx
  rw [run_recoverIntents_one .commitIntent A.commitIntent h hbase rfl rfl hi rfl
    A.valid_commitIntent]
  simp [recoverIntent, recoverCommitIntent, run_bind, run_attempt, hexchange]

end Addition

end Facelock.Store
