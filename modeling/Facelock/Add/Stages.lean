import Facelock.Store.Scan

/-!
# The stages of one addition

An addition backs a service file up, replaces it, and commits the backup.
`Stage` lists what its names hold at each point: at every crash point of
the addition itself, and at every crash point of a recovery after it.

The replacement is told apart from the original by its inode, and a
committed record from a prepared one by its content.
-/

namespace Facelock.Store

open Facelock.Crash
open Facelock.Pam (Bytes)

/-- A service file with its backup pair. -/
abbrev OpFiles.saved (service backup record : File) : OpFiles :=
  { service := some service, backup := some backup, record := some record }

/-- One replacement of a service file, as it was planned. -/
structure Addition (P : Platform) where
  prepared : PreparedBackup
  original : Bytes
  installed : Bytes
  /-- The service file that is replaced. -/
  file : File
  content : file.content = .bytes original
  links : file.links = 1
  sequence : prepared.provenance.sequence ≠ 0
  isConfined : confined prepared.backup.service = true
  validBackup : validBackupName prepared.backup.service prepared.backup = true
  provenance : prepared.provenance =
    { version := provenanceVersion
      sequence := prepared.provenance.sequence
      state := .prepared
      service := prepared.backup.service
      backup := prepared.backup
      originalSha256 := P.sha256 (.bytes original)
      installedSha256 := P.sha256 (.bytes installed) }

namespace Addition

variable {P : Platform} (A : Addition P)

/-! ## Contents -/

abbrev op : BackupName := A.prepared.backup

def record : Content := .record A.prepared.provenance

def committed : Content := .record A.prepared.provenance.commit

def prepareIntent : StateIntent := Store.prepareIntent P A.prepared

def commitIntent : StateIntent := Store.commitIntent P A.prepared

def cleanupIntent : StateIntent :=
  stateIntent .cleanup A.prepared.provenance.sequence A.prepared.provenance.service A.op
    (P.sha256 (.bytes A.original)) A.prepared.provenance.installedSha256
    (some (P.sha256 A.record)) none

def replaceIntent : StateIntent := pamReplaceIntent P A.prepared (A.file.identity P) A.installed

def replaceBinding (replacement : File) : PublicationBinding :=
  publicationBindingFor P .pamReplace A.replaceIntent (replacement.identity P)

def commitBinding (replacement : File) : PublicationBinding :=
  publicationBindingFor P .commit A.commitIntent (replacement.identity P)

/-- A service file with the new content, and with the owner and
permissions of the original. -/
structure IsInstalled (file : File) : Prop where
  content : file.content = .bytes A.installed
  links : file.links = 1
  mode : file.mode = A.file.mode
  uid : file.uid = A.file.uid
  gid : file.gid = A.file.gid

/-- A file that replaces the service file. -/
structure IsReplacement (replacement : File) : Prop extends IsInstalled A replacement where
  inode : replacement.inode ≠ A.file.inode

/-- The copy of the original in the state directory. -/
structure IsBackup (backup : File) : Prop extends IsState P (.bytes A.original) backup where
  fits : A.original.length ≤ maxBackupBytes

abbrev IsRecord := IsState P A.record

abbrev IsCommitted := IsState P A.committed

abbrev IsReplaceIntent := IsState P (.intent A.replaceIntent)

abbrev IsCommitIntent := IsState P (.intent A.commitIntent)

abbrev BindsReplacement (replacement : File) :=
  IsState P (.binding (A.replaceBinding replacement))

abbrev BindsCommit (record : File) := IsState P (.binding (A.commitBinding record))

/-- Recovery can read the new content. -/
abbrev Fits : Prop := A.installed.length ≤ maxBackupBytes

/-- The binding of a replacement that is gone.  Only a recovery leaves one. -/
def Orphan (forward : Bool) (binding : Option File) : Prop :=
  (forward = true → binding = none) ∧
    ∀ file ∈ binding, A.original.length ≤ maxBackupBytes ∧
      ∃ replacement, A.IsReplacement replacement ∧
        A.BindsReplacement replacement file

/-- The binding of a committed record that is gone. -/
def CommitOrphan (forward : Bool) (binding : Option File) : Prop :=
  (forward = true → binding = none) ∧
    ∀ file ∈ binding, ∃ record, A.IsCommitted record ∧
      A.BindsCommit record file

/-- The ways in which a backup pair is moved to quarantine and deleted. -/
inductive Quarantine : Option File → Option File → Option File → Option File → Prop where
  | none {backup record} : A.IsBackup backup → A.IsRecord record →
      Quarantine (some backup) .none (some record) .none
  | backup {backup record} : A.IsBackup backup → A.IsRecord record →
      Quarantine .none (some backup) (some record) .none
  | both {backup record} : A.IsBackup backup → A.IsRecord record →
      Quarantine .none (some backup) .none (some record)
  | record {record} : A.IsRecord record → Quarantine .none .none .none (some record)
  | gone : Quarantine .none .none .none .none

/-! ## Stages -/

/-- What the names of an addition hold.  The first index is `true` for the
crash points of the addition itself, and the second where the temporary
file of the replacement may stand without its binding. -/
inductive Stage : Bool → Bool → OpFiles → Prop where
  | unstarted {forward gap p} (hp : A.Orphan forward p) :
      Stage forward gap { service := some A.file, replaceBinding := p }
  | preparing {forward gap i b r} (hi : IsState P (.intent A.prepareIntent) i)
      (hb : ∀ file ∈ b, A.IsBackup file) (hr : ∀ file ∈ r, A.IsRecord file)
      (hbr : r.isSome = true → b.isSome = true) :
      Stage forward gap
        { service := some A.file, prepareIntent := some i, backup := b, record := r }
  | paired {forward gap b r p} (hb : A.IsBackup b) (hr : A.IsRecord r) (hp : A.Orphan forward p) :
      Stage forward gap { OpFiles.saved A.file b r with replaceBinding := p }
  | replacing {forward gap b r i} (hb : A.IsBackup b) (hr : A.IsRecord r)
      (hi : A.IsReplaceIntent i) :
      Stage forward gap { OpFiles.saved A.file b r with replaceIntent := some i }
  | created {forward b r i n} (hb : A.IsBackup b) (hr : A.IsRecord r) (hi : A.IsReplaceIntent i)
      (hn : A.IsReplacement n) :
      Stage forward true { OpFiles.saved A.file b r with temp := some n, replaceIntent := some i }
  | bound {forward gap b r i n p} (hb : A.IsBackup b) (hr : A.IsRecord r)
      (hi : A.IsReplaceIntent i) (hn : A.IsReplacement n) (hp : A.BindsReplacement n p) :
      Stage forward gap
        { OpFiles.saved A.file b r with
          temp := some n, replaceIntent := some i, replaceBinding := some p }
  | unbound {gap b r i p} (hb : A.IsBackup b) (hr : A.IsRecord r) (hi : A.IsReplaceIntent i)
      (hp : A.Orphan false (some p)) :
      Stage false gap
        { OpFiles.saved A.file b r with replaceIntent := some i, replaceBinding := some p }
  | cleaning {gap i b qb r qr p} (hi : IsState P (.intent A.cleanupIntent) i)
      (hq : A.Quarantine b qb r qr) (hp : A.Orphan false p) :
      Stage false gap
        { service := some A.file, cleanupIntent := some i, backup := b, backupQuarantine := qb
          record := r, recordQuarantine := qr, replaceBinding := p }
  | exchanged {forward gap b r i n t p} (hb : A.IsBackup b) (hr : A.IsRecord r)
      (hi : A.IsReplaceIntent i) (hn : A.IsReplacement n) (hp : A.BindsReplacement n p)
      (ht : ∀ file ∈ t, file = A.file) :
      Stage forward gap
        { OpFiles.saved n b r with temp := t, replaceIntent := some i, replaceBinding := some p }
  | published {forward gap b r n p} (hb : A.IsBackup b) (hr : A.IsRecord r)
      (hn : A.IsReplacement n) (hp : A.BindsReplacement n p) (hfits : A.Fits) :
      Stage forward gap { OpFiles.saved n b r with replaceBinding := some p }
  | installed {forward gap b r n p} (hb : A.IsBackup b) (hr : A.IsRecord r) (hn : A.IsInstalled n)
      (hp : A.CommitOrphan forward p) (hfits : A.Fits) :
      Stage forward gap { OpFiles.saved n b r with commitBinding := p }
  | committing {forward gap b r n i p} (hb : A.IsBackup b) (hr : A.IsRecord r)
      (hn : A.IsInstalled n) (hi : A.IsCommitIntent i) (hp : A.CommitOrphan forward p)
      (hfits : A.Fits) :
      Stage forward gap { OpFiles.saved n b r with commitIntent := some i, commitBinding := p }
  | exchangeReady {forward gap b r n i x} (hb : A.IsBackup b) (hr : A.IsRecord r)
      (hn : A.IsInstalled n) (hi : A.IsCommitIntent i) (hx : A.IsCommitted x) (hfits : A.Fits) :
      Stage forward gap { OpFiles.saved n b r with commitIntent := some i, exchange := some x }
  | commitBound {forward gap b r n i x p} (hb : A.IsBackup b) (hr : A.IsRecord r)
      (hn : A.IsInstalled n) (hi : A.IsCommitIntent i) (hx : A.IsCommitted x)
      (hp : A.BindsCommit x p) (hfits : A.Fits) :
      Stage forward gap
        { OpFiles.saved n b r with
          commitIntent := some i, exchange := some x, commitBinding := some p }
  | commitMismatch {gap b r n i x other p} (hb : A.IsBackup b) (hr : A.IsRecord r)
      (hn : A.IsInstalled n) (hi : A.IsCommitIntent i) (hx : A.IsCommitted x)
      (hother : A.IsCommitted other) (hne : other.identity P ≠ x.identity P)
      (hp : A.BindsCommit other p) (hfits : A.Fits) :
      Stage false gap
        { OpFiles.saved n b r with
          commitIntent := some i, exchange := some x, commitBinding := some p }
  | commitExchanged {forward gap b r n i x p} (hb : A.IsBackup b) (hr : A.IsRecord r)
      (hn : A.IsInstalled n) (hi : A.IsCommitIntent i) (hx : A.IsCommitted x)
      (hp : A.BindsCommit x p) (hfits : A.Fits) :
      Stage forward gap
        { OpFiles.saved n b x with
          commitIntent := some i, exchange := some r, commitBinding := some p }
  | commitDisplaced {forward gap b n i x p} (hb : A.IsBackup b) (hn : A.IsInstalled n)
      (hi : A.IsCommitIntent i) (hx : A.IsCommitted x) (hp : A.BindsCommit x p) (hfits : A.Fits) :
      Stage forward gap { OpFiles.saved n b x with commitIntent := some i, commitBinding := some p }
  | commitPublished {forward gap b n x p} (hb : A.IsBackup b) (hn : A.IsInstalled n)
      (hx : A.IsCommitted x) (hp : A.BindsCommit x p) (hfits : A.Fits) :
      Stage forward gap { OpFiles.saved n b x with commitBinding := some p }
  | committed {forward gap b n x} (hb : A.IsBackup b) (hn : A.IsInstalled n)
      (hx : A.IsCommitted x) (hfits : A.Fits) : Stage forward gap (.saved n b x)

/-- The files at some stage of the addition, over a base that may hold the
temporary file of a state file and others that earlier cuts left. -/
def Reach (base : Files) (forward gap : Bool) (files : Files) : Prop :=
  ∃ litter base' own, Littered P base litter ∧ Staged P litter base' ∧ A.Stage forward gap own ∧
    Shape base' A.op own files

/-- A predicate that every crash point at a stage satisfies. -/
def Covers (base : Files) (forward gap : Bool) (inv : Files → Prop) : Prop :=
  ∀ files, A.Reach base forward gap files → inv files

/-- A run that leaves these files of the operation meets its end. -/
abbrev EndsAt (base : Files) (post : Except IoError Unit → Files → Prop) (own : OpFiles) : Prop :=
  ∀ files', Shape base A.op own files' → post (.ok ()) files'

theorem Orphan.weaken {A : Addition P} {forward forward' p} (hp : A.Orphan forward p)
    (hforward : forward' = true → forward = true) : A.Orphan forward' p :=
  ⟨fun h => hp.1 (hforward h), hp.2⟩

theorem CommitOrphan.weaken {A : Addition P} {forward forward' p} (hp : A.CommitOrphan forward p)
    (hforward : forward' = true → forward = true) : A.CommitOrphan forward' p :=
  ⟨fun h => hp.1 (hforward h), hp.2⟩

/-- The stages of the addition itself are stages of a recovery, and a
temporary file without its binding is the one thing that the second index
allows. -/
theorem Stage.reindex {A : Addition P} {forward gap} (forward' gap' : Bool) {own}
    (h : A.Stage forward gap own) (hforward : forward' = true → forward = true)
    (hgap : gap' = gap ∨ own.temp = none ∨ own.replaceBinding ≠ none) :
    A.Stage forward' gap' own := by
  cases h with
  | unstarted hp => exact .unstarted (hp.weaken hforward)
  | paired hb hr hp => exact .paired hb hr (hp.weaken hforward)
  | installed hb hr hn hp hfits => exact .installed hb hr hn (hp.weaken hforward) hfits
  | committing hb hr hn hi hp hfits => exact .committing hb hr hn hi (hp.weaken hforward) hfits
  | created hb hr hi hn =>
    obtain rfl : gap' = true := by simpa using hgap
    exact .created hb hr hi hn
  -- stages of a recovery only
  | unbound | cleaning =>
    obtain rfl : forward' = false := by simpa using hforward
    constructor <;> assumption
  | commitMismatch hb hr hn hi hx hother hne hp hfits =>
    obtain rfl : forward' = false := by simpa using hforward
    exact .commitMismatch hb hr hn hi hx hother hne hp hfits
  | commitExchanged hb hr hn hi hx hp hfits => exact .commitExchanged hb hr hn hi hx hp hfits
  | commitDisplaced hb hn hi hx hp hfits => exact .commitDisplaced hb hn hi hx hp hfits
  | commitPublished hb hn hx hp hfits => exact .commitPublished hb hn hx hp hfits
  | committed hb hn hx hfits => exact .committed hb hn hx hfits
  | _ => constructor <;> assumption

theorem Stage.weaken {A : Addition P} {forward gap own}
    (h : A.Stage forward gap own) : A.Stage false gap own :=
  h.reindex false gap (by simp) (.inl rfl)

/-- At every stage the service name holds the original or a file with the
new content. -/
theorem Stage.service {A : Addition P} {forward gap own} (h : A.Stage forward gap own) :
    own.service = some A.file ∨ ∃ n, A.IsInstalled n ∧ own.service = some n := by
  cases h with
  | exchanged _ _ _ hn | published _ _ hn => exact .inr ⟨_, hn.toIsInstalled, rfl⟩
  | installed _ _ hn | committing _ _ hn | exchangeReady _ _ hn | commitBound _ _ hn
  | commitMismatch _ _ hn | commitExchanged _ _ hn | commitDisplaced _ hn | commitPublished _ hn
  | committed _ hn => exact .inr ⟨_, hn, rfl⟩
  | _ => exact .inl rfl

/-! ## Validity -/

@[simp] theorem provenance_service : A.prepared.provenance.service = A.op.service := by
  rw [A.provenance]

@[simp] theorem provenance_backup : A.prepared.provenance.backup = A.op := by
  rw [A.provenance]

@[simp] theorem provenance_version : A.prepared.provenance.version = provenanceVersion := by
  rw [A.provenance]

@[simp] theorem provenance_state : A.prepared.provenance.state = .prepared := by
  rw [A.provenance]

@[simp] theorem provenance_originalSha256 :
    A.prepared.provenance.originalSha256 = P.sha256 (.bytes A.original) := by
  rw [A.provenance]

@[simp] theorem provenance_installedSha256 :
    A.prepared.provenance.installedSha256 = P.sha256 (.bytes A.installed) := by
  rw [A.provenance]

theorem valid_record : validProvenanceRecord (.record A.op) A.prepared.provenance = true := by
  simp [validProvenanceRecord, A.sequence, A.isConfined, A.validBackup]

theorem valid_committed :
    validProvenanceRecord (.record A.op) A.prepared.provenance.commit = true := by
  simp [validProvenanceRecord, ProvenanceRecord.commit, A.sequence, A.isConfined, A.validBackup]

theorem valid_prepareIntent : validStateIntent A.prepareIntent = true := by
  simp [validStateIntent, prepareIntent, Store.prepareIntent, stateIntent, StateIntent.roleFields,
    StateIntent.noIdentity, A.sequence, A.isConfined, A.validBackup]

theorem valid_commitIntent : validStateIntent A.commitIntent = true := by
  simp [validStateIntent, commitIntent, Store.commitIntent, stateIntent, StateIntent.roleFields,
    StateIntent.noIdentity, A.sequence, A.isConfined, A.validBackup]

theorem valid_cleanupIntent : validStateIntent A.cleanupIntent = true := by
  simp [validStateIntent, cleanupIntent, stateIntent, StateIntent.roleFields,
    StateIntent.noIdentity, A.sequence, A.isConfined, A.validBackup]

theorem isRegularMode_mode (file : File) : isRegularMode file.mode = true := by
  have := file.regular
  simp only [isRegularMode, decide_eq_true_eq]
  omega

theorem valid_replaceIntent : validStateIntent A.replaceIntent = true := by
  simp [validStateIntent, replaceIntent, pamReplaceIntent, stateIntent, StateIntent.withOriginal,
    StateIntent.roleFields, StateIntent.exactIdentity, File.identity, isRegularMode_mode, A.links,
    A.sequence, A.isConfined, A.validBackup]

theorem valid_replaceBinding {replacement} (h : replacement.links = 1) :
    validPublicationBinding (A.replaceBinding replacement) = true := by
  simp [validPublicationBinding, replaceBinding, publicationBindingFor, replaceIntent,
    pamReplaceIntent, stateIntent, StateIntent.withOriginal, File.identity, isRegularMode_mode,
    h, A.sequence, A.isConfined, A.validBackup]

theorem valid_commitBinding {replacement} (h : replacement.links = 1) :
    validPublicationBinding (A.commitBinding replacement) = true := by
  simp [validPublicationBinding, commitBinding, publicationBindingFor, commitIntent,
    Store.commitIntent, stateIntent, File.identity, isRegularMode_mode, h, A.sequence,
    A.isConfined, A.validBackup]

variable {A}

section Covers

variable {base files : Files} {forward gap : Bool} {inv : Files → Prop} {own : OpFiles}

theorem reach_of_shape (hstage : A.Stage forward gap own) (h : Shape base A.op own files) :
    A.Reach base forward gap files :=
  ⟨base, base, own, .refl, .bare, hstage, h⟩

theorem Reach.of_littered {litter} (hlitter : Littered P base litter)
    (h : A.Reach litter forward gap files) : A.Reach base forward gap files := by
  obtain ⟨litter', base', own, hlitter', hrest⟩ := h
  exact ⟨litter', base', own, hlitter.trans hlitter', hrest⟩

theorem Covers.of_littered {litter} (hinv : A.Covers base forward gap inv)
    (hlitter : Littered P base litter) : A.Covers litter forward gap inv :=
  fun files hreach => hinv files (hreach.of_littered hlitter)

theorem Covers.at_stage (hinv : A.Covers base forward gap inv) (hstage : A.Stage forward gap own)
    {base'} (hstaged : Staged P base base') (h : Shape base' A.op own files) : inv files :=
  hinv files ⟨base, base', own, .refl, hstaged, hstage, h⟩

theorem Covers.meets_create (hinv : A.Covers base forward gap inv) (h : Shape base A.op own files)
    (hstage : A.Stage forward gap own) (k : Slot) {name content post}
    (hname : k.name A.op = .state name)
    (hempty : own.get k = none) (hfits : content.fits maxBackupBytes = true)
    (hpost : ∀ file files', IsState P content file →
      Shape base A.op (own.put (some file) k) files' → post (.ok (file.identity P)) files') :
    ((atomicStateCreate P name content).run files).Meets inv post :=
  h.meets_create k hname hempty hfits (fun _ _ hstaged => hinv.at_stage hstage hstaged) hpost

theorem Covers.meets_unlink (hinv : A.Covers base forward gap inv) (h : Shape base A.op own files)
    (hstage : A.Stage forward gap own) (k : Slot) {name content file limit post}
    (hname : k.name A.op = name) (hfile : own.get k = some file) (hstate : IsState P content file)
    (hfits : content.fits limit = true)
    (hpost : ∀ files', Shape base A.op (own.put none k) files' → post (.ok ()) files') :
    ((unlinkAtIfIdentityMatches P name (file.identity P) limit).run files).Meets inv post :=
  h.meets_unlink k hname hfile hstate.links (by rw [hstate.content, hfits])
    (hinv.at_stage hstage .bare h) hpost

end Covers

end Addition

end Facelock.Store
