import Facelock.Store.Recovery

/-!
# The files of one operation

An operation on a service owns a fixed set of names: its backup pair, its
intents and bindings, its quarantines, its temporary name and the service
itself.  `OpFiles` says which file, if any, each of them holds, and
`Shape base backup own files` says that `files` is `base` with these
files in place.

The steps of the store are stated here over shapes: a step takes the
shape it finds to the shape it leaves, and a crash point inside it is
accounted for by one hypothesis about the shape in front of the step.
-/

namespace Facelock.Store

open Facelock.Crash

/-! ## Slots -/

/-- The names that an operation owns. -/
inductive Slot where
  | backup
  | record
  | prepareIntent
  | commitIntent
  | cleanupIntent
  | replaceIntent
  | commitBinding
  | replaceBinding
  | exchange
  | backupQuarantine
  | recordQuarantine
  | service
  | temp
  deriving DecidableEq

def Slot.name (op : BackupName) : Slot → Name
  | .backup => .state (.backup op)
  | .record => .state (.record op)
  | .prepareIntent => .state (.intent .prepare op)
  | .commitIntent => .state (.intent .commit op)
  | .cleanupIntent => .state (.intent .cleanup op)
  | .replaceIntent => .state (.intent .pamReplace op)
  | .commitBinding => .state (.publication .commit op)
  | .replaceBinding => .state (.publication .pamReplace op)
  | .exchange => .state (.commitExchange op)
  | .backupQuarantine => .state (.quarantineBackup op)
  | .recordQuarantine => .state (.quarantineRecord op)
  | .service => .pam (.service op.service)
  | .temp => .pam (.pamReplace op)

theorem Slot.name_injective (op : BackupName) : Function.Injective (Slot.name op) := by
  intro k k' h
  cases k <;> cases k' <;> simp [Slot.name] at h ⊢

/-- The files under the names of an operation. -/
structure OpFiles where
  backup : Option File := none
  record : Option File := none
  prepareIntent : Option File := none
  commitIntent : Option File := none
  cleanupIntent : Option File := none
  replaceIntent : Option File := none
  commitBinding : Option File := none
  replaceBinding : Option File := none
  exchange : Option File := none
  backupQuarantine : Option File := none
  recordQuarantine : Option File := none
  service : Option File := none
  temp : Option File := none

namespace OpFiles

def get (own : OpFiles) : Slot → Option File
  | .backup => own.backup
  | .record => own.record
  | .prepareIntent => own.prepareIntent
  | .commitIntent => own.commitIntent
  | .cleanupIntent => own.cleanupIntent
  | .replaceIntent => own.replaceIntent
  | .commitBinding => own.commitBinding
  | .replaceBinding => own.replaceBinding
  | .exchange => own.exchange
  | .backupQuarantine => own.backupQuarantine
  | .recordQuarantine => own.recordQuarantine
  | .service => own.service
  | .temp => own.temp

def put (own : OpFiles) (file : Option File) : Slot → OpFiles
  | .backup => { own with backup := file }
  | .record => { own with record := file }
  | .prepareIntent => { own with prepareIntent := file }
  | .commitIntent => { own with commitIntent := file }
  | .cleanupIntent => { own with cleanupIntent := file }
  | .replaceIntent => { own with replaceIntent := file }
  | .commitBinding => { own with commitBinding := file }
  | .replaceBinding => { own with replaceBinding := file }
  | .exchange => { own with exchange := file }
  | .backupQuarantine => { own with backupQuarantine := file }
  | .recordQuarantine => { own with recordQuarantine := file }
  | .service => { own with service := file }
  | .temp => { own with temp := file }

theorem get_put (own : OpFiles) (file : Option File) (k k' : Slot) :
    (own.put file k).get k' = if k' = k then file else own.get k' := by
  cases k <;> cases k' <;> rfl

end OpFiles

/-! ## Shapes -/

/-- `files` is `base` with the files of one operation in place. -/
structure Shape (base : Files) (op : BackupName) (own : OpFiles) (files : Files) : Prop where
  slots : ∀ k : Slot, files.get (k.name op) = (own.get k).map .regular
  rest : ∀ name, (∀ k : Slot, name ≠ k.name op) → files.get name = base.get name

variable {name : Name}

namespace Shape

variable {base files : Files} {op : BackupName} {own : OpFiles}

section

variable (h : Shape base op own files)

include h

theorem get_file (k : Slot) {file} (hname : k.name op = name)
    (hfile : own.get k = some file) : files.get name = some (.regular file) := by
  rw [← hname, h.slots, hfile]
  rfl

theorem get_none (k : Slot) (hname : k.name op = name)
    (hempty : own.get k = none) : files.get name = none := by
  rw [← hname, h.slots, hempty]
  rfl

theorem update (k : Slot) (file : Option File) {files'}
    (hk : files'.get (k.name op) = file.map .regular)
    (hother : ∀ name, name ≠ k.name op → files'.get name = files.get name) :
    Shape base op (own.put file k) files' where
  slots k' := by
    rw [OpFiles.get_put]
    split
    next heq => rw [heq, hk]
    next hne =>
      have hname : k'.name op ≠ k.name op := by
        intro heq
        exact hne (Slot.name_injective op heq)
      rw [hother _ hname, h.slots]
  rest name hname := by
    rw [hother name (hname k), h.rest name hname]

theorem set (k : Slot) (file : File) :
    Shape base op (own.put (some file) k) (files.set (k.name op) (.regular file)) :=
  h.update k (some file) (Dir.get_set_self ..) fun _ hne => Dir.get_set_of_ne _ _ hne

theorem remove (k : Slot) : Shape base op (own.put none k) (files.remove (k.name op)) :=
  h.update k none (Dir.get_remove_self ..) fun _ hne => Dir.get_remove_of_ne _ hne

/-- A file outside the slots does not matter to the slots. -/
theorem set_base (entry : Entry) (hname : ∀ k : Slot, name ≠ k.name op) :
    Shape (base.set name entry) op own (files.set name entry) where
  slots k := by
    rw [Dir.get_set_of_ne _ _ (hname k).symm, h.slots]
  rest other hother := by
    rw [Dir.get_set, Dir.get_set, h.rest other hother]

theorem remove_base (hname : ∀ k : Slot, name ≠ k.name op) :
    Shape (base.remove name) op own (files.remove name) where
  slots k := by
    rw [Dir.get_remove_of_ne _ (hname k).symm, h.slots]
  rest other hother := by
    rw [Dir.get_remove, Dir.get_remove, h.rest other hother]

end

end Shape

/-! ## State files -/

section

variable {P : Platform}

/-- A file as the store creates it. -/
structure IsState (P : Platform) (content : Content) (file : File) : Prop where
  links : file.links = 1
  mode : file.mode = 33152
  uid : file.uid = P.expectedOwner.1
  gid : file.gid = P.expectedOwner.2
  content : file.content = content

theorem isState_newStateFile (content : Content) (files : Files) :
    IsState P content (newStateFile P content files) :=
  ⟨rfl, rfl, rfl, rfl, rfl⟩

namespace IsState

variable {content : Content} {file : File}

theorem owned (h : IsState P content file) : ownedStateFile P file = true := by
  simp [ownedStateFile, h.mode, h.uid, h.gid]

theorem identity_sha256 (h : IsState P content file) :
    (file.identity P).sha256 = P.sha256 content := by
  simp [File.identity, h.content]

theorem stateIdentityMatches_iff (h : IsState P content file) (digest : Digest) :
    stateIdentityMatches P (file.identity P) digest = decide (P.sha256 content = digest) := by
  simp [stateIdentityMatches, File.identity, h.links, h.mode, h.uid, h.gid, h.content]

end IsState

/-! ## Reading a slot -/

variable {base files : Files} {op : BackupName} {own : OpFiles}

theorem openRegularAt_eq_ok {file} : openRegularAt name files = .ok file ↔
    files.get name = some (.regular file) ∧ file.links = 1 := by
  unfold openRegularAt
  grind

theorem openRegularAt_of_get {file} (h : files.get name = some (.regular file))
    (hlinks : file.links = 1) : openRegularAt name files = .ok file :=
  openRegularAt_eq_ok.mpr ⟨h, hlinks⟩

theorem openRegularAt_of_none (h : files.get name = none) :
    openRegularAt name files = .error .notFound := by
  simp [openRegularAt, h]

variable {limit : Nat}

theorem readOpenBounded_eq_ok {file content} : readOpenBounded file limit = .ok content ↔
    file.content.fits limit = true ∧ file.content = content := by
  unfold readOpenBounded
  grind

theorem readOpenBounded_of_fits {file} (h : file.content.fits limit = true) :
    readOpenBounded file limit = .ok file.content :=
  readOpenBounded_eq_ok.mpr ⟨h, rfl⟩

theorem identityOfOpenBounded_of_fits {file} (h : file.content.fits limit = true) :
    identityOfOpenBounded P file limit = .ok (file.identity P) := by
  simp [identityOfOpenBounded, readOpenBounded_of_fits h]

theorem identityAt_eq_ok {limit identity} : identityAt P name limit files = .ok identity ↔
    ∃ file, (files.get name = some (.regular file) ∧ file.links = 1) ∧
      (∀ bound, limit = some bound → file.content.fits bound = true) ∧
      file.identity P = identity := by
  simp only [← openRegularAt_eq_ok]
  unfold identityAt identityOfOpenBounded readOpenBounded
  grind

theorem openIdentityAt_eq_some {identity} :
    openIdentityAt P name limit files = .ok (some identity) ↔
      ∃ file, (files.get name = some (.regular file) ∧ file.links = 1) ∧
        file.content.fits limit = true ∧ file.identity P = identity := by
  simp only [← openRegularAt_eq_ok]
  unfold openIdentityAt identityOfOpenBounded readOpenBounded
  grind

theorem openIdentityAt_of_get {file} (h : files.get name = some (.regular file))
    (hlinks : file.links = 1) (hfits : file.content.fits limit = true) :
    openIdentityAt P name limit files = .ok (some (file.identity P)) :=
  openIdentityAt_eq_some.mpr ⟨file, ⟨h, hlinks⟩, hfits, rfl⟩

theorem openIdentityAt_of_none (h : files.get name = none) :
    openIdentityAt P name limit files = .ok none := by
  simp [openIdentityAt, openRegularAt_of_none h, IoError.notFound]

section

variable (h : Shape base op own files) (k : Slot) (hname : k.name op = name)

include h k hname

theorem Shape.identityAt_slot {file limit} (hfile : own.get k = some file) (hlinks : file.links = 1)
    (hfits : ∀ bound, limit = some bound → file.content.fits bound = true) :
    identityAt P name limit files = .ok (file.identity P) :=
  identityAt_eq_ok.mpr ⟨file, ⟨h.get_file k hname hfile, hlinks⟩, hfits, rfl⟩

/-- The check of a published name, at the file it expects. -/
theorem Shape.run_requirePublished {file limit unreadable changed} (hfile : own.get k = some file)
    (hlinks : file.links = 1)
    (hfits : ∀ bound, limit = some bound → file.content.fits bound = true) :
    (requirePublished P name limit (file.identity P) unreadable changed).run files =
      .done files (.ok ()) := by
  simp only [requirePublished, run_bind, run_attempt, run_read,
    h.identityAt_slot k hname hfile hlinks hfits, attempt_done, bind_ok, identityMatches,
    decide_true, if_true, run_pure]

theorem Shape.openIdentityAt_slot {file} (hfile : own.get k = some file) (hlinks : file.links = 1)
    (hfits : file.content.fits limit = true) :
    openIdentityAt P name limit files = .ok (some (file.identity P)) :=
  openIdentityAt_of_get (h.get_file k hname hfile) hlinks hfits

end

theorem openIdentityAt_oversized {file} (h : files.get name = some (.regular file))
    (hlinks : file.links = 1) (hfits : file.content.fits limit = false) :
    openIdentityAt P name limit files =
      .error ⟨.invalidData, "state file exceeds size limit"⟩ := by
  simp [openIdentityAt, openRegularAt_of_get h hlinks, identityOfOpenBounded, readOpenBounded,
    hfits]

section

variable (h : Shape base op own files) (k : Slot) (hname : k.name op = name)

include h k hname

theorem Shape.openIdentityAt_empty (hempty : own.get k = none) :
    openIdentityAt P name limit files = .ok none :=
  openIdentityAt_of_none (h.get_none k hname hempty)

theorem Shape.entryExistsAt_file {file} (hfile : own.get k = some file) :
    entryExistsAt name files = true := by
  rw [entryExistsAt, h.get_file k hname hfile]
  rfl

theorem Shape.entryExistsAt_empty (hempty : own.get k = none) :
    entryExistsAt name files = false := by
  rw [entryExistsAt, h.get_none k hname hempty]
  rfl

end

/-! ## Steps -/

/-- A base that may hold, besides the given one, the temporary file of a
state file that was about to be created.  Recovery may own it or not. -/
inductive Staged (P : Platform) (base : Files) : Files → Prop where
  | bare : Staged P base base
  | temp {destination : StateName} {content : Content} {file : File} {stamp : Nat}
      (free : base.get (.state (.temp destination (P.sha256 content) stamp)) = none)
      (state : IsState P content file) (fits : content.fits maxBackupBytes = true) :
      Staged P base
        (base.set (.state (.temp destination (P.sha256 content) stamp)) (.regular file))

theorem Slot.name_ne_temp (op : BackupName) (k : Slot) (destination : StateName)
    (digest : Digest) (stamp : Nat) : .state (.temp destination digest stamp) ≠ k.name op := by
  cases k <;> simp [Slot.name]

theorem ne_tempName (name : StateName) (content : Content) (files : Files) :
    Name.state name ≠ tempName P name content files := by
  intro h
  have hsize := congrArg sizeOf (Name.state.inj h)
  simp only [StateName.temp.sizeOf_spec] at hsize
  omega

theorem run_create_temp (name : StateName) (content : Content) (file : File) (files : Files) :
    (create (tempName P name content files) file).run files =
      .step files (.done (files.set (tempName P name content files) (.regular file)) (.ok ())) :=
  run_act_ok (by simp [tempName, P.stamp_unused])

/-- A free name: the temporary file is written and moved. -/
theorem run_atomicStateCreate_of_none {name content} (h : files.get (.state name) = none) :
    (atomicStateCreate P name content).run files =
      let file := newStateFile P content files
      .step files (.step (files.set (tempName P name content files) (.regular file))
        (.done (files.set (.state name) (.regular file)) (.ok (file.identity P)))) := by
  have hrename : (renameNoreplaceAt (tempName P name content files) (.state name)).run
      (files.set (tempName P name content files) (.regular (newStateFile P content files))) =
      .step (files.set (tempName P name content files) (.regular (newStateFile P content files)))
        (.done (files.set (.state name) (.regular (newStateFile P content files))) (.ok ())) := by
    refine run_act_ok ?_
    have hfree : files.get (tempName P name content files) = none := P.stamp_unused ..
    simp [Dir.get_set_of_ne _ _ (ne_tempName name content files), h, Dir.rename,
      Dir.remove_set _ _ hfree]
  simp only [atomicStateCreate, run_bind, run_read, bind_ok, run_create_temp, bind_step,
    run_attempt, hrename, attempt_step, attempt_done, run_pure]

/-- A name that is taken: the temporary file is written and goes again. -/
theorem run_atomicStateCreate_of_some {name content entry}
    (h : files.get (.state name) = some entry) (hfits : content.fits maxBackupBytes = true) :
    (atomicStateCreate P name content).run files =
      let file := newStateFile P content files
      .step files (.step (files.set (tempName P name content files) (.regular file))
        (.done files (.error .alreadyExists))) := by
  set temp := tempName P name content files with htemp
  set file := newStateFile P content files with hfile
  set staged := files.set temp (.regular file) with hstaged
  have hfree : files.get temp = none := P.stamp_unused ..
  have hget : staged.get temp = some (.regular file) := Dir.get_set_self ..
  have hrename : (renameNoreplaceAt temp (.state name)).run staged =
      .done staged (.error .alreadyExists) :=
    run_act_error (by simp [hstaged, Dir.get_set_of_ne _ _ (ne_tempName name content files), h,
      htemp])
  have hunlink : (unlink temp).run staged = .step staged (.done files (.ok ())) :=
    run_act_ok (by simp [hget]; exact Dir.remove_set _ _ hfree)
  have hidentity : identityOfOpenBounded P file maxBackupBytes = .ok (file.identity P) :=
    identityOfOpenBounded_of_fits hfits
  have hcreate : (create temp file).run files = .step files (.done staged (.ok ())) :=
    run_create_temp ..
  simp only [atomicStateCreate, run_bind, run_read, bind_ok, ← hfile, ← htemp, hcreate, bind_step,
    run_attempt, hrename, attempt_done, unlinkAtIfIdentityMatches, openRegularAt_of_get hget rfl,
    run_ofResult, hidentity, identityMatches, decide_true, Bool.not_true, Bool.false_eq_true,
    if_false, hunlink, attempt_step, run_fail, ← hstaged]

variable {inv : Files → Prop}

section

variable (h : Shape base op own files)

include h

section

variable {post : Except IoError FileIdentity → Files → Prop} {content : Content}

theorem Shape.staged {name} (hfits : content.fits maxBackupBytes = true) :
    ∃ base', Staged P base base' ∧ Shape base' op own
      (files.set (tempName P name content files) (.regular (newStateFile P content files))) := by
  have hfresh : ∀ k : Slot, tempName P name content files ≠ k.name op :=
    fun k => Slot.name_ne_temp op k _ _ _
  refine ⟨_, .temp ?_ (isState_newStateFile content files) hfits, h.set_base _ hfresh⟩
  exact (h.rest _ hfresh).symm.trans (P.stamp_unused ..)

theorem Shape.meets_create (k : Slot) {name}
    (hname : k.name op = .state name) (hempty : own.get k = none)
    (hfits : content.fits maxBackupBytes = true)
    (hinv : ∀ base' files', Staged P base base' → Shape base' op own files' → inv files')
    (hpost : ∀ file files', IsState P content file →
      Shape base op (own.put (some file) k) files' → post (.ok (file.identity P)) files') :
    ((atomicStateCreate P name content).run files).Meets inv post := by
  have hfree := h.get_none k hname hempty
  obtain ⟨base', hstaged, hshape⟩ := h.staged (P := P) hfits
  rw [run_atomicStateCreate_of_none hfree]
  refine ⟨hinv base files .bare h, hinv base' _ hstaged hshape, ?_⟩
  rw [← hname]
  exact hpost _ _ (isState_newStateFile content files) (h.set k _)

/-- A slot that holds a file is not created again. -/
theorem Shape.meets_create_exists (k : Slot) {name} (hname : k.name op = .state name) {present}
    (hpresent : own.get k = some present) (hfits : content.fits maxBackupBytes = true)
    (hinv : ∀ base' files', Staged P base base' → Shape base' op own files' → inv files')
    (hpost : post (.error .alreadyExists) files) :
    ((atomicStateCreate P name content).run files).Meets inv post := by
  have hpresent' := h.get_file k hname hpresent
  obtain ⟨base', hstaged, hshape⟩ := h.staged (P := P) hfits
  rw [run_atomicStateCreate_of_some hpresent' hfits]
  exact ⟨hinv base files .bare h, hinv base' _ hstaged hshape, hpost⟩

end

theorem Shape.meets_unlink (k : Slot) {file post} (hname : k.name op = name)
    (hfile : own.get k = some file) (hlinks : file.links = 1)
    (hfits : file.content.fits limit = true) (hinv : inv files)
    (hpost : ∀ files', Shape base op (own.put none k) files' → post (.ok ()) files') :
    ((unlinkAtIfIdentityMatches P name (file.identity P) limit).run files).Meets inv post := by
  subst hname
  have hget := h.get_file k rfl hfile
  have hunlink : (unlink (k.name op)).run files =
      .step files (.done (files.remove (k.name op)) (.ok ())) :=
    run_act_ok (by simp [hget])
  simp only [unlinkAtIfIdentityMatches, meets_bind, run_read, meets_done, afterwards_ok,
    openRegularAt_of_get hget hlinks, run_ofResult, identityOfOpenBounded_of_fits hfits,
    identityMatches, decide_true, Bool.not_true, Bool.false_eq_true, if_false, hunlink, meets_step]
  exact ⟨hinv, hpost _ (h.remove k)⟩

theorem Shape.run_rename (source destination : Slot) {file} (hsource : own.get source = some file)
    (hdestination : own.get destination = none) :
    ∃ files', (renameNoreplaceAt (source.name op) (destination.name op)).run files =
        .step files (.done files' (.ok ())) ∧
      Shape base op ((own.put none source).put (some file) destination) files' := by
  have hget := h.get_file source rfl hsource
  have hfree := h.get_none destination rfl hdestination
  refine ⟨_, run_act_ok (by simp [hget, hfree]; rfl), ?_⟩
  exact (h.remove source).set destination file

theorem Shape.run_exchange (left right : Slot) {leftFile rightFile}
    (hleft : own.get left = some leftFile) (hright : own.get right = some rightFile) :
    ∃ files', (renameExchangeAt (left.name op) (right.name op)).run files =
        .step files (.done files' (.ok ())) ∧
      Shape base op ((own.put (some rightFile) left).put (some leftFile) right) files' := by
  have hgetLeft := h.get_file left rfl hleft
  have hgetRight := h.get_file right rfl hright
  refine ⟨_, run_act_ok (by simp [hgetLeft, hgetRight]; rfl), ?_⟩
  exact (h.set left rightFile).set right leftFile

end

/-! ## State entries -/

variable {digest : Digest}

theorem Shape.matchingStateEntry_slot (h : Shape base op own files) (k : Slot) {name file content}
    (hname : k.name op = .state name) (hfile : own.get k = some file)
    (hstate : IsState P content file) (hdigest : P.sha256 content = digest)
    (hfits : content.fits limit = true) :
    matchingStateEntry P name digest limit files = .ok (some (file.identity P)) := by
  have hopen : openIdentityAt P (.state name) limit files = .ok (some (file.identity P)) :=
    h.openIdentityAt_slot k hname hfile hstate.links (by rw [hstate.content, hfits])
  simp [matchingStateEntry, hopen, hstate.stateIdentityMatches_iff, hdigest]

theorem Shape.matchingStateEntry_empty (h : Shape base op own files) (k : Slot) {name}
    (hname : k.name op = .state name) (hempty : own.get k = none) :
    matchingStateEntry P name digest limit files = .ok none := by
  simp [matchingStateEntry, h.openIdentityAt_empty k hname hempty]

/-- The slot and its quarantine, moved on by one step if that is still to
be done. -/
theorem Shape.meets_resumeQuarantine {post} (h : Shape base op own files) (k q : Slot)
    {canonical quarantine content} (hcanonical : k.name op = .state canonical)
    (hquarantine : q.name op = .state quarantine)
    (hstate : ∀ file, own.get k = some file ∨ own.get q = some file →
      IsState P content file ∧ content.fits limit = true)
    (hsingle : own.get k = none ∨ own.get q = none) (hdigest : P.sha256 content = digest)
    (hinv : inv files)
    (hmoved : ∀ file files', own.get k = some file →
      Shape base op ((own.put none k).put (some file) q) files' →
      post (.ok (some (file.identity P))) files')
    (hthere : own.get k = none → post (.ok ((own.get q).map (File.identity P))) files) :
    ((resumeQuarantine P canonical quarantine digest limit).run files).Meets inv post := by
  cases hk : own.get k with
  | none =>
    have hempty : matchingStateEntry P canonical digest limit files = .ok none :=
      h.matchingStateEntry_empty k hcanonical hk
    have hpost := hthere hk
    cases hq : own.get q with
    | none =>
      have hnone : matchingStateEntry P quarantine digest limit files = .ok none :=
        h.matchingStateEntry_empty q hquarantine hq
      rw [hq] at hpost
      simpa [resumeQuarantine, hempty, hnone] using hpost
    | some file =>
      obtain ⟨hfile, hfits⟩ := hstate file (.inr hq)
      have hsome : matchingStateEntry P quarantine digest limit files =
          .ok (some (file.identity P)) :=
        h.matchingStateEntry_slot q hquarantine hq hfile hdigest hfits
      rw [hq] at hpost
      simpa [resumeQuarantine, hempty, hsome] using hpost
  | some file =>
    have hq : own.get q = none := hsingle.resolve_left (by simp [hk])
    obtain ⟨hfile, hfits⟩ := hstate file (.inl hk)
    have hsome : matchingStateEntry P canonical digest limit files =
        .ok (some (file.identity P)) :=
      h.matchingStateEntry_slot k hcanonical hk hfile hdigest hfits
    have hnone : matchingStateEntry P quarantine digest limit files = .ok none :=
      h.matchingStateEntry_empty q hquarantine hq
    obtain ⟨files₁, hrename, h₁⟩ := h.run_rename k q hk hq
    rw [hcanonical, hquarantine] at hrename
    have hmovedEntry : matchingStateEntry P quarantine digest limit files₁ =
        .ok (some (file.identity P)) := by
      refine h₁.matchingStateEntry_slot q hquarantine ?_ hfile hdigest hfits
      simp [OpFiles.get_put]
    simp only [resumeQuarantine, meets_bind, run_read, hsome, hnone, meets_done, afterwards_ok,
      hrename, meets_step, hmovedEntry, identityMatches, decide_true, if_true, run_pure]
    exact ⟨hinv, hmoved file files₁ hk h₁⟩

end

end Facelock.Store
