import Facelock.RemoveAll.Held

/-!
# The originals over whole histories

A history is a sequence of PAM commands, each cut short at any step or
not.  While a remove-all journal exists without its marker, the original
of each of its targets must be linked, or the rollback has nothing to go
back to.

The machine-wide removal keeps this at every step
(`keeps_sound_removeAll`): its transaction settles what an earlier run
left, the journal is written while the originals are in place, and from
then on each exchange, each rollback and the marker keep them.

A named command keeps it too if it starts with every journal marked.  It
recovers single operations before its first transaction, and that pass
does not know about the journal: it finishes a publication that the
removal holds back, and unlinks the original with it.
-/

namespace Facelock.Store

open Facelock.Crash List
open Facelock.Pam (Bytes)

variable {P : Platform} {dirs : PamDirs}

/-! ## The plan -/

/-- The service name of a planned target holds the file that was read. -/
def RemovalTarget.InPlace (P : Platform) (files : Files) (target : RemovalTarget) : Prop :=
  Holds P files (.pam (.service target.service)) target.identity

variable {files : Files}

theorem planWrite_ok {service target} (h : planWrite P dirs files service = .ok target) :
    target.service = service ∧ target.InPlace P files := by
  unfold planWrite at h
  split at h
  next => cases h
  next content identity hread =>
    cases h
    exact ⟨rfl, holds_of_readRegularNofollow hread⟩

variable {targets : List RemovalTarget}

theorem planWrites_ok {names} (h : planWrites P dirs names files = .ok targets) :
    targets.map (·.service) = names ∧ ∀ target ∈ targets, target.InPlace P files := by
  unfold planWrites at h
  induction names generalizing targets with
  | nil =>
    cases h
    exact ⟨rfl, nofun⟩
  | cons name names ih =>
    rw [mapM_cons] at h
    obtain ⟨target, hname, h⟩ := bind_eq_ok h
    obtain ⟨others, hnames, h⟩ := bind_eq_ok h
    cases h
    obtain ⟨hservice, hplace⟩ := planWrite_ok hname
    obtain ⟨hservices, hplaces⟩ := ih hnames
    exact ⟨by rw [map_cons, hservice, hservices], forall_mem_cons.mpr ⟨hplace, hplaces⟩⟩

/-- What the preparation of a target carries over from its plan. -/
structure Prepares (target : RemovalTarget) (planned : PlannedRemoval) : Prop where
  service : planned.service = target.service
  expected : planned.expected = target.identity
  provenance : planned.prepared.provenance.service = target.service
  backup : planned.prepared.backup.service = target.service

def AllInPlace (P : Platform) (targets : List RemovalTarget) (files : Files) : Prop :=
  ∀ target ∈ targets, target.InPlace P files

theorem ignores_allInPlace (targets : List RemovalTarget) :
    Ignores (Set.range Name.state) (AllInPlace P targets) := by
  intro files files' hsame h target htarget
  exact (h target htarget).congr (hsame _ (by simp))

theorem meets_prepareRemoval {all} (target : RemovalTarget) (h : AllInPlace P all files) :
    ((prepareRemoval P target).run files).Yields (AllInPlace P all) fun planned _ =>
      Prepares target planned := by
  unfold prepareRemoval
  cases target.plan with
  | none => exact yields_error h
  | some deleteOverride =>
    refine yields_read_bind h fun prepared hplan => ?_
    have hisPlan := isPlan_of_plan hplan
    have hpersist : (persist P prepared target.content).Keeps (AllInPlace P all) :=
      keeps_persist (ignores_allInPlace all) state_mem_range _ _
    refine (hpersist.yields h).bind fun _ final hfinal _ => ?_
    refine yields_ok hfinal ⟨rfl, rfl, ?_, hisPlan.isService⟩
    show prepared.provenance.service = target.service
    rw [hisPlan.provenance]

theorem meets_prepareRemovals {all} (targets : List RemovalTarget) (h : AllInPlace P all files) :
    ((prepareRemovals P targets).run files).Yields (AllInPlace P all) fun planned _ =>
      List.Forall₂ Prepares targets planned := by
  induction targets generalizing files with
  | nil => exact yields_ok h .nil
  | cons target targets ih =>
    refine (meets_prepareRemoval target h).bind fun planned files₁ h₁ hplanned => ?_
    refine (ih h₁).bind fun others files₂ h₂ hothers => ?_
    exact yields_ok h₂ (.cons hplanned hothers)

variable {planned : List PlannedRemoval}

section

variable (h : List.Forall₂ Prepares targets planned)

include h

theorem Prepares.exists_mem {removal}
    (hremoval : removal ∈ planned) : ∃ target ∈ targets, Prepares target removal := by
  induction h with
  | nil => cases hremoval
  | @cons target first targets planned hfirst _ ih =>
    rcases mem_cons.mp hremoval with rfl | hrest
    · exact ⟨target, mem_cons_self, hfirst⟩
    · obtain ⟨found, hfound, hprepares⟩ := ih hrest
      exact ⟨found, mem_cons_of_mem _ hfound, hprepares⟩

theorem Prepares.map_service : planned.map (·.service) = targets.map (·.service) := by
  induction h with
  | nil => rfl
  | cons hfirst _ ih => rw [map_cons, map_cons, hfirst.service, ih]

/-- The journal of a prepared removal keeps its targets apart. -/
theorem Prepares.separate (hnodup : (targets.map (·.service)).Nodup) :
    Separate (planned.map (·.journalTarget P)) where
  services := by
    have hservices : (planned.map (·.journalTarget P)).map (·.service) =
        planned.map (·.service) := by
      rw [map_map]
      rfl
    rw [hservices, Prepares.map_service h]
    exact hnodup
  backups := by
    intro target htarget
    obtain ⟨removal, hremoval, rfl⟩ := mem_map.mp htarget
    obtain ⟨source, -, hprepares⟩ := Prepares.exists_mem h hremoval
    exact hprepares.backup.trans hprepares.service.symm

theorem Prepares.linkedAll (hplace : AllInPlace P targets files) :
    LinkedAll P (planned.map (·.journalTarget P)) files := by
  intro target htarget
  obtain ⟨removal, hremoval, rfl⟩ := mem_map.mp htarget
  obtain ⟨source, hsource, hprepares⟩ := Prepares.exists_mem h hremoval
  refine .inl ?_
  show Holds P files (.pam (.service removal.service)) removal.expected
  rw [hprepares.service, hprepares.expected]
  exact hplace source hsource

end

/-! ## The journal and the marker -/

def SamePam (files files' : Files) : Prop :=
  ∀ name, files'.get (.pam name) = files.get (.pam name)

theorem ignores_samePam (files : Files) : Ignores (Set.range Name.state) (SamePam files) := by
  intro files₁ files₂ hsame h name
  rw [hsame _ (by simp), h]

theorem LinkedAll.of_samePam {targets files'} (h : LinkedAll P targets files)
    (hsame : SamePam files files') : LinkedAll P targets files' :=
  fun target htarget => (h target htarget).congr (hsame _) (hsame _)

variable {fs : FileSystem}

/-- The creation of a reserved name: the temporary file is a state file,
and the name gets the content or stays as it is. -/
theorem meets_atomicBatchCreate {inv post} (name : BatchName) (content : Content)
    (hstage : ∀ files, SamePam fs.files files → inv ⟨files, fs.batch⟩)
    (hok : ∀ files file, SamePam fs.files files → file.content = content →
      fs.batch.get name = none →
      post (.ok (file.identity P)) ⟨files, fs.batch.set name (.regular file)⟩)
    (herror : ∀ e files, SamePam fs.files files → post (.error e) ⟨files, fs.batch⟩) :
    ((atomicBatchCreate P name content).run fs).Meets inv post := by
  have hsame : SamePam fs.files fs.files := fun _ => rfl
  have hignores := ignores_samePam fs.files
  generalize htemp : batchTempName P name content fs.files = temp
  have hstate : temp ∈ Set.range Name.state := by
    rw [← htemp]
    exact ⟨_, rfl⟩
  have hfree : fs.files.get temp = none := by
    rw [← htemp]
    exact P.batchStamp_unused ..
  simp only [atomicBatchCreate, meets_bind, run_read, meets_done, afterwards_ok, htemp,
    meets_onFiles]
  rw [create, run_act_ok (by simp only [hfree, Option.isSome_none]; rfl)]
  refine ⟨hstage _ hsame, ?_⟩
  have hcreated : SamePam fs.files
      (fs.files.set temp (.regular (newStateFile P content fs.files))) :=
    hignores.set hstate _ hsame
  rw [meets_done, afterwards_ok, publishBatch, meets_bind, meets_attempt, renameToBatch]
  cases hname : fs.batch.get name with
  | none =>
    rw [run_act_ok (by simp only [Dir.get_set_self, hname, Option.isSome_none]; rfl)]
    exact ⟨hstage _ hcreated, hok _ _ (hignores.remove hstate hcreated) rfl hname⟩
  | some entry =>
    rw [run_act_error (e := .alreadyExists)
      (by simp [Dir.get_set_self, hname, Option.isSome_some])]
    rw [meets_done, afterwards_ok, meets_bind, meets_attempt, meets_onFiles]
    refine (keeps_unlinkAtIfIdentityMatches hignores hstate _ _).meets hcreated hstage ?_
    intro result files hfiles
    exact herror _ files hfiles

/-- The state between the creation of the journal and its marker. -/
structure Journaled (P : Platform) (journal : LoadedRemoveAll RemoveAllJournal)
    (fs : FileSystem) : Prop where
  name : journal.name = .journal journal.value.operation
  valid : validRemoveAllOperation journal.value.operation = true
  names : ValidNames fs.batch
  sole : Sole fs.batch journal.value
  separate : Separate journal.value.targets
  linked : LinkedAll P journal.value.targets fs.files

variable {journal : LoadedRemoveAll RemoveAllJournal}

theorem Journaled.sound (h : Journaled P journal fs) : Sound P fs :=
  h.sole.sound h.names h.linked

theorem validRemoveAllOperation_operationAt {sinceEpoch} (h : sinceEpoch < durationLimit) :
    validRemoveAllOperation (operationAt sinceEpoch) = true := by
  have hseconds : sinceEpoch / 1000000000 < 2 ^ 64 := Nat.div_lt_of_lt_mul h
  have hnanoseconds : sinceEpoch % 1000000000 < 1000000000 := Nat.mod_lt _ (by decide)
  simp only [validRemoveAllOperation, operationAt, hseconds, hnanoseconds, decide_true,
    Bool.and_self]

theorem sole_set {batch} (h : NoJournal batch) {journal file}
    (hcontent : file.content = .journal journal) :
    Sole (batch.set (.journal journal.operation) (.regular file)) journal := by
  intro operation entry hentry
  rw [Dir.get_set] at hentry
  split at hentry
  next heq =>
    cases heq
    cases hentry
    exact ⟨rfl, file, rfl, hcontent⟩
  next =>
    rw [h] at hentry
    cases hentry

theorem meets_createJournalFrom {targets keepBackup} (hsep : Separate targets)
    (hnames : ValidNames fs.batch) (hnone : NoJournal fs.batch)
    (hlinked : LinkedAll P targets fs.files) (probes : Nat) {sinceEpoch}
    (hbounded : sinceEpoch < durationLimit) :
    ((createJournalFrom P keepBackup targets probes sinceEpoch).run fs).Yields (Sound P)
      fun journal final => journal.value.targets = targets ∧ Journaled P journal final := by
  have hsound : ∀ files, Sound P ⟨files, fs.batch⟩ := fun files => hnone.marked.sound hnames files
  induction probes generalizing sinceEpoch fs with
  | zero => exact yields_error (hsound fs.files)
  | succ probes ih =>
    have hnext : ∀ files, SamePam fs.files files →
        ((if sinceEpoch + 1 < durationLimit then
          createJournalFrom P keepBackup targets probes (sinceEpoch + 1)
        else Prog.fail ⟨.invalidData, "remove-all clock overflow"⟩).run ⟨files, fs.batch⟩).Yields
          (Sound P) fun journal final =>
            journal.value.targets = targets ∧ Journaled P journal final := by
      intro files hsame
      split
      next hlt =>
        exact @ih ⟨files, fs.batch⟩ hnames hnone (hlinked.of_samePam hsame) _ hlt hsound
      next => exact yields_error (hsound files)
    rw [Run.Yields, createJournalFrom]
    dsimp only
    rw [meets_bind, run_read, meets_done, afterwards_ok]
    split
    next => exact hnext fs.files fun _ => rfl
    next =>
      rw [meets_bind, meets_attempt]
      refine meets_atomicBatchCreate _ _ (fun files _ => hsound files) ?_ ?_
      · intro files file hsame hcontent _
        have hvalid := validRemoveAllOperation_operationAt hbounded
        have hjournaled : Journaled P
            { name := .journal (operationAt sinceEpoch)
              value :=
                { version := removeAllVersion, operation := operationAt sinceEpoch, keepBackup,
                  targets }
              identity := file.identity P }
            ⟨files, fs.batch.set (.journal (operationAt sinceEpoch)) (.regular file)⟩ :=
          ⟨rfl, hvalid, hnames.set _ hvalid, sole_set hnone hcontent, hsep,
            hlinked.of_samePam hsame⟩
        exact yields_ok hjournaled.sound ⟨rfl, hjournaled⟩
      · intro e files hsame
        rw [afterwards_ok]
        dsimp only
        split
        next => exact hnext files hsame
        next => exact ⟨hsound files, by simp⟩

/-! ## The run -/

/-- The same reserved names with files that still have the originals. -/
theorem Journaled.of_linked (h : Journaled P journal fs)
    (hlinked : LinkedAll P journal.value.targets files) : Journaled P journal ⟨files, fs.batch⟩ :=
  { h with linked := hlinked }

theorem meets_rollbackAfter {α : Type} {post} (e : IoError) (h : Journaled P journal fs) :
    ((rollbackAfter P journal e : Machine α).run fs).Yields (Sound P) post := by
  rw [Run.Yields, rollbackAfter, meets_bind, meets_attempt]
  refine (meets_rollbackRemoveAll h.name h.separate h.sole h.names h.linked).mono
    (fun _ hs => hs) ?_
  rintro (e' | value) final ⟨hfinal, -⟩
  · exact yields_error hfinal
  · exact yields_error hfinal

theorem meets_publishRemovals
    (hplanned : ∀ removal ∈ planned, removal.journalTarget P ∈ journal.value.targets ∧
      removal.prepared.provenance.service = removal.service) (h : Journaled P journal fs) :
    ((publishRemovals P journal planned).run fs).Yields (Sound P) fun _ final =>
      Journaled P journal final := by
  induction planned generalizing fs with
  | nil => exact yields_ok h.sound h
  | cons removal others ih =>
    obtain ⟨⟨hmem, hservice⟩, hothers⟩ := forall_mem_cons.mp hplanned
    rw [Run.Yields, publishRemovals, meets_bind, meets_attempt, meets_onFiles]
    refine (keeps_replacePamWithIntent h.separate hmem _ _ hservice rfl).meets h.linked
      (fun files hs => (h.of_linked hs).sound) ?_
    intro result files hlinked
    have hfiles := h.of_linked hlinked
    cases result with
    | ok value => exact yields_error hfiles.sound
    | error e =>
      rw [afterwards_ok]
      dsimp only
      split
      next => exact ih hothers hfiles
      next =>
        split
        next => exact yields_error hfiles.sound
        next => exact meets_rollbackAfter e hfiles

theorem meets_checkReferences {scan} (h : Journaled P journal fs) :
    ((checkReferences P scan journal).run fs).Yields (Sound P) fun _ final =>
      Journaled P journal final := by
  rw [Run.Yields, checkReferences, meets_bind, meets_attempt, run_read, meets_done, afterwards_ok]
  cases finalScan scan fs.files with
  | ok value => exact yields_ok h.sound h
  | error e => exact meets_rollbackAfter e h

/-- The marker is written while the originals are there; once it exists,
the journal is marked. -/
theorem meets_commitRemoveAll (h : Journaled P journal fs) :
    ((commitRemoveAll P journal).run fs).Yields (Sound P) fun _ final => Marked final ∧
      ∀ operation, final.batch.get (.journal operation) ≠ none →
        journal.name = .journal operation := by
  refine yields_read_bind h.sound fun targets _ => ?_
  dsimp only
  rw [Run.Yields, meets_bind, meets_attempt]
  refine meets_atomicBatchCreate _ _
    (fun files hsame => (h.of_linked (h.linked.of_samePam hsame)).sound) ?_ ?_
  · intro files file hsame hcontent hfree
    -- The marker is the only new name.
    have hjournals : ∀ operation, (fs.batch.set (.commit journal.value.operation)
        (.regular file)).get (.journal operation) ≠ none →
        operation = journal.value.operation := by
      intro operation hne
      rw [Dir.get_set_of_ne _ _ (by simp)] at hne
      obtain ⟨entry, hentry⟩ := Option.ne_none_iff_exists'.mp hne
      exact (h.sole operation entry hentry).1
    have hmarked : Marked ⟨files, fs.batch.set (.commit journal.value.operation)
        (.regular file)⟩ := by
      refine ⟨h.names.set _ h.valid, ?_⟩
      intro operation hne
      rw [hjournals operation hne, Dir.get_set_self]
      simp
    refine yields_ok hmarked.sound ⟨hmarked, ?_⟩
    intro operation hne
    rw [h.name, hjournals operation hne]
  · intro e files hsame
    have hfiles := h.of_linked (h.linked.of_samePam hsame)
    rw [afterwards_ok]
    dsimp only
    split
    next => exact yields_error hfiles.sound
    next => exact meets_rollbackAfter e hfiles

theorem meets_removePlanned {scan keepBackup} (hsep : Separate (planned.map (·.journalTarget P)))
    (hservice : ∀ removal ∈ planned, removal.prepared.provenance.service = removal.service)
    (hnames : ValidNames fs.batch) (hnone : NoJournal fs.batch)
    (hlinked : LinkedAll P (planned.map (·.journalTarget P)) fs.files) :
    ((removePlanned P dirs scan keepBackup planned).run fs).Yields (Sound P) fun _ _ => True := by
  have hcreate : ((createRemoveAllJournal P keepBackup (planned.map (·.journalTarget P))).run
      fs).Yields (Sound P) fun journal final =>
        journal.value.targets = planned.map (·.journalTarget P) ∧ Journaled P journal final := by
    rw [Run.Yields, createRemoveAllJournal, meets_bind, run_read, meets_done, afterwards_ok]
    exact meets_createJournalFrom hsep hnames hnone hlinked _ (P.clock fs.files).bounded
  refine hcreate.bind fun journal fs₁ _ hjournal => ?_
  obtain ⟨htargets, hjournaled⟩ := hjournal
  have hplanned : ∀ removal ∈ planned, removal.journalTarget P ∈ journal.value.targets ∧
      removal.prepared.provenance.service = removal.service := by
    intro removal hremoval
    rw [htargets]
    exact ⟨mem_map_of_mem hremoval, hservice removal hremoval⟩
  refine (meets_publishRemovals hplanned hjournaled).bind fun _ fs₂ _ hpublished => ?_
  refine (meets_checkReferences hpublished).bind fun _ fs₃ _ hchecked => ?_
  refine (meets_commitRemoveAll hchecked).bind fun commit fs₄ _ hcommitted => ?_
  obtain ⟨hmarked, hname⟩ := hcommitted
  refine (meets_finishCommittedRemoveAll hmarked ?_).mono (fun _ hs => hs.sound)
    fun _ _ hs => ⟨hs.1.sound, fun _ _ => trivial⟩
  intro operation hne
  exact ⟨journal, rfl, hname operation hne⟩

/-- The machine-wide removal keeps the originals at every step. -/
theorem keeps_sound_removeAll (scan : RemoveAllScan) (keepBackup : Bool) :
    (removeAll P dirs scan keepBackup).Keeps (Sound P) := by
  intro fs h
  suffices hyields : ((removeAll P dirs scan keepBackup).run fs).Yields (Sound P) fun _ _ => True
    from hyields.keeps
  refine (meets_transaction_of_sound h).bind fun _ fs₁ h₁ hnone => ?_
  have hsound : ∀ files, Sound P ⟨files, fs₁.batch⟩ := hnone.marked.sound h₁.names
  refine yields_read_bind h₁ fun names hnames => ?_
  split
  next => exact yields_ok h₁ trivial
  next =>
    split
    next => exact yields_error h₁
    next =>
      refine yields_read_bind h₁ fun targets hplan => ?_
      obtain ⟨hservices, hplace⟩ := planWrites_ok hplan
      rw [Run.Yields, meets_bind, meets_onFiles]
      refine (meets_prepareRemovals targets hplace).mono (fun files _ => hsound files) ?_
      rintro (e | planned) files ⟨hfiles, hplanned⟩
      · exact ⟨hsound files, by simp⟩
      have hprepares := hplanned planned rfl
      refine meets_removePlanned (Prepares.separate hprepares ?_) ?_ h₁.names hnone
        (Prepares.linkedAll hprepares hfiles)
      · rw [hservices]
        exact scan.services_nodup fs₁.files names hnames
      · intro removal hremoval
        obtain ⟨target, -, htarget⟩ := Prepares.exists_mem hprepares hremoval
        exact htarget.provenance.trans htarget.service.symm

/-! ## Named commands -/

theorem keeps_onFiles_marked {α : Type} (action : Action α) : (onFiles action).Keeps Marked :=
  fun _ h => meets_onFiles_of_batch action (fun _ => h) fun _ _ => h

theorem keeps_marked_apply (write : NamedWrite) : (write.apply P dirs).Keeps Marked := by
  cases write with
  | unchanged service => exact keeps_pure ()
  | addRewrite | addOverride | removeRewrite | removeOverride =>
    exact keeps_bind keeps_transaction_marked fun _ => keeps_onFiles_marked _

/-- A named command that starts with every journal marked. -/
theorem keeps_marked_applyAll (cleanup : Bool) (writes : List NamedWrite) :
    (applyAll P dirs cleanup writes).Keeps Marked := by
  refine keeps_attempt_bind (keeps_onFiles_marked _) (fun _ => keeps_forM ?_) fun _ => keeps_pure ()
  intro write _
  refine keeps_attempt_bind (keeps_marked_apply write) (fun _ => ?_) fun _ => keeps_pure ()
  refine keeps_ite ?_ (keeps_pure ())
  exact keeps_bind (keeps_attempt (keeps_onFiles_marked _)) fun _ => keeps_pure ()

/-! ## Histories -/

/-- The inode of the original is linked under the service name or under the
temporary name of its replacement. -/
def OriginalLinked (target : RemoveAllJournalTarget) (files : Files) : Prop :=
  ∃ file : File, (files.get (.pam (.service target.service)) = some (.regular file) ∨
      files.get (.pam (.pamReplace target.backup)) = some (.regular file)) ∧
    file.device = target.original.device ∧ file.inode = target.original.inode

/-- Every journal without its marker can still be rolled back. -/
def Restorable (fs : FileSystem) : Prop :=
  ∀ journal, Uncommitted fs journal → ∀ target ∈ journal.targets, OriginalLinked target fs.files

/-- The states after some commands, the last of them cut short or not.  A
command may start if `allowed` says so. -/
inductive PamHistory (P : Platform) (dirs : PamDirs)
    (allowed : PamCommand → FileSystem → Prop) : FileSystem → Prop where
  | start (files : Files) : PamHistory P dirs allowed ⟨files, ∅⟩
  | cut {fs : FileSystem} (before : PamHistory P dirs allowed fs) (command : PamCommand)
      (hallowed : allowed command fs) (n : Nat) :
      PamHistory P dirs allowed (((command.program P dirs).run fs).cut n)

/-- No named command starts while a journal exists without its marker. -/
def namedAfterBatch : PamCommand → FileSystem → Prop
  | .named _ _, fs => JournalsMarked fs.batch
  | .removeAll _ _, _ => True

theorem Linked.originalLinked {target} (h : Linked P target files) :
    OriginalLinked target files := by
  rcases h with ⟨file, hfile, hidentity⟩ | ⟨file, hfile, hidentity⟩
  · exact ⟨file, .inl hfile, by rw [← hidentity]; rfl, by rw [← hidentity]; rfl⟩
  · exact ⟨file, .inr hfile, by rw [← hidentity]; rfl, by rw [← hidentity]; rfl⟩

theorem Sound.restorable (h : Sound P fs) : Restorable fs :=
  fun journal hjournal target htarget =>
    (h.originals journal hjournal target htarget).originalLinked

theorem sound_of_history (h : PamHistory P dirs namedAfterBatch fs) : Sound P fs := by
  induction h with
  | start files => exact ⟨fun name hname => absurd (Dir.get_empty name) hname, by
      rintro journal ⟨operation, file, hget, -⟩
      cases hget⟩
  | @cut fs before command hallowed n ih =>
    cases command with
    | named cleanup writes =>
      exact ((keeps_marked_applyAll cleanup writes fs ⟨ih.names, hallowed⟩).cut n).sound
    | removeAll scan keepBackup =>
      exact (keeps_sound_removeAll scan keepBackup fs ih).cut n

/-- In every history in which no named command starts while a remove-all
journal exists without its marker, the originals of such a journal are
linked in every state. -/
theorem history_keeps_originals (P : Platform) (dirs : PamDirs) (fs : FileSystem)
    (h : PamHistory P dirs namedAfterBatch fs) : Restorable fs :=
  (sound_of_history h).restorable

/-- The inode of the original is linked under the service name. -/
def OriginalRestored (target : RemoveAllJournalTarget) (files : Files) : Prop :=
  ∃ file : File, files.get (.pam (.service target.service)) = some (.regular file) ∧
    file.device = target.original.device ∧ file.inode = target.original.inode

/-- After every such history a transaction keeps the originals at each of
its steps, and if it succeeds, no journal is left.  It begins with the
recovery of the removal.  Once that has succeeded, every target of a
journal that had no marker has its original under the service name. -/
theorem recovery_restores_originals (P : Platform) (dirs : PamDirs) (fs : FileSystem)
    (h : PamHistory P dirs namedAfterBatch fs) :
    (∀ n, Restorable (((transaction P dirs).run fs).cut n)) ∧
      (((transaction P dirs).run fs).result = .ok () →
        NoJournal ((transaction P dirs).run fs).final.batch) ∧
      (((recoverRemoveAllLocked P dirs).run fs).result = .ok () →
        NoJournal ((recoverRemoveAllLocked P dirs).run fs).final.batch ∧
          ∀ journal, Uncommitted fs journal → ∀ target ∈ journal.targets,
            OriginalRestored target ((recoverRemoveAllLocked P dirs).run fs).final.files) := by
  have hsound := sound_of_history h
  have hclears : Clears (Sound P) ((transaction P dirs).run fs) := meets_transaction_of_sound hsound
  refine ⟨fun n => (hclears.keeps.cut n).restorable, hclears.post_final.2 (), fun hok => ?_⟩
  obtain ⟨hnone, hrestored⟩ := (meets_recoverRemoveAllLocked hsound).post_final.2 () hok
  refine ⟨hnone, fun journal hjournal target htarget => ?_⟩
  obtain ⟨file, hget, hidentity⟩ := hrestored journal hjournal target htarget
  exact ⟨file, hget, by rw [← hidentity]; rfl, by rw [← hidentity]; rfl⟩

/-! ### A named command under a journal -/

/-- A service file with the line that `add` wrote before there was a store. -/
def legacyFile : File :=
  { sudoFile with content := .bytes Pam.pamLine }

def legacyFiles : Files := (∅ : Files).set (.pam (.service "sudo")) (.regular legacyFile)

/-- The scans of a machine whose only reference is the `sudo` service. -/
def sudoScan : RemoveAllScan where
  services _ := .ok ["sudo"]
  services_nodup _ names h := by
    obtain rfl := Except.ok.inj h
    exact nodup_singleton _
  activeReferences _ := .ok []

/-- The removal of the line from `sudo`, cut after `n` steps. -/
noncomputable def sudoRemoval (n : Nat) : FileSystem :=
  (((PamCommand.removeAll sudoScan true).program referencePlatform ⟨[]⟩).run
    ⟨legacyFiles, ∅⟩).cut n

theorem history_keeps_originals_sudo :
    PamHistory referencePlatform ⟨[]⟩ namedAfterBatch (sudoRemoval 12) ∧
      Restorable (sudoRemoval 12) := by
  have h : PamHistory referencePlatform ⟨[]⟩ namedAfterBatch (sudoRemoval 12) :=
    .cut (.start legacyFiles) _ trivial 12
  exact ⟨h, history_keeps_originals referencePlatform ⟨[]⟩ _ h⟩

theorem planned_legacy : Planned referencePlatform "sudo" legacyFile Pam.pamLine
    (Pam.withLineRemoved Pam.pamLine) (referencePlatform.clock legacyFiles)
    (firstPlan referencePlatform "sudo" Pam.pamLine (Pam.withLineRemoved Pam.pamLine)
      (referencePlatform.clock legacyFiles)) legacyFiles := by
  refine planned_of_noState ?_ ?_ (Dir.get_set_self ..) rfl rfl (by decide)
  · intro name
    rw [legacyFiles, Dir.get_set_of_ne _ _ (by simp), Dir.get_empty]
  · intro backup
    rw [legacyFiles, Dir.get_set_of_ne _ _ (by simp), Dir.get_empty]

/-- The removal is cut while it holds the publication of `sudo` back. -/
theorem exists_held_removal : ∃ n, planned_legacy.addition.Held legacyFiles (sudoRemoval n).files ∧
    ∃ journal, Uncommitted (sudoRemoval n) journal ∧
      (soleRemoval referencePlatform "sudo" legacyFile Pam.pamLine planned_legacy.addition.prepared
        false).journalTarget referencePlatform ∈ journal.targets := by
  have hplan : planRemoval referencePlatform ⟨[]⟩ "sudo" Pam.pamLine
      (legacyFile.identity referencePlatform) = some false := by
    have hrule : Pam.hasFacelockRule Pam.pamLine = true := by decide +kernel
    have hconfined : confined "sudo" = true := by decide
    simp [planRemoval, resolveCurrentVendor, resolveIn, hrule, hconfined]
  exact planned_legacy.passes_removeAll_held (by decide +kernel) hplan sudoScan rfl (fun _ => rfl)
    true

theorem recovery_restores_originals_sudo :
    ∃ n journal, Uncommitted (sudoRemoval n) journal ∧ journal.targets ≠ [] ∧
      (((recoverRemoveAllLocked referencePlatform ⟨[]⟩).run (sudoRemoval n)).result = .ok () →
        ∀ target ∈ journal.targets, OriginalRestored target
          ((recoverRemoveAllLocked referencePlatform ⟨[]⟩).run (sudoRemoval n)).final.files) := by
  obtain ⟨n, -, journal, huncommitted, htarget⟩ := exists_held_removal
  have h : PamHistory referencePlatform ⟨[]⟩ namedAfterBatch (sudoRemoval n) :=
    .cut (.start legacyFiles) _ trivial n
  refine ⟨n, journal, huncommitted, ne_nil_of_mem htarget, fun hok => ?_⟩
  exact ((recovery_restores_originals referencePlatform ⟨[]⟩ _ h).2.2 hok).2 journal huncommitted

/-- A lost original is linked under neither name. -/
theorem Addition.Lost.not_originalLinked {A : Addition P} (h : A.Lost files) {target}
    (hservice : target.service = A.op.service) (hbackup : target.backup = A.op)
    (horiginal : target.original = A.file.identity P) : ¬OriginalLinked target files := by
  obtain ⟨n, hn, hget, hnone⟩ := h
  rintro ⟨file, hlinked | hlinked, -, hinode⟩
  · rw [hservice, hget] at hlinked
    cases hlinked
    rw [horiginal] at hinode
    exact hn.inode hinode
  · rw [hbackup, hnone] at hlinked
    cases hlinked

/-- A named command that finds a publication held back unlinks the
original. -/
theorem meets_applyAll_held (dirs : PamDirs) {A : Addition P} {base} (hbase : Settled P base)
    (hfits : A.Fits) (h : A.Held base fs.files) (service : String) :
    ((applyAll P dirs false [.unchanged service]).run fs).Meets (fun _ => True) fun _ final =>
      A.Lost final.files ∧ final.batch = fs.batch := by
  rw [applyAll, meets_bind, meets_attempt, meets_onFiles]
  refine (Addition.meets_recoverUnlocked_held hbase hfits h).mono (fun _ _ => trivial) ?_
  rintro (e | _) files hlost
  · exact ⟨hlost, rfl⟩
  · exact ⟨hlost, rfl⟩

/-- The removal is cut while it holds the publication of `sudo` back, and
the next command is a named one for another service: the journal exists
without its marker, and the original of its target is gone. -/
theorem named_command_unlinks_original :
    ∃ n m, ¬Restorable ((((PamCommand.named false [.unchanged "login"]).program referencePlatform
      ⟨[]⟩).run (sudoRemoval n)).cut m) := by
  obtain ⟨n, hheld, journal, ⟨operation, jfile, hget, hcontent, hfree⟩, htarget⟩ :=
    exists_held_removal
  set run := ((PamCommand.named false [.unchanged "login"]).program referencePlatform ⟨[]⟩).run
    (sudoRemoval n) with hrun
  obtain ⟨hlost, hbatch⟩ : planned_legacy.addition.Lost run.final.files ∧
      run.final.batch = (sudoRemoval n).batch :=
    (meets_applyAll_held ⟨[]⟩ planned_legacy.settled (by decide +kernel) hheld "login").post_final
  obtain ⟨m, hm⟩ := run.exists_cut_eq_final
  refine ⟨n, m, ?_⟩
  rw [← hrun, hm]
  intro hrestorable
  have huncommitted : Uncommitted run.final journal := by
    rw [Uncommitted, hbatch]
    exact ⟨operation, jfile, hget, hcontent, hfree⟩
  exact hlost.not_originalLinked rfl rfl rfl (hrestorable journal huncommitted _ htarget)

end Facelock.Store
