import Facelock.Add.Crash
import Facelock.RemoveAll.Journal

/-!
# A publication that is held back

The machine-wide removal stops each replacement right after its exchange:
the service name has the new file, the temporary name the original, and
the intent and the binding say so (`Held`).  This is what the rollback
needs.

It is also what the recovery of single operations takes for a replacement
whose process died, and it finishes it: the temporary name goes, and the
original with it.  `meets_recoverUnlocked_held` is this run, and
`passes_removeAll_held` says that the removal of a service goes through
such a state.
-/

namespace Facelock.Store

open Facelock.Crash
open Facelock.Pam (Bytes)

variable {P : Platform} {dirs : PamDirs} {base files : Files}

namespace Addition

variable {A : Addition P}

/-- The files of a replacement right after its exchange. -/
def Held (A : Addition P) (base files : Files) : Prop :=
  ∃ b r i n p, A.IsBackup b ∧ A.IsRecord r ∧ A.IsReplaceIntent i ∧
    A.IsReplacement n ∧ A.BindsReplacement n p ∧
    Shape base A.op
      { service := some n, temp := some A.file, backup := some b, record := some r
        replaceIntent := some i, replaceBinding := some p } files

/-- The exchange, stopped by the hook that follows it. -/
theorem run_exchangeReplacement_held {n own} (e : IoError) (h : Shape base A.op own files)
    (hservice : own.get .service = some A.file) (htemp : own.get .temp = some n) :
    ∃ files', Shape base A.op ((own.put (some A.file) .temp).put (some n) .service) files' ∧
      (exchangeReplacement P A.op.service (A.file.identity P) (.pamReplace A.op) (n.identity P)
        (.error e)).run files = .step files (.done files' (.error e)) := by
  obtain ⟨files', hexchange, h'⟩ := h.run_exchange .temp .service htemp hservice
  refine ⟨files', h', ?_⟩
  have hsource := identityAt_source h hservice
  simp only [Slot.name] at hexchange
  simp only [exchangeReplacement, run_bind, run_attempt, run_read, hsource, attempt_done, bind_ok,
    identityMatches, decide_true, Bool.not_true, Bool.false_eq_true, if_false, hexchange,
    attempt_step, bind_step, run_ofResult, bind_error]

theorem keepsEvidence_held : keepsEvidence (.error held) = true := rfl

/-- The replacement of the removal ends in its own error, with everything
in place for the rollback. -/
theorem meets_replace_held {b r} (hb : A.IsBackup b) (hr : A.IsRecord r)
    (h : Shape base A.op { service := some A.file, backup := some b, record := some r } files) :
    ((replacePamWithIntent P A.prepared (A.file.identity P) A.installed (.error held)).run
      files).Meets (fun _ => True) fun result final =>
        result = .error held ∧ A.Held base final := by
  have hguard : ¬((A.file.identity P).sha256 ≠ A.prepared.provenance.originalSha256 ∨
      P.sha256 (.bytes A.installed) ≠ A.prepared.provenance.installedSha256) := by
    simp [identity_original]
  rw [replacePamWithIntent, if_neg hguard]
  change ((mutatePamWithIntent P pamReplaceKind A.replaceIntent (A.file.identity P) A.installed
    (.error held) fun _ => pure ()).run files).Meets _ _
  simp only [mutatePamWithIntent, meets_bind, replaceIntent_service, replaceIntent_temp]
  refine h.meets_create .replaceIntent rfl rfl rfl (fun _ _ _ _ => trivial) ?_
  intro i files₁ hi h₁
  obtain ⟨n, files₂, hn, h₂, hcreate⟩ := run_createReplacement h₁ rfl rfl
  simp only [afterwards_ok, meets_bind, meets_attempt, hcreate, meets_step, meets_done,
    bindReplacement, createPublicationBinding]
  refine ⟨trivial, ?_⟩
  refine h₂.meets_create .replaceBinding rfl rfl rfl (fun _ _ _ _ => trivial) ?_
  intro p files₃ hp h₃
  obtain ⟨files₄, h₄, hexchange⟩ := run_exchangeReplacement_held held h₃ rfl rfl
  simp only [afterwards_ok, run_pure, meets_done, meets_bind, meets_attempt, hexchange, meets_step,
    afterwards_error, concludeMutation, keepsEvidence_held, if_true, run_ofResult]
  exact ⟨trivial, trivial, b, r, i, n, p, hb, hr, hi, hn, hp, h₄⟩

/-- The service name has another file and the temporary name is free. -/
def Lost (A : Addition P) (files : Files) : Prop :=
  ∃ n, A.IsReplacement n ∧ files.get (.pam (.service A.op.service)) = some (.regular n) ∧
    files.get (.pam (.pamReplace A.op)) = none

theorem ignores_lost : Ignores (Set.range Name.state) A.Lost := by
  rintro files files' hsame ⟨n, hn, hservice, htemp⟩
  refine ⟨n, hn, ?_, ?_⟩
  · rw [hsame _ (by simp), hservice]
  · rw [hsame _ (by simp), htemp]

/-- The recovery of single operations finishes a publication that is held
back. -/
theorem meets_recoverUnlocked_held (hbase : Settled P base)
    (hfits : A.Fits) (h : A.Held base files) :
    ((recoverUnlocked P dirs).run files).Meets (fun _ => True) fun _ final => A.Lost final := by
  obtain ⟨b, r, i, n, p, hb, hr, hi, hn, hp, hshape⟩ := h
  have hcovers : A.Covers base false true fun _ => True := fun _ _ => trivial
  simp only [recoverUnlocked, meets_bind]
  rw [hshape.run_recoverOwnedTemps hbase, meets_done, afterwards_ok, meets_bind]
  refine meets_recoverPublications_exchanged hcovers hbase hb hr hi hn hp (by simp) hshape ?_ ?_
  · intro _ files₂ h₂
    have hlost : A.Lost files₂ :=
      ⟨n, hn, h₂.get_file .service rfl rfl, h₂.get_none .temp rfl rfl⟩
    rw [afterwards_ok, meets_bind, run_recoverIntents_nil h₂ hbase rfl rfl rfl rfl, meets_done]
    exact (keeps_recoverRecords ignores_lost state_mem_range).meets hlost (fun _ _ => trivial)
      fun _ _ hs => hs
  · intro hover
    omega

end Addition

/-! ## The removal of one service -/

/-- The creation of a free reserved name leaves the other files as they
were. -/
theorem run_atomicBatchCreate_of_none {fs} (name : BatchName) (content : Content)
    (h : fs.batch.get name = none) :
    ∃ staged file, file.content = content ∧ (atomicBatchCreate P name content).run fs =
      .step fs (.step staged (.done ⟨fs.files, fs.batch.set name (.regular file)⟩
        (.ok (file.identity P)))) := by
  set temp := batchTempName P name content fs.files with htemp
  set file := newStateFile P content fs.files with hfile
  have hfree : fs.files.get temp = none := P.batchStamp_unused ..
  have hcreate : (onFiles (create temp file)).run fs =
      .step fs (.done ⟨fs.files.set temp (.regular file), fs.batch⟩ (.ok ())) := by
    show ((create temp file).run fs.files).mapStates _ = _
    rw [create, run_act_ok (by simp only [hfree, Option.isSome_none]; rfl)]
    rfl
  have hrename : (renameToBatch temp name).run ⟨fs.files.set temp (.regular file), fs.batch⟩ =
      .step ⟨fs.files.set temp (.regular file), fs.batch⟩
        (.done ⟨fs.files, fs.batch.set name (.regular file)⟩ (.ok ())) := by
    refine run_act_ok ?_
    simp [h, Dir.remove_set _ _ hfree]
  refine ⟨⟨fs.files.set temp (.regular file), fs.batch⟩, file, rfl, ?_⟩
  simp only [atomicBatchCreate, run_bind, run_read, bind_ok, ← htemp, ← hfile, hcreate, bind_step,
    publishBatch, run_attempt, hrename, attempt_step, attempt_done, run_pure]

/-- Nothing is to be recovered where no operation is in progress. -/
theorem Planned.meets_transaction_idle {service file original installed now prepared batch}
    (h : Planned P service file original installed now prepared files) (hbatch : NoBatch P batch) :
    ((transaction P dirs).run ⟨files, batch⟩).Meets (fun _ => True) fun result final =>
      result = .ok () ∧ final = ⟨files, batch⟩ := by
  rw [meets_transaction hbatch]
  simp only [recoverUnlocked, meets_bind]
  have hpublications : (recoverPublications P dirs).run files = .done files (.ok ()) :=
    h.addition.run_recoverPublications_nil h.shape h.settled rfl rfl
  have hsettle : (recoverIntents P >>= fun _ => recoverRecords P).run files =
      .done files (.ok ()) :=
    h.addition.run_settle_restored h.settled h.shape
  rw [h.shape.run_recoverOwnedTemps h.settled, meets_done, afterwards_ok, meets_bind, hpublications,
    meets_done, afterwards_ok, hsettle]
  exact ⟨rfl, rfl⟩

def soleRemoval (P : Platform) (service : String) (file : File) (original : Bytes)
    (prepared : PreparedBackup) (deleteOverride : Bool) : PlannedRemoval where
  service := service
  installed := Pam.withLineRemoved original
  prepared := prepared
  expected := file.identity P
  deleteOverride := deleteOverride

section Sole

variable {service : String} {file : File} {original : Bytes} {prepared : PreparedBackup}
  {deleteOverride : Bool} {batch : Batch}

theorem Planned.planWrites_eq
    (h : Planned P service file original (Pam.withLineRemoved original) (P.clock files) prepared
      files) (hfits : original.length ≤ maxBackupBytes)
    (hplan : planRemoval P dirs service original (file.identity P) = some deleteOverride) :
    planWrites P dirs [service] files =
      .ok [RemovalTarget.mk service original (file.identity P) (some deleteOverride)] := by
  have hread : readRegularNofollow P service files = .ok (file.content, file.identity P) := by
    have hfile : file.content.fits maxBackupBytes = true := by
      rw [h.content]
      exact decide_eq_true hfits
    simp [readRegularNofollow, openRegularAt_of_get h.bound h.links, readOpenBounded_of_fits hfile]
  have hwrite : planWrite P dirs files service =
      .ok (RemovalTarget.mk service original (file.identity P) (some deleteOverride)) := by
    simp [planWrite, hread, h.content, Content.rawBytes, hplan]
  simp only [planWrites, List.mapM_cons, List.mapM_nil, hwrite]
  rfl

theorem Planned.meets_prepareRemovals
    (h : Planned P service file original (Pam.withLineRemoved original) (P.clock files) prepared
      files) (hfits : original.length ≤ maxBackupBytes) :
    ((prepareRemovals P [RemovalTarget.mk service original (file.identity P)
        (some deleteOverride)]).run files).Meets (fun _ => True) fun result final =>
      result = .ok [soleRemoval P service file original prepared deleteOverride] ∧
        ∃ b r, h.addition.IsBackup b ∧ IsState P h.addition.record r ∧
          Shape files h.addition.op { service := some file, backup := some b, record := some r }
            final := by
  have hcovers : h.addition.Covers files true true fun _ => True := fun _ _ => trivial
  simp only [prepareRemovals, prepareRemoval, meets_bind, run_read, meets_done, h.plan,
    afterwards_ok]
  refine h.addition.meets_persist hcovers hfits h.sequenceInUse_eq_false h.shape ?_
  intro b r files' hb hr h'
  exact ⟨rfl, b, r, hb, hr, h'⟩

def soleJournal (P : Platform) (operation : Operation) (keepBackup : Bool)
    (removal : PlannedRemoval) : RemoveAllJournal where
  version := removeAllVersion
  operation := operation
  keepBackup := keepBackup
  targets := [removal.journalTarget P]

theorem meets_createRemoveAllJournal_empty {keepBackup removal} :
    ((createRemoveAllJournal P keepBackup [removal.journalTarget P]).run ⟨files, ∅⟩).Meets
      (fun _ => True) fun result final => final.files = files ∧
        ∃ journal operation jfile, result = .ok journal ∧
          journal.value = soleJournal P operation keepBackup removal ∧
          final.batch = (∅ : Batch).set (.journal operation) (.regular jfile) ∧
          jfile.content = .journal journal.value := by
  set operation := operationAt (P.clock files).nanoseconds with hoperation
  have hnone : (FileSystem.mk files ∅).batch.get (.journal operation) = none := rfl
  obtain ⟨staged, jfile, hcontent, hcreate⟩ := run_atomicBatchCreate_of_none (P := P)
    (.journal operation) (.journal (soleJournal P operation keepBackup removal)) hnone
  have hprobes : maxTimestampCollisionProbes = 4095 + 1 := rfl
  have hfree : operationInUse operation (∅ : Batch) = false := rfl
  rw [createRemoveAllJournal, hprobes, meets_bind, run_read, meets_done, afterwards_ok,
    createJournalFrom]
  rw [meets_bind, run_read, meets_done, afterwards_ok, ← hoperation, hfree, if_neg (by simp),
    meets_bind, meets_attempt]
  show ((atomicBatchCreate P (.journal operation)
    (.journal (soleJournal P operation keepBackup removal))).run ⟨files, ∅⟩).Meets _ _
  rw [hcreate]
  exact ⟨trivial, trivial, rfl, _, operation, jfile, rfl, rfl, rfl, hcontent⟩

/-- The removal has nothing to undo between the last exchange and the
marker: the state after the exchange is a crash point. -/
theorem cut_zero_commit {scan journal fs} {next : LoadedRemoveAll RemoveAllCommit → Machine Unit}
    (hscan : scan.activeReferences fs.files = .ok [])
    (hfree : fs.batch.get (.commit journal.value.operation) = none) :
    ((checkReferences P scan journal >>= fun _ => commitRemoveAll P journal >>= next).run fs).cut
      0 = fs := by
  have hcheck : (checkReferences P scan journal).run fs = .done fs (.ok ()) := by
    simp only [checkReferences, run_bind, run_attempt, run_read, finalScan, hscan, attempt_done,
      bind_ok, run_pure]
  simp only [run_bind, hcheck, bind_ok, commitRemoveAll, run_read]
  cases committedRemoveAllTargets P journal.value fs.files with
  | error e => rfl
  | ok targets =>
    obtain ⟨staged, file, -, hcreate⟩ := run_atomicBatchCreate_of_none (P := P)
      (.commit journal.value.operation)
      (.commit
        { version := removeAllVersion
          operation := journal.value.operation
          journalSha256 := P.sha256 (.journal journal.value)
          keepBackup := journal.value.keepBackup
          targets }) hfree
    simp only [bind_ok, run_bind, run_attempt, hcreate]
    rfl

/-- The removal of one service goes through the state in which its
publication is held back, under a journal without a marker. -/
theorem Planned.passes_removeAll_held
    (h : Planned P service file original (Pam.withLineRemoved original) (P.clock files) prepared
      files) (hfits : original.length ≤ maxBackupBytes)
    (hplan : planRemoval P dirs service original (file.identity P) = some deleteOverride)
    (scan : RemoveAllScan) (hscan : scan.services files = .ok [service])
    (hreferences : ∀ files, scan.activeReferences files = .ok []) (keepBackup : Bool) :
    ((removeAll P dirs scan keepBackup).run ⟨files, ∅⟩).Passes fun fs =>
      h.addition.Held files fs.files ∧ ∃ journal, Uncommitted fs journal ∧
        (soleRemoval P service file original prepared deleteOverride).journalTarget P ∈
          journal.targets := by
  refine Run.passes_bind ((h.meets_transaction_idle noBatch_empty).mono (fun _ _ => trivial) ?_)
  rintro _ _ ⟨rfl, rfl⟩
  refine ⟨(), rfl, ?_⟩
  rw [run_bind, run_read, hscan, bind_ok, if_neg (by simp), if_neg (by simp [maxRemoveAllTargets]),
    run_bind, run_read, h.planWrites_eq hfits hplan, bind_ok, run_bind]
  refine Run.passes_bind ?_
  rw [meets_onFiles]
  refine (h.meets_prepareRemovals hfits).mono (fun _ _ => trivial) ?_
  rintro _ files₁ ⟨rfl, b, r, hb, hr, h₁⟩
  refine ⟨_, rfl, ?_⟩
  refine Run.passes_bind (meets_createRemoveAllJournal_empty.mono (fun _ _ => trivial) ?_)
  rintro _ ⟨files₂, batch⟩ ⟨rfl, journal, operation, jfile, rfl, hjournal, hbatch, hcontent⟩
  refine ⟨journal, rfl, ?_⟩
  refine Run.passes_bind ?_
  rw [publishRemovals, meets_bind, meets_attempt, meets_onFiles]
  refine (h.addition.meets_replace_held hb hr h₁).mono (fun _ _ => trivial) ?_
  rintro _ files₃ ⟨rfl, hheld⟩
  refine ⟨(), rfl, 0, ?_⟩
  have hbatch' : batch = (∅ : Batch).set (.journal operation) (.regular jfile) := hbatch
  have hfree : batch.get (.commit operation) = none := by
    rw [hbatch', Dir.get_set_of_ne _ _ (by simp), Dir.get_empty]
  rw [cut_zero_commit (hreferences _) (by rw [hjournal]; exact hfree)]
  refine ⟨hheld, journal.value, ⟨operation, jfile, ?_, hcontent, hfree⟩, ?_⟩
  · rw [hbatch', Dir.get_set_self]
  · rw [hjournal]
    exact List.mem_singleton_self _

end Sole

end Facelock.Store
