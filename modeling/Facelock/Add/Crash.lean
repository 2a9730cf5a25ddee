import Facelock.Add.Recovery
import Facelock.RemoveAll.Recovery
import Facelock.Store.Planning
import Facelock.Store.Reference

/-!
# An addition that is cut short

The addition of the PAM line to a service file, cut short at any step and
followed by any number of recoveries that may be cut short as well.  The
service name always holds the original or the new content, with the
original's owner and permissions (`addition_crash_safe`), and a
recovery that succeeds has settled the backup pair.

Whether a recovery succeeds depends on where the addition was cut
(`transaction_ok_iff`).
-/

namespace Facelock.Store

open Facelock.Crash
open Facelock.Pam (Bytes)

variable {P : Platform} {dirs : PamDirs}

/-- A planned addition to a service file, in files where no operation is
in progress.  The planner has seen that the backup and the record are
free; the other names that carry the plan's time stamp are free too. -/
structure Planned (P : Platform) (service : String) (file : File) (original installed : Bytes)
    (now : Duration) (prepared : PreparedBackup) (files : Files) : Prop where
  settled : Settled P files
  bound : files.get (.pam (.service service)) = some (.regular file)
  links : file.links = 1
  content : file.content = .bytes original
  plan : planAtUnlocked P service original installed now files = .ok prepared
  unused : ∀ k : Slot, k ≠ .service → k ≠ .backup → k ≠ .record →
    files.get (k.name prepared.backup) = none

variable {service : String} {file : File} {original installed : Bytes} {now : Duration}
  {prepared : PreparedBackup} {start : Files} {batch : Batch}

namespace Planned

theorem isPlan (h : Planned P service file original installed now prepared start) :
    IsPlan P service original installed start prepared :=
  isPlan_of_plan h.plan

def addition (h : Planned P service file original installed now prepared start) : Addition P where
  prepared := prepared
  original := original
  installed := installed
  file := file
  content := h.content
  links := h.links
  sequence := h.isPlan.sequence
  isConfined := by rw [h.isPlan.isService, h.isPlan.isConfined]
  validBackup := by rw [h.isPlan.isService, h.isPlan.valid]
  provenance := by
    rw [h.isPlan.isService]
    exact h.isPlan.provenance

section

variable (h : Planned P service file original installed now prepared start)

include h

theorem unallocated : h.addition.Unallocated start := by
  intro backup other hother
  have hmem : other ∈ scannedRecordPairs P start := by
    rw [mem_scannedRecordPairs, ← StateName.record.inj (recordPairAt_some hother).1]
    exact hother
  exact (h.isPlan.unallocated other hmem).ne

theorem sequenceInUse_eq_false : sequenceInUse P prepared.provenance.sequence start = false := by
  simp only [sequenceInUse, Bool.or_eq_false_iff, decide_eq_false_iff_not, List.contains_eq_mem,
    scannedSequences, List.mem_map, not_exists, not_and]
  refine ⟨h.isPlan.sequence, ?_⟩
  intro pair hpair
  exact (h.isPlan.unallocated pair hpair).ne

theorem shape : Shape start prepared.backup { service := some file } start where
  slots k := by
    by_cases hservice : k = .service
    · subst hservice
      rw [Slot.name, h.isPlan.isService, h.bound]
      rfl
    · have hempty : ({ service := some file } : OpFiles).get k = none := by
        cases k <;> simp at hservice <;> rfl
      rw [hempty]
      by_cases hbackup : k = .backup
      · subst hbackup
        exact h.isPlan.backup_free
      · by_cases hrecord : k = .record
        · subst hrecord
          exact h.isPlan.record_free
        · exact h.unused k hservice hbackup hrecord
  rest _ _ := rfl

theorem reach_cut (n : Nat) : h.addition.Reach start true true
      (((addTransaction P prepared (file.identity P) original installed).run start).cut n) :=
  (h.addition.meets_addTransaction h.sequenceInUse_eq_false h.shape).cut n

end

end Planned

/-! ## The recovery that every command starts with -/

/-- No machine-wide removal is on record. -/
def NoBatch (P : Platform) (batch : Batch) : Prop :=
  loadRemoveAllState P batch = .ok { journal := none, commit := none }

theorem meets_transaction {fs} (hbatch : NoBatch P fs.batch) {inv post} :
    ((transaction P dirs).run fs).Meets inv post ↔
      ((recoverUnlocked P dirs).run fs.files).Meets (fun files => inv { fs with files })
        fun result files => post result { fs with files } := by
  unfold NoBatch at hbatch
  simp [transaction, recoverRemoveAllLocked, hbatch, onFiles]

namespace Addition

variable {A : Addition P} {base : Files} {gap : Bool}

theorem Outcome.reach {files} (h : A.Outcome base gap files) : A.Reach base false gap files := by
  cases h with
  | restored hp h => exact reach_of_shape (.unstarted hp) h
  | committed hb hn hx hfits h => exact reach_of_shape (.committed hb hn hx hfits) h
  | undecided hgap hb hr hi hn h =>
    subst hgap
    exact reach_of_shape (.created hb hr hi hn) h

/-- A recovery keeps the files at a stage, and has an outcome if it
succeeds. -/
theorem meets_transaction_of_reach (dirs : PamDirs) {fs} (hbase : Settled P base)
    (hsequence : A.Unallocated base) (hdiffers : A.installed ≠ A.original)
    (hbatch : NoBatch P batch) (h : fs.batch = batch ∧ A.Reach base false gap fs.files) :
    ((transaction P dirs).run fs).Meets
      (fun fs => fs.batch = batch ∧ A.Reach base false gap fs.files)
      fun result fs => (fs.batch = batch ∧ A.Reach base false gap fs.files) ∧
        (result = .ok () → ∃ litter, A.Outcome litter gap fs.files) := by
  obtain ⟨rfl, litter, base', own, hlitter, hstaged, hstage, hshape⟩ := h
  rw [meets_transaction hbatch]
  have hinv : A.Covers base false gap fun files =>
      fs.batch = fs.batch ∧ A.Reach base false gap files := fun _ hreach => ⟨rfl, hreach⟩
  refine meets_recoverUnlocked hinv hbase hsequence (.inr hdiffers) hstage hlitter hstaged hshape
    ?_ ?_
  · intro _ litter' final hlitter' houtcome
    exact ⟨⟨rfl, houtcome.reach.of_littered hlitter'⟩, fun _ => ⟨litter', houtcome⟩⟩
  · intro _ e final hreach
    exact ⟨⟨rfl, hreach⟩, nofun⟩

end Addition

/-! ## The service file and its backup pair -/

/-- The service name holds a regular file with one link, with the owner and
permissions of `file`, and with one of two contents. -/
def ServiceIntact (service : String) (file : File) (original installed : Bytes)
    (files : Files) : Prop :=
  ∃ current, files.get (.pam (.service service)) = some (.regular current) ∧
    current.links = 1 ∧ current.mode = file.mode ∧ current.uid = file.uid ∧
    current.gid = file.gid ∧
    (current.content = .bytes original ∨ current.content = .bytes installed)

/-- The backup pair agrees with the service file: it is committed if the
new content is installed, and absent if the original is there. -/
def PairSettled (P : Platform) (service : String) (backup : BackupName)
    (original installed : Bytes) (files : Files) : Prop :=
  ∀ current, files.get (.pam (.service service)) = some (.regular current) →
    (current.content = .bytes installed →
      ∃ pair, recordPairAt P files (.record backup) = some pair ∧
        pair.provenance.state = .committed) ∧
    (current.content = .bytes original →
      files.get (.state (.backup backup)) = none ∧ files.get (.state (.record backup)) = none)

/-- The temporary file of the replacement is there without its binding. -/
def UnboundTemp (backup : BackupName) (files : Files) : Prop :=
  files.get (.pam (.pamReplace backup)) ≠ none ∧
    files.get (.state (.publication .pamReplace backup)) = none

namespace Planned

section

variable (h : Planned P service file original installed now prepared start)

include h

theorem serviceIntact {gap files} (hreach : h.addition.Reach start false gap files) :
    ServiceIntact service file original installed files := by
  obtain ⟨_, base', own, -, -, hstage, hshape⟩ := hreach
  have hname : Slot.service.name h.addition.op = .pam (.service service) :=
    congrArg (fun service => Name.pam (.service service)) h.isPlan.isService
  rcases hstage.service with hservice | ⟨n, hn, hservice⟩
  · exact ⟨_, hshape.get_file .service hname hservice, h.links, rfl, rfl, rfl, .inl h.content⟩
  · exact ⟨n, hshape.get_file .service hname hservice, hn.links, hn.mode, hn.uid, hn.gid,
      .inr hn.content⟩

theorem pairSettled {litter files} (hdiffers : installed ≠ original)
    (houtcome : h.addition.Outcome litter false files) :
    PairSettled P service prepared.backup original installed files := by
  intro current hcurrent
  have hname : Slot.service.name h.addition.op = .pam (.service service) :=
    congrArg (fun service => Name.pam (.service service)) h.isPlan.isService
  cases houtcome with
  | restored hp hshape =>
    have hfile := hshape.get_file .service hname rfl
    obtain rfl : file = current := Entry.regular.inj (Option.some.inj (hfile.symm.trans hcurrent))
    refine ⟨?_, ?_⟩
    · intro hcontent
      exact absurd (Content.bytes.inj (hcontent.symm.trans h.content)) hdiffers
    · intro _
      exact ⟨hshape.get_none .backup rfl rfl, hshape.get_none .record rfl rfl⟩
  | committed hb hn hx hfits hshape =>
    have hfile := hshape.get_file .service hname rfl
    obtain rfl := Entry.regular.inj (Option.some.inj (hfile.symm.trans hcurrent))
    refine ⟨?_, ?_⟩
    · intro _
      exact ⟨_, Addition.recordPairAt_committedPair hshape hb hx rfl rfl, rfl⟩
    · intro hcontent
      exact absurd (Content.bytes.inj (hn.content.symm.trans hcontent)) hdiffers
  | undecided hgap => cases hgap

/-- The stage at which the addition was cut, as a stage of recoveries. -/
theorem reach_of_closed {n} (hclosed : ¬UnboundTemp prepared.backup
      (((addTransaction P prepared (file.identity P) original installed).run start).cut n)) :
    h.addition.Reach start false false
      (((addTransaction P prepared (file.identity P) original installed).run start).cut n) := by
  obtain ⟨litter, base', own, hlitter, hstaged, hstage, hshape⟩ := h.reach_cut n
  refine ⟨litter, base', own, hlitter, hstaged, hstage.reindex false false (by simp) (.inr ?_),
    hshape⟩
  by_contra hopen
  obtain ⟨htemp, hbinding⟩ := not_or.mp hopen
  refine absurd ⟨?_, hshape.get_none .replaceBinding rfl (not_not.mp hbinding)⟩ hclosed
  obtain ⟨n, hn⟩ := Option.ne_none_iff_exists'.mp htemp
  have hget := hshape.get_file .temp rfl hn
  intro hnone
  exact absurd (hnone.symm.trans hget) (by simp)

end

end Planned

/-! ## A first addition -/

/-- The plan of the first addition, in an empty state directory. -/
def firstPlan (P : Platform) (service : String) (original installed : Bytes) (now : Duration) :
    PreparedBackup :=
  let backup : BackupName :=
    { service, seconds := now.nanoseconds / 1000000000
      nanoseconds := now.nanoseconds % 1000000000 }
  { backup
    provenance :=
      { version := provenanceVersion
        sequence := 1
        state := .prepared
        service
        backup
        originalSha256 := P.sha256 (.bytes original)
        installedSha256 := P.sha256 (.bytes installed) }
    backupIdentity := none
    recordIdentity := none }

theorem settled_of_noState (h : ∀ name, start.get (.state name) = none) : Settled P start where
  intent name := validIntentAt_of_none (h name)
  publication name := validPublicationAt_of_none (h name)
  temp name := by
    cases name <;> simp [ownedTempAt, ownedContentAt_of_none (h _)]
  pair backup pair hpair := absurd (h _) (recordPairAt_some hpair).2.2.2

theorem planned_of_noState (hstate : ∀ name, start.get (.state name) = none)
    (hpam : ∀ backup, start.get (.pam (.pamReplace backup)) = none)
    (hservice : start.get (.pam (.service service)) = some (.regular file))
    (hlinks : file.links = 1) (hcontent : file.content = .bytes original)
    (hconfined : confined service = true) :
    Planned P service file original installed now (firstPlan P service original installed now)
      start where
  settled := settled_of_noState hstate
  bound := hservice
  links := hlinks
  content := hcontent
  plan := by
    have hscan : scannedSequences P start = [] := by
      rw [scannedSequences, List.map_eq_nil_iff, List.eq_nil_iff_forall_not_mem]
      intro pair hpair
      exact (recordPairAt_some (mem_scannedRecordPairs.mp hpair)).2.2.2 (hstate _)
    have hsequence : nextSequence P start = .ok 1 := by
      rw [nextSequence, hscan]
      rfl
    simp [planAtUnlocked, hconfined, hsequence, maxTimestampCollisionProbes, probeBackupName,
      entryExistsAt, hstate, firstPlan]
  unused k hservice _ _ := by
    cases k <;> first | exact hstate _ | exact hpam _ | exact absurd rfl hservice

def sudoFile : File where
  device := 0
  inode := 1
  links := 1
  mode := 33188
  uid := 0
  gid := 0
  content := .bytes []
  regular := by decide

/-- The two directories with one service file and nothing else. -/
def sudoFiles : Files := (∅ : Files).set (.pam (.service "sudo")) (.regular sudoFile)

theorem planned_sudo : Planned referencePlatform "sudo" sudoFile [] Pam.pamLine epoch
    (firstPlan referencePlatform "sudo" [] Pam.pamLine epoch) sudoFiles := by
  refine planned_of_noState ?_ ?_ (Dir.get_set_self ..) rfl rfl (by decide)
  · intro name
    rw [sudoFiles, Dir.get_set_of_ne _ _ (by simp), Dir.get_empty]
  · intro backup
    rw [sudoFiles, Dir.get_set_of_ne _ _ (by simp), Dir.get_empty]

/-- An addition to `sudo`, cut after `n` steps. -/
noncomputable def sudoAddition (n : Nat) : FileSystem where
  files := ((addTransaction referencePlatform
    (firstPlan referencePlatform "sudo" [] Pam.pamLine epoch)
    (sudoFile.identity referencePlatform) [] Pam.pamLine).run sudoFiles).cut n
  batch := ∅

theorem noBatch_empty : NoBatch P ∅ := by
  have hnames : P.readBatch ∅ = [] := by
    rw [List.eq_nil_iff_forall_not_mem]
    intro name hname
    exact (P.mem_readBatch ∅ name).mp hname (Dir.get_empty name)
  simp only [NoBatch, loadRemoveAllState, hnames]
  rfl

/-- An addition that is cut short, and recoveries that are cut short, never
leave the service without one of its two contents.  A recovery that
succeeds has settled the backup pair, unless the addition was cut between
the creation of the temporary file and that of its binding. -/
theorem addition_crash_safe (hplan : Planned P service file original installed now prepared start)
    (hdiffers : installed ≠ original) (hbatch : NoBatch P batch) (n : Nat) {fs : FileSystem}
    (hafter : After (transaction P dirs)
      ⟨((addTransaction P prepared (file.identity P) original installed).run start).cut n, batch⟩
      fs) :
    ServiceIntact service file original installed fs.files ∧
      (((transaction P dirs).run fs).result = .ok () →
        ¬UnboundTemp prepared.backup
          (((addTransaction P prepared (file.identity P) original installed).run start).cut n) →
        PairSettled P service prepared.backup original installed
          ((transaction P dirs).run fs).final.files) := by
  -- One invariant serves both parts; the second index says whether the
  -- addition was cut between the temporary file and its binding.
  have hkeeps : ∀ gap, hplan.addition.Reach start false gap
      (((addTransaction P prepared (file.identity P) original installed).run start).cut n) →
      fs.batch = batch ∧ hplan.addition.Reach start false gap fs.files := by
    intro gap hstart
    have hstep : ∀ state : FileSystem,
        state.batch = batch ∧ hplan.addition.Reach start false gap state.files →
        ((transaction P dirs).run state).Meets
          (fun fs => fs.batch = batch ∧ hplan.addition.Reach start false gap fs.files)
          fun _ fs => fs.batch = batch ∧ hplan.addition.Reach start false gap fs.files := by
      intro state hstate
      have hrun := Addition.meets_transaction_of_reach dirs hplan.settled
        hplan.unallocated hdiffers hbatch hstate
      exact hrun.mono (fun _ hs => hs) fun _ _ hpost => hpost.1
    exact hafter.keeps hstep ⟨rfl, hstart⟩
  refine ⟨?_, ?_⟩
  · obtain ⟨litter, base', own, hlitter, hstaged, hstage, hshape⟩ := hplan.reach_cut n
    exact hplan.serviceIntact
      (hkeeps true ⟨litter, base', own, hlitter, hstaged, hstage.weaken, hshape⟩).2
  · intro hok hclosed
    have hstate := hkeeps false (hplan.reach_of_closed hclosed)
    have hrun := Addition.meets_transaction_of_reach dirs hplan.settled
      hplan.unallocated hdiffers hbatch hstate
    obtain ⟨litter, houtcome⟩ := hrun.post_final.2 hok
    exact hplan.pairSettled hdiffers houtcome

theorem addition_crash_safe_sudo : ServiceIntact "sudo" sudoFile [] Pam.pamLine
      (((transaction referencePlatform ⟨[]⟩).run (sudoAddition 12)).cut 3).files :=
  (addition_crash_safe planned_sudo (by decide) noBatch_empty 12 (.cut .refl 3)).1

/-! ## Whether a recovery succeeds -/

/-- The crash points from which recovery succeeds: an exchange file of the
commit has its binding, and a replacement above the size limit has not been
created. -/
def Recoverable (installed : Bytes) (backup : BackupName) (files : Files) : Prop :=
  (files.get (.state (.commitExchange backup)) ≠ none →
    files.get (.state (.publication .commit backup)) ≠ none) ∧
  (installed.length ≤ maxBackupBytes ∨
    files.get (.pam (.pamReplace backup)) = none ∧
      files.get (.state (.publication .pamReplace backup)) = none)

theorem Addition.recoverable_iff {A : Addition P} {base files own}
    (h : Shape base A.op own files) : Recoverable A.installed A.op files ↔ A.Recovers own := by
  have hslot : ∀ k : Slot, files.get (k.name A.op) = none ↔ own.get k = none := by
    intro k
    rw [h.slots, Option.map_eq_none_iff]
  have hexchange := hslot .exchange
  have hcommit := hslot .commitBinding
  have htemp := hslot .temp
  have hreplace := hslot .replaceBinding
  simp only [Slot.name, OpFiles.get] at hexchange hcommit htemp hreplace
  simp [Recoverable, Addition.Recovers, ne_eq, hexchange, hcommit, htemp, hreplace]

theorem Planned.meets_transaction_cut (dirs : PamDirs)
    (hplan : Planned P service file original installed now prepared start)
    (hbatch : NoBatch P batch) {files : Files}
    (hreach : hplan.addition.Reach start true true files) :
    ((transaction P dirs).run ⟨files, batch⟩).Meets (fun _ => True) fun result _ =>
      result = .ok () ↔ Recoverable installed prepared.backup files := by
  obtain ⟨litter, base', own, hlitter, hstaged, hstage, hshape⟩ := hreach
  have hcovers : hplan.addition.Covers start false true fun _ => True := fun _ _ => trivial
  have hiff : Recoverable installed prepared.backup files ↔ hplan.addition.Recovers own :=
    Addition.recoverable_iff (A := hplan.addition) hshape
  rw [meets_transaction hbatch, hiff]
  refine Addition.meets_recoverUnlocked hcovers hplan.settled hplan.unallocated (.inl rfl) hstage
    hlitter hstaged hshape ?_ ?_
  · intro hrecovers _ final _ _
    exact ⟨fun _ => hrecovers rfl, fun _ => rfl⟩
  · intro hrecovers e final _
    exact ⟨nofun, fun h => absurd h (hrecovers rfl)⟩

/-- The recovery after an addition that was cut short succeeds exactly from
the recoverable crash points. -/
theorem transaction_ok_iff (hplan : Planned P service file original installed now prepared start)
    (hbatch : NoBatch P batch) (n : Nat) :
    ((transaction P dirs).run
        ⟨((addTransaction P prepared (file.identity P) original installed).run start).cut n,
          batch⟩).result = .ok () ↔
      Recoverable installed prepared.backup
        (((addTransaction P prepared (file.identity P) original installed).run start).cut n) := by
  exact (hplan.meets_transaction_cut dirs hbatch (hplan.reach_cut n)).post_final

theorem transaction_ok_iff_sudo :
    ((transaction referencePlatform ⟨[]⟩).run (sudoAddition 12)).result = .ok () ↔
      Recoverable Pam.pamLine ⟨"sudo", 0, 0⟩ (sudoAddition 12).files :=
  transaction_ok_iff planned_sudo noBatch_empty 12

/-- An addition that is cut between the exchange file of its commit and the
binding of that file leaves the next recovery to fail. -/
theorem transaction_fails_after_exchange :
    ∃ n, (sudoAddition n).files.get (.state (.commitExchange ⟨"sudo", 0, 0⟩)) ≠ none ∧
      (sudoAddition n).files.get (.state (.publication .commit ⟨"sudo", 0, 0⟩)) = none ∧
      ((transaction referencePlatform ⟨[]⟩).run (sudoAddition n)).result ≠ .ok () := by
  obtain ⟨n, hexchange, hbinding⟩ := Addition.passes_exchangeReady (A := planned_sudo.addition)
    planned_sudo.sequenceInUse_eq_false (by decide) (by decide) planned_sudo.shape
  refine ⟨n, hexchange, hbinding, ?_⟩
  intro hok
  have hresult := (planned_sudo.meets_transaction_cut ⟨[]⟩ noBatch_empty
    (planned_sudo.reach_cut n)).post_final
  exact (hresult.mp hok).1 hexchange hbinding

end Facelock.Store
