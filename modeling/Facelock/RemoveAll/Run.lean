import Facelock.Add.Run
import Facelock.RemoveAll.Recovery

/-!
# The PAM commands

`facelock pam add` and `facelock pam remove` for named services, and
`facelock pam remove --all`, from their recovery to their last cleanup.

A named command (`apply_all`) recovers single operations once, and then
takes its services in turn; each of them opens a transaction of its own.
What it writes for a service was planned before the first lock, so the
planned content and identity are arguments here.

The machine-wide removal (`remove_all_in_with_report_hook`) does
everything inside one transaction: it backs every service up, writes a
journal, exchanges the service files one by one and holds each
publication back, writes the commit marker, and finishes.

Which services the removal finds depends on links and directories below
the PAM directories, which `Entry.irregular` does not tell apart.  The
scan only reads, so what it finds is an argument as well.
-/

namespace Facelock.Store

open Facelock.Crash
open Facelock.Pam (Bytes ascii withLineInserted withLineRemoved hasFacelockRule)

variable (P : Platform) (dirs : PamDirs)

/-! ## Named services -/

/-- `CARGO_PKG_VERSION`. -/
def packageVersion : Bytes := ascii "0.3.0"

/-- `provenance_header`: the two lines above a copy of a vendor file. -/
def provenanceHeader (vendor date : Bytes) : Bytes :=
  ascii "# Copied from " ++ vendor ++ ascii " by facelock " ++ packageVersion ++ ascii " on " ++
    date ++ ascii ".\n" ++ vendorOverrideHeaderSuffix

/-- The path of a vendor file as the header of a copy names it. -/
def headerPath (vendor : Bytes) : Bytes :=
  (normalizedConfiguredPath vendor).getD vendor

/-- What `apply_add` writes for `Plan::Override`. -/
def overrideContent (vendor content date : Bytes) : Bytes :=
  provenanceHeader (headerPath vendor) date ++ withLineInserted content

/-- What a named command has planned for one service. -/
inductive NamedWrite where
  /-- There is nothing to write. -/
  | unchanged (service : String)
  /-- `add` to a local file.  The flag is the operator's answer. -/
  | addRewrite (service : String) (content : Bytes) (expected : FileIdentity) (proceed : Bool)
  /-- `add` to a service that only a vendor directory has. -/
  | addOverride (service : String) (root : VendorRoot) (content : Bytes)
      (expected : FileIdentity) (proceed : Bool)
  /-- `remove` from a local file. -/
  | removeRewrite (service : String) (content : Bytes) (expected : FileIdentity)
  /-- `remove` of an unchanged copy of a vendor file. -/
  | removeOverride (service : String) (content : Bytes) (expected : FileIdentity)

def NamedWrite.service : NamedWrite → String
  | .unchanged service => service
  | .addRewrite service _ _ _ => service
  | .addOverride service _ _ _ _ => service
  | .removeRewrite service _ _ => service
  | .removeOverride service _ _ => service

variable (service : String)

section

variable (content : Bytes) (expected : FileIdentity) (journal : LoadedRemoveAll RemoveAllJournal)

/-- `apply_add` for `Plan::Rewrite`, inside its transaction. -/
def addLine (proceed : Bool) : Action Unit := do
  let written := withLineInserted content
  let prepared ← Prog.read fun files =>
    planAtUnlocked P service content written (P.clock files) files
  if proceed then addTransaction P prepared expected content written else pure ()

/-- `apply_add` for `Plan::Override`, inside its transaction. -/
def addCopy (root : VendorRoot) (content : Bytes) (expected : FileIdentity)
    (proceed : Bool) : Action Unit := do
  let date ← Prog.read fun files => .ok (P.today files)
  let written := overrideContent (root.servicePath service) content date
  let mutation ← Prog.read fun files =>
    planMutation P service content written (P.clock files) files
  if proceed then createVendorWithIntent P mutation service root expected written else pure ()

/-- `apply_remove` for `Plan::Rewrite`, inside its transaction. -/
def removeLine : Action Unit := do
  let installed := withLineRemoved content
  let mutation ← Prog.read fun files =>
    planMutation P service content installed (P.clock files) files
  removePamWithIntent P mutation expected installed fun _ => pure ()

/-- `apply_remove` for `Plan::DeleteOverride`, inside its transaction. -/
def removeCopy : Action Unit := do
  let installed := withLineRemoved content
  let mutation ← Prog.read fun files =>
    planMutation P service content installed (P.clock files) files
  removePamWithIntent P mutation expected installed fun identity =>
    retireVendorOverride P dirs service mutation.operation identity

/-- `apply_add` and `apply_remove`. -/
def NamedWrite.apply : NamedWrite → Machine Unit
  | .unchanged _ => pure ()
  | .addRewrite service content expected proceed => do
    transaction P dirs
    onFiles (addLine P service content expected proceed)
  | .addOverride service root content expected proceed => do
    transaction P dirs
    onFiles (addCopy P service root content expected proceed)
  | .removeRewrite service content expected => do
    transaction P dirs
    onFiles (removeLine P service content expected)
  | .removeOverride service content expected => do
    transaction P dirs
    onFiles (removeCopy P dirs service content expected)

def cleanupBackups : Action Unit := do
  let records ← Prog.read fun files => .ok ((validatedRecords P service files).filter fun record =>
    record.provenance.state = .committed)
  records.forM (cleanupOneAt P)
  removeLegacyBackup P service

/-- One round of `apply_all`.  A failure is reported and ends the round. -/
def applyTarget (cleanup : Bool) (write : NamedWrite) : Machine Unit := do
  match ← (write.apply P dirs).attempt with
  | .error _ => pure ()
  | .ok _ =>
    if cleanup then do
      let _ ← (onFiles (cleanupBackups P write.service)).attempt
      pure ()
    else pure ()

/-- `apply_all`, without `--dry-run`.  `cleanup` is set for a removal that
does not keep its backups. -/
def applyAll (cleanup : Bool) (writes : List NamedWrite) : Machine Unit := do
  match ← (onFiles (recoverUnlocked P dirs)).attempt with
  | .error _ => pure ()
  | .ok _ => writes.forM (applyTarget P dirs cleanup)

/-! ## The plan of the machine-wide removal -/

/-- The two scans of the PAM directories. -/
structure RemoveAllScan where
  /-- `remove_all_services`, which sorts and removes duplicates. -/
  services : Files → Except IoError (List String)
  services_nodup : ∀ files names, services files = .ok names → names.Nodup
  /-- `remove_all_active_references`. -/
  activeReferences : Files → Except IoError (List String)

/-- What `plan_writes` gives for a local service: whether the file is an
unchanged copy of a vendor file, to be deleted as a whole, or is
rewritten.  Neither means that nothing is to be done. -/
def planRemoval (identity : FileIdentity) : Option Bool :=
  match resolveCurrentVendor P dirs service with
  | .ok (some vendor) =>
    if exactVendorOverrideShape content identity vendor then some true
    else if hasFacelockRule content then some false
    else none
  | _ => if hasFacelockRule content then some false else none

structure RemovalTarget where
  service : String
  content : Bytes
  identity : FileIdentity
  plan : Option Bool

/-- One round of `plan_writes`. -/
def planWrite (files : Files) (service : String) : Except IoError RemovalTarget :=
  match readRegularNofollow P service files with
  | .error e => .error e
  | .ok (content, identity) =>
    .ok
      { service
        content := content.rawBytes
        identity
        plan := planRemoval P dirs service content.rawBytes identity }

def planWrites (names : List String) (files : Files) : Except IoError (List RemovalTarget) :=
  names.mapM (planWrite P dirs files)

/-- A target with its backup pair. -/
structure PlannedRemoval where
  service : String
  installed : Bytes
  prepared : PreparedBackup
  expected : FileIdentity
  deleteOverride : Bool

def prepareRemoval (target : RemovalTarget) : Action PlannedRemoval := do
  match target.plan with
  | none =>
    Prog.fail (.other ("remove-all target " ++ target.service ++ " no longer needs a rewrite"))
  | some deleteOverride => do
    let installed := withLineRemoved target.content
    let prepared ← Prog.read fun files =>
      planAtUnlocked P target.service target.content installed (P.clock files) files
    persist P prepared target.content
    pure { service := target.service, installed, prepared, expected := target.identity,
           deleteOverride }

def prepareRemovals : List RemovalTarget → Action (List PlannedRemoval)
  | [] => pure []
  | target :: targets => do
    let planned ← prepareRemoval P target
    let others ← prepareRemovals targets
    pure (planned :: others)

def PlannedRemoval.journalTarget (planned : PlannedRemoval) : RemoveAllJournalTarget where
  service := planned.service
  backup := planned.prepared.backup
  original := planned.expected
  installedSha256 := P.sha256 (.bytes planned.installed)
  deleteOverride := some planned.deleteOverride

/-! ## The journal and the marker -/

/-- The temporary name that `atomic_state_publish` picks for a reserved
name. -/
def batchTempName (name : BatchName) (content : Content) (files : Files) : Name :=
  .state (.batchTemp name (P.sha256 content) (P.stamp files))

/-- `RENAME_NOREPLACE` of a temporary file to a reserved name. -/
def renameToBatch (temp : Name) (name : BatchName) : Machine Unit :=
  Prog.act fun fs =>
    match fs.files.get temp with
    | none => .error .notFound
    | some entry =>
      if (fs.batch.get name).isSome then .error .alreadyExists
      else .ok { files := fs.files.remove temp, batch := fs.batch.set name entry }

/-- The end of `atomic_state_publish` for a reserved name. -/
def publishBatch (temp : Name) (name : BatchName) (file : File) : Machine FileIdentity := do
  match ← (renameToBatch temp name).attempt with
  | .ok _ => pure (file.identity P)
  | .error e =>
    let _ ← (onFiles (unlinkAtIfIdentityMatches P temp (file.identity P) maxBackupBytes)).attempt
    Prog.fail e

/-- `atomic_state_create` of a reserved name. -/
def atomicBatchCreate (name : BatchName) (content : Content) : Machine FileIdentity := do
  let temp ← Prog.read fun fs => .ok (batchTempName P name content fs.files)
  let file ← Prog.read fun fs => .ok (newStateFile P content fs.files)
  onFiles (create temp file)
  publishBatch P temp name file

def operationAt (sinceEpoch : Nat) : Operation where
  seconds := sinceEpoch / 1000000000
  nanoseconds := sinceEpoch % 1000000000

/-- Whether an operation has a journal or a marker. -/
def operationInUse (operation : Operation) (batch : Batch) : Bool :=
  (batch.get (.journal operation)).isSome || (batch.get (.commit operation)).isSome

/-- The loop of `create_remove_all_journal`: step the clock on by a
nanosecond while the operation is taken. -/
def createJournalFrom (keepBackup : Bool) (targets : List RemoveAllJournalTarget) :
    Nat → Nat → Machine (LoadedRemoveAll RemoveAllJournal)
  | 0, _ =>
    Prog.fail ⟨.alreadyExists, "remove-all journal collision probe limit exhausted"⟩
  | probes + 1, sinceEpoch => do
    let operation := operationAt sinceEpoch
    let next : Machine (LoadedRemoveAll RemoveAllJournal) :=
      if sinceEpoch + 1 < durationLimit then
        createJournalFrom keepBackup targets probes (sinceEpoch + 1)
      else Prog.fail ⟨.invalidData, "remove-all clock overflow"⟩
    let taken ← Prog.read fun fs => .ok (operationInUse operation fs.batch)
    if taken then next
    else
      let journal : RemoveAllJournal :=
        { version := removeAllVersion, operation, keepBackup, targets }
      match ← (atomicBatchCreate P (.journal operation) (.journal journal)).attempt with
      | .ok identity => pure { name := .journal operation, value := journal, identity }
      | .error e => if e.kind = .alreadyExists then next else Prog.fail e

def createRemoveAllJournal (keepBackup : Bool) (targets : List RemoveAllJournalTarget) :
    Machine (LoadedRemoveAll RemoveAllJournal) := do
  let now ← Prog.read fun fs => .ok (P.clock fs.files).nanoseconds
  createJournalFrom P keepBackup targets maxTimestampCollisionProbes now

def committedRemoveAllTargets (journal : RemoveAllJournal) (files : Files) :
    Except IoError (List RemoveAllCommittedTarget) :=
  journal.targets.mapM fun target =>
    match exactBatchPublication P target files with
    | .error e => .error e
    | .ok none =>
      .error (.other "remove-all publication binding disappeared before commit")
    | .ok (some (_, publication)) =>
      .ok
        { service := target.service
          backup := target.backup
          installed := publication.binding.identity
          deleteOverride := target.deleteOverride }

/-- The answer to an error once the journal exists: roll back, and report
both errors. -/
def rollbackAfter {α : Type} (e : IoError) : Machine α := do
  match ← (rollbackRemoveAll P journal).attempt with
  | .ok _ => Prog.fail (.other e.message)
  | .error rollback => Prog.fail (.other (e.message ++ "; " ++ rollback.message))

def commitRemoveAll : Machine (LoadedRemoveAll RemoveAllCommit) := do
  let targets ← Prog.read fun fs => committedRemoveAllTargets P journal.value fs.files
  let commit : RemoveAllCommit :=
    { version := removeAllVersion
      operation := journal.value.operation
      journalSha256 := P.sha256 (.journal journal.value)
      keepBackup := journal.value.keepBackup
      targets }
  let name := BatchName.commit journal.value.operation
  match ← (atomicBatchCreate P name (.commit commit)).attempt with
  | .ok identity => pure { name, value := commit, identity }
  | .error e => if isAmbiguousPublication e then Prog.fail e else rollbackAfter P journal e

end

/-! ## The run -/

/-- `HELD`: the error with which the hook after the exchange stops a
publication, so that its intent and binding stay. -/
def held : IoError := ⟨.interrupted, "remove-all publication retained for batch commit"⟩

/-- The loop over the planned targets. -/
def publishRemovals (journal : LoadedRemoveAll RemoveAllJournal) :
    List PlannedRemoval → Machine Unit
  | [] => pure ()
  | planned :: others => do
    match ← (onFiles (replacePamWithIntent P planned.prepared planned.expected planned.installed
        (.error held))).attempt with
    | .error e =>
      if e = held then publishRemovals journal others
      else if isAmbiguousPublication e then Prog.fail e
      else rollbackAfter P journal e
    | .ok _ =>
      Prog.fail
        (.other "remove-all publication finalized without retained recovery evidence")

variable (scan : RemoveAllScan)

/-- The scan after the last exchange. -/
def finalScan (files : Files) : Except IoError Unit :=
  match scan.activeReferences files with
  | .error e => .error e
  | .ok [] => .ok ()
  | .ok (_ :: _) => .error (.other "remove-all final scan still found active references")

def checkReferences (journal : LoadedRemoveAll RemoveAllJournal) : Machine Unit := do
  match ← (Prog.read fun fs : FileSystem => finalScan scan fs.files).attempt with
  | .ok _ => pure ()
  | .error e => rollbackAfter P journal e

/-- The run from the planned targets on. -/
def removePlanned (keepBackup : Bool) (planned : List PlannedRemoval) : Machine Unit := do
  let journal ← createRemoveAllJournal P keepBackup (planned.map (·.journalTarget P))
  publishRemovals P journal planned
  checkReferences P scan journal
  let commit ← commitRemoveAll P journal
  finishCommittedRemoveAll P dirs (some journal) commit

/-- `remove_all_in_with_report_hook`, without `--dry-run`. -/
def removeAll (keepBackup : Bool) : Machine Unit := do
  transaction P dirs
  let names ← Prog.read fun fs => scan.services fs.files
  if names.isEmpty then pure ()
  else if maxRemoveAllTargets < names.length then
    Prog.fail (.other "remove-all target limit exceeded")
  else do
    let targets ← Prog.read fun fs => planWrites P dirs names fs.files
    let planned ← onFiles (prepareRemovals P targets)
    removePlanned P dirs scan keepBackup planned

/-! ## Commands -/

inductive PamCommand where
  /-- `pam add` or `pam remove` of named services. -/
  | named (cleanup : Bool) (writes : List NamedWrite)
  /-- `pam remove --all`. -/
  | removeAll (scan : RemoveAllScan) (keepBackup : Bool)

def PamCommand.program : PamCommand → Machine Unit
  | .named cleanup writes => applyAll P dirs cleanup writes
  | .removeAll scan keepBackup => Store.removeAll P dirs scan keepBackup

end Facelock.Store
