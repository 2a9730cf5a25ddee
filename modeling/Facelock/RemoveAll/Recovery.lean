import Facelock.Store.Recovery

/-!
# Recovery of the machine-wide removal

`facelock pam remove --all` changes many service files under one journal.
Until its commit marker exists, recovery takes every file back to the
original (`rollback_remove_all`); once the marker exists, recovery goes
forward (`finish_committed_remove_all`).  This module models both
directions and `BackupStore::transaction`, which runs them before the
recovery of single operations.

The journal and the marker are kept apart from the other files, so a
program on `Files` cannot touch them.
-/

namespace Facelock.Store

open Facelock.Crash
open Facelock.Pam (Bytes)

/-- The two directories, with the reserved names of the machine-wide
removal in a map of their own. -/
structure FileSystem where
  files : Files
  batch : Batch

abbrev Machine := Prog FileSystem IoError

def onFiles {α : Type} (action : Action α) : Machine α :=
  action.zoom FileSystem.files fun fs files => { fs with files }

variable (P : Platform) (dirs : PamDirs)

/-! ## The journal and the marker -/

def maxRemoveAllTargets : Nat := 1024

def removeAllVersion : Nat := 2

def removeAllLegacyVersion : Nat := 1

def validRemoveAllOperation (operation : Operation) : Bool :=
  operation.seconds < 2 ^ 64 && operation.nanoseconds < 1000000000

variable (target : RemoveAllJournalTarget)

def validRemoveAllTarget : Bool :=
  confined target.service && validBackupName target.service target.backup &&
    target.original.links = 1 && isRegularMode target.original.mode

/-- The version decides whether the targets say what to delete. -/
def versionMatches (version : Nat) (deleteOverrides : List (Option Bool)) : Bool :=
  (version = removeAllVersion && deleteOverrides.all Option.isSome) ||
    (version = removeAllLegacyVersion && deleteOverrides.all Option.isNone)

def validRemoveAllJournal (journal : RemoveAllJournal) : Bool :=
  versionMatches journal.version (journal.targets.map (·.deleteOverride)) &&
    validRemoveAllOperation journal.operation && !journal.targets.isEmpty &&
    journal.targets.length ≤ maxRemoveAllTargets && journal.targets.all validRemoveAllTarget &&
    (journal.targets.map (·.service)).Nodup

def validRemoveAllCommit (commit : RemoveAllCommit) : Bool :=
  versionMatches commit.version (commit.targets.map (·.deleteOverride)) &&
    validRemoveAllOperation commit.operation && !commit.targets.isEmpty &&
    commit.targets.length ≤ maxRemoveAllTargets &&
    (commit.targets.all fun target =>
      confined target.service && validBackupName target.service target.backup &&
        target.installed.links = 1 && isRegularMode target.installed.mode) &&
    (commit.targets.map (·.service)).Nodup

structure LoadedRemoveAll (α : Type) where
  name : BatchName
  value : α
  identity : FileIdentity

/-- What the loop of `load_remove_all_state` has found so far. -/
structure LoadedState where
  journal : Option (LoadedRemoveAll RemoveAllJournal)
  commit : Option (LoadedRemoveAll RemoveAllCommit)

def openBatchAt (name : BatchName) (batch : Batch) : Except IoError File :=
  match batch.get name with
  | none => .error .notFound
  | some .irregular => .error ⟨.invalidData, "PAM service is not a regular file"⟩
  | some (.regular file) =>
    if file.links = 1 then .ok file
    else .error ⟨.invalidData, "PAM service has " ++ toString file.links ++ " hard links"⟩

def BatchName.operation : BatchName → Operation
  | .journal operation => operation
  | .commit operation => operation

/-- One round of `load_remove_all_state`. -/
def loadEntry (batch : Batch) (loaded : LoadedState) (name : BatchName) :
    Except IoError LoadedState :=
  if validRemoveAllOperation name.operation then
    match openBatchAt name batch with
    | .error e => .error (.other ("reserved remove-all state is invalid: " ++ e.message))
    | .ok file =>
      let identity := file.identity P
      if stateIdentityMatches P identity identity.sha256 then
        match name, file.content with
        | .commit operation, .commit value =>
          if operation = value.operation ∧ validRemoveAllCommit value then
            if loaded.commit.isSome then
              .error (.other "multiple remove-all commits require manual review")
            else .ok { loaded with commit := some { name, value, identity } }
          else .error (.other "remove-all commit is invalid")
        | .journal operation, .journal value =>
          if operation = value.operation ∧ validRemoveAllJournal value then
            if loaded.journal.isSome then
              .error (.other "multiple remove-all journals require manual review")
            else .ok { loaded with journal := some { name, value, identity } }
          else .error (.other "remove-all journal is invalid")
        | .commit _, _ => .error (.other "remove-all commit is corrupt")
        | .journal _, _ => .error (.other "remove-all journal is corrupt")
      else .error (.other "reserved remove-all state owner or mode is invalid")
  else .ok loaded

/-- Whether a marker and a journal describe one transaction. -/
def corresponding (journal : LoadedRemoveAll RemoveAllJournal)
    (commit : LoadedRemoveAll RemoveAllCommit) : Bool :=
  commit.value.operation = journal.value.operation &&
    commit.value.keepBackup = journal.value.keepBackup &&
    commit.value.journalSha256 = P.sha256 (.journal journal.value) &&
    commit.value.targets.length = journal.value.targets.length &&
    (commit.value.targets.zip journal.value.targets).all fun (committed, planned) =>
      committed.service = planned.service && committed.backup = planned.backup &&
        committed.installed.sha256 = planned.installedSha256 &&
        committed.deleteOverride = planned.deleteOverride

def loadRemoveAllState (batch : Batch) : Except IoError LoadedState :=
  match (P.readBatch batch).foldlM (loadEntry P batch) { journal := none, commit := none } with
  | .error e => .error e
  | .ok loaded =>
    match loaded.journal, loaded.commit with
    | some journal, some commit =>
      if corresponding P journal commit then .ok loaded
      else .error (.other "remove-all journal and commit do not describe one transaction")
    | _, _ => .ok loaded

def unlinkRemoveAllState (name : BatchName) (expected : FileIdentity) : Machine Unit :=
  Prog.act fun fs =>
    match openBatchAt name fs.batch with
    | .error e => .error e
    | .ok file =>
      if identityMatches expected (file.identity P) then
        .ok { fs with batch := fs.batch.remove name }
      else .error (.other "state entry changed before owned cleanup")

/-! ## Rolling back -/

variable (files : Files)

def exactBatchPublication : Except IoError (Option (ValidIntent × ValidPublication)) :=
  let intentName := StateName.intent .pamReplace target.backup
  let publicationName := StateName.publication .pamReplace target.backup
  let intent := (validatedIntents P files).find? fun valid =>
    valid.name = intentName && valid.intent.service = target.service &&
      valid.intent.originalSha256 = target.original.sha256 &&
      valid.intent.installedSha256 = target.installedSha256
  let publication := (validatedPublications P files).find? fun valid =>
    valid.name = publicationName && valid.binding.service = target.service &&
      valid.binding.sha256 = target.installedSha256
  let incomplete : IoError := .other "remove-all publication evidence is incomplete or invalid"
  match intent, publication with
  | some intent, some publication =>
    if publicationMatchesIntent publication.binding intent then .ok (some (intent, publication))
    else .error incomplete
  | none, none =>
    if !entryExistsAt (.state intentName) files && !entryExistsAt (.state publicationName) files
    then .ok none
    else .error incomplete
  | _, _ => .error incomplete

def preparedForRemoveAllTarget : Except IoError PreparedBackup :=
  match (validatedRecords P target.service files).find? fun prepared =>
      prepared.backup = target.backup && prepared.provenance.state = .prepared &&
        prepared.provenance.originalSha256 = target.original.sha256 &&
        prepared.provenance.installedSha256 = target.installedSha256 with
  | some prepared => .ok prepared
  | none => .error (.other "remove-all rollback pair is missing or invalid")

/-- The intent of a replacement of this batch that has not begun. -/
def unstartedIntent : Option ValidIntent :=
  (validatedIntents P files).find? fun valid =>
    valid.name = .intent .pamReplace target.backup && valid.intent.role = .pamReplace &&
      valid.intent.service = target.service && valid.intent.backup = target.backup &&
      valid.intent.originalSha256 = target.original.sha256 &&
      valid.intent.installedSha256 = target.installedSha256 &&
      exactOriginalIntentIdentity valid.intent target.original

def recoverUnstartedRemoveAllPublication (current : FileIdentity) : Action Bool := do
  let published ← Prog.read fun files =>
    .ok (entryExistsAt (.state (.publication .pamReplace target.backup)) files)
  if published then pure false
  else
    match ← Prog.read fun files => .ok (unstartedIntent P target files) with
    | none => pure false
    | some valid => do
      let prepared ← Prog.read (preparedForRemoveAllTarget P target)
      match prepared.recordIdentity with
      | none => Prog.fail (.other "remove-all record identity is missing")
      | some record =>
        if valid.intent.sequence ≠ prepared.provenance.sequence ∨
            valid.intent.recordSha256 ≠ some record.sha256 then pure false
        else if !identityMatches target.original current then pure false
        else do
          let temp ← Prog.read fun files =>
            .ok (entryExistsAt (.pam (.pamReplace target.backup)) files)
          if temp then pure false
          else do
            unlinkStateIfIdentityMatches P valid.name valid.identity
            pure true

def removeAllPairStateIsAbsent : Bool :=
  [StateName.backup target.backup, .record target.backup, .quarantineBackup target.backup,
      .quarantineRecord target.backup, .intent .cleanup target.backup].all
    fun name => !entryExistsAt (.state name) files

def cleanupRemoveAllPair : Action Unit := do
  let cleanupName := StateName.intent .cleanup target.backup
  let cleanupIntent ← Prog.read fun files => .ok ((validatedIntents P files).find? fun valid =>
    valid.name = cleanupName && valid.intent.role = .cleanup &&
      valid.intent.service = target.service && valid.intent.backup = target.backup &&
      valid.intent.originalSha256 = target.original.sha256 &&
      valid.intent.installedSha256 = target.installedSha256)
  match cleanupIntent with
  | some valid => do
    recoverCleanupIntent P valid
    let absent ← Prog.read fun files => .ok (removeAllPairStateIsAbsent target files)
    if absent then pure ()
    else Prog.fail (.other "remove-all rollback pair cleanup remains incomplete or ambiguous")
  | none => do
    let invalid ← Prog.read fun files => .ok (entryExistsAt (.state cleanupName) files)
    if invalid then
      Prog.fail (.other "remove-all rollback pair has invalid cleanup evidence")
    else do
      let conflicting ← Prog.read fun files =>
        .ok (entryExistsAt (.state (.quarantineBackup target.backup)) files ||
          entryExistsAt (.state (.quarantineRecord target.backup)) files)
      if conflicting then
        Prog.fail (.other "remove-all rollback pair has conflicting quarantine state")
      else
        match ← (Prog.read (preparedForRemoveAllTarget P target)).attempt with
        | .ok prepared => cleanupOneAt P prepared
        | .error _ => do
          let absent ← Prog.read fun files => .ok (removeAllPairStateIsAbsent target files)
          if absent then pure ()
          else
            Prog.fail (.other "remove-all rollback pair is partial, substituted, or conflicting")

/-- The identity of a service file; a missing one is an error. -/
def requireService (service : String) (files : Files) : Except IoError FileIdentity :=
  match openIdentityAt P (.pam (.service service)) maxBackupBytes files with
  | .error e => .error e
  | .ok none => .error (.other "rolled-back PAM service is missing")
  | .ok (some identity) => .ok identity

def finishRolledBackRemoveAllPublication (publication : ValidPublication) : Action Unit := do
  let tempName := Name.pam (.pamReplace target.backup)
  let current ← Prog.read (requireService P target.service)
  if !identityMatches target.original current then
    Prog.fail (.other "rolled-back PAM service no longer matches its original identity")
  else do
    match ← Prog.read (openIdentityAt P tempName maxBackupBytes) with
    | some temp =>
      if !bindingIdentityMatches publication.binding temp then
        Prog.fail (.other "rolled-back PAM replacement temp is ambiguous")
      else
        unlinkAtIfIdentityMatches P tempName temp maxBackupBytes
    | none => pure ()
    unlinkStateIfIdentityMatches P publication.name publication.identity
    let current ← Prog.read (requireService P target.service)
    let recovered ← recoverUnstartedRemoveAllPublication P target current
    if recovered then pure ()
    else Prog.fail (.other "rolled-back PAM intent is not exact unstarted evidence")

/-- The part of a rollback round that has found a publication: the
exchange is undone, and the evidence removed.  A message is what the
round reports as ambiguous. -/
def rollbackPublication (current : FileIdentity)
    (publication : ValidPublication) : Action (Option String) := do
  let installed := publication.binding.identity
  let tempName := Name.pam (.pamReplace target.backup)
  match ← (Prog.read (openIdentityAt P tempName maxBackupBytes)).attempt with
  | .error e => pure (some (target.service ++ ": " ++ e.message))
  | .ok temp =>
    if identityMatches installed current && temp = some target.original then
      match ← (renameExchangeAt tempName (.pam (.service target.service))).attempt with
      | .error e => pure (some (target.service ++ " rollback failed: " ++ e.message))
      | .ok _ => do
        finishRolledBackRemoveAllPublication P target publication
        pure none
    else if !identityMatches target.original current ||
        (match temp with
          | some temp => !identityMatches installed temp
          | none => false) then
      pure (some (target.service ++ " changed before rollback"))
    else do
      finishRolledBackRemoveAllPublication P target publication
      pure none

/-- One round of `rollback_remove_all_with_hook`. -/
def rollbackTarget : Action (Option String) := do
  match ← (Prog.read (readRegularNofollow P target.service)).attempt with
  | .error e => pure (some (target.service ++ ": " ++ e.message))
  | .ok (_, current) =>
    match ← (recoverUnstartedRemoveAllPublication P target current).attempt with
    | .ok true => pure none
    | .error e => pure (some (target.service ++ ": " ++ e.message))
    | .ok false =>
      match ← (Prog.read (exactBatchPublication P target)).attempt with
      | .ok (some (_, publication)) => rollbackPublication P target current publication
      | .ok none =>
        if identityMatches target.original current then pure none
        else pure (some (target.service ++ " changed after preflight"))
      | .error e => pure (some (target.service ++ ": " ++ e.message))

/-- The loop of `rollback_remove_all_with_hook`, with the ambiguous targets
it has met. -/
def rollbackTargets : List RemoveAllJournalTarget → Action (List String)
  | [] => pure []
  | target :: targets => do
    let message ← rollbackTarget P target
    let messages ← rollbackTargets targets
    pure (message.toList ++ messages)

def rollbackFiles (journal : RemoveAllJournal) : Action Unit := do
  let ambiguous ← rollbackTargets P journal.targets.reverse
  if !ambiguous.isEmpty then
    Prog.fail (.other
      ("remove-all rollback retained evidence: " ++ "; ".intercalate ambiguous))
  else
    journal.targets.forM (cleanupRemoveAllPair P)

def rollbackRemoveAll (journal : LoadedRemoveAll RemoveAllJournal) : Machine Unit := do
  onFiles (rollbackFiles P journal.value)
  unlinkRemoveAllState P journal.name journal.identity

/-! ## Going forward -/

def backupSuffix : String := ".facelock-backup"

def removeLegacyBackup (service : String) : Action Unit := do
  if !confined service then Prog.fail ⟨.invalidInput, "invalid service"⟩
  else do
    let name := Name.pam (.service (service ++ backupSuffix))
    match ← (Prog.read (openRegularAt name)).attempt with
    | .error e => if e.kind = .notFound then pure () else Prog.fail e
    | .ok initial => do
      let current ← Prog.read (openRegularAt name)
      if !identityMatches (initial.identity P) (current.identity P) then
        Prog.fail (.other "legacy PAM backup changed before cleanup")
      else unlink name

/-- The first loop of `finish_committed_remove_all_with_hook`. -/
def checkCommittedTarget (target : RemoveAllCommittedTarget) (files : Files) :
    Except IoError Unit :=
  let changed : IoError := .other (target.service ++ " changed before remove-all cleanup")
  match readRegularNofollow P target.service files with
  | .ok (_, current) =>
    if identityMatches target.installed current then .ok () else .error changed
  | .error e =>
    if target.deleteOverride.getD false && e.kind = .notFound then .ok () else .error changed

/-- The second loop: no evidence of the batch's publications is left. -/
def checkFinalized (target : RemoveAllCommittedTarget) (files : Files) : Except IoError Unit :=
  if entryExistsAt (.state (.intent .pamReplace target.backup)) files ||
      entryExistsAt (.state (.publication .pamReplace target.backup)) files then
    .error (.other "remove-all publication evidence could not be finalized")
  else .ok ()

def journalVendorServiceMatches : Except IoError Bool := do
  let prepared ← preparedForRemoveAllTarget P target files
  let backup ← openRegularAt (.state (.backup prepared.backup)) files
  let original ← readOpenBounded backup maxBackupBytes
  match prepared.backupIdentity with
  | none => .error (.other "journaled backup identity is missing")
  | some expectedBackup =>
    if !identityMatches expectedBackup (backup.identity P) then
      .error (.other "journaled backup changed before vendor validation")
    else
      match ← resolveCurrentVendor P dirs target.service with
      | none => .ok false
      | some vendor =>
        .ok (exactVendorOverrideShape original.rawBytes target.original vendor &&
          P.sha256 (.bytes (Pam.withLineRemoved original.rawBytes)) = target.installedSha256)

/-- One round of the loop over the overrides to delete. -/
def retireCommittedTarget (journal : Option RemoveAllJournal)
    (target : RemoveAllCommittedTarget) : Action Unit := do
  if !target.deleteOverride.getD false then pure ()
  else
    match journal with
    | none => do
      let retained ← Prog.read fun files =>
        .ok (entryExistsAt (.pam (.service target.service)) files ||
          entryExistsAt (.pam (.vendorRetire target.backup)) files)
      if !retained then pure ()
      else
        Prog.fail
          (.other (target.service ++ " retains vendor-retirement state without its journal"))
    | some journal =>
      match journal.targets.find? fun planned => planned.service = target.service with
      | none => Prog.fail (.other (target.service ++ " has no journaled vendor source"))
      | some planned => do
        let matching ← Prog.read (journalVendorServiceMatches P dirs planned)
        if !matching then
          Prog.fail
            (.other (target.service ++ " no longer matches its journaled vendor service"))
        else
          retireVendorOverride P dirs target.service target.backup target.installed

/-- One round of the loop over the backup pairs. -/
def settleCommittedTarget (keepBackup : Bool) (target : RemoveAllCommittedTarget) :
    Action Unit := do
  let records ← Prog.read fun files => .ok (validatedRecords P target.service files)
  if keepBackup then
    match records.find? fun record => record.backup = target.backup with
    | none => Prog.fail (.other "remove-all rollback pair disappeared before commit")
    | some prepared =>
      if prepared.provenance.state = .prepared then commitUnlocked P prepared else pure ()
  else do
    records.forM (cleanupOneAt P)
    removeLegacyBackup P target.service

/-- `finish_committed_remove_all_with_hook` up to the unlinking of the
journal. -/
def finishFiles (journal : Option RemoveAllJournal) (commit : RemoveAllCommit) : Action Unit := do
  commit.targets.forM fun target => Prog.read (checkCommittedTarget P target)
  recoverPublications P dirs
  recoverIntents P
  commit.targets.forM fun target => Prog.read (checkFinalized target)
  commit.targets.forM (retireCommittedTarget P dirs journal)
  commit.targets.forM (settleCommittedTarget P commit.keepBackup)

def finishCommittedRemoveAll (journal : Option (LoadedRemoveAll RemoveAllJournal))
    (commit : LoadedRemoveAll RemoveAllCommit) : Machine Unit := do
  onFiles (finishFiles P dirs (journal.map (·.value)) commit.value)
  match journal with
  | some journal => unlinkRemoveAllState P journal.name journal.identity
  | none => pure ()
  unlinkRemoveAllState P commit.name commit.identity

/-! ## Recovery -/

def recoverRemoveAllLocked : Machine Unit := do
  let loaded ← Prog.read fun fs => loadRemoveAllState P fs.batch
  match loaded.commit, loaded.journal with
  | some commit, journal => finishCommittedRemoveAll P dirs journal commit
  | none, some journal => rollbackRemoveAll P journal
  | none, none => pure ()

def transaction : Machine Unit := do
  recoverRemoveAllLocked P dirs
  onFiles (recoverUnlocked P dirs)

end Facelock.Store
