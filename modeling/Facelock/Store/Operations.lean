import Facelock.Store.Files
import Mathlib.Data.List.Sort

/-!
# Backup pairs

The operations of `BackupStore` on backup pairs: `plan_at_unlocked`,
`persist_unlocked_with_hook`, `commit_unlocked` and `cleanup_one_at`,
with the scans of the state directory that they use.  A backup pair is
the copy of a service file and the provenance record that names it.

A function of the source that handles a failed call as a value is a
`match` on `attempt` here, and one that passes it on with `?` is a bind.
-/

namespace Facelock.Store

open Facelock.Crash
open Facelock.Pam (Bytes)

variable (P : Platform)

/-! ## Scans of the state directory -/

structure PreparedBackup where
  backup : BackupName
  provenance : ProvenanceRecord
  backupIdentity : Option FileIdentity
  recordIdentity : Option FileIdentity
  deriving DecidableEq, Repr

structure ValidIntent where
  name : StateName
  intent : StateIntent
  identity : FileIdentity

structure ValidPublication where
  name : StateName
  binding : PublicationBinding
  identity : FileIdentity

def validProvenanceRecord (name : StateName) (record : ProvenanceRecord) : Bool :=
  record.version = provenanceVersion && record.sequence ≠ 0 && confined record.service &&
    name = .record record.backup && validBackupName record.service record.backup

variable (intent : StateIntent)

/-- The original's identity is given in full, and it is a regular file
with one link. -/
def StateIntent.exactIdentity : Bool :=
  intent.originalDevice.isSome && intent.originalInode.isSome && intent.originalLinks = some 1 &&
    (match intent.originalMode with
      | some mode => isRegularMode mode
      | none => false) &&
    intent.originalUid.isSome && intent.originalGid.isSome

def StateIntent.noIdentity : Bool :=
  intent.originalDevice.isNone && intent.originalInode.isNone && intent.originalLinks.isNone &&
    intent.originalMode.isNone && intent.originalUid.isNone && intent.originalGid.isNone

/-- Only the metadata of the original is given. -/
def StateIntent.expectedMetadata : Bool :=
  intent.originalDevice.isNone && intent.originalInode.isNone && intent.originalLinks.isNone &&
    (match intent.originalMode with
      | some mode => isRegularMode mode
      | none => false) &&
    intent.originalUid.isSome && intent.originalGid.isSome

def StateIntent.roleFields : Bool :=
  match intent.role with
  | .prepare | .cleanup =>
    intent.recordSha256.isSome && intent.replacementRecordSha256.isNone && intent.noIdentity
  | .commit =>
    intent.recordSha256.isSome && intent.replacementRecordSha256.isSome && intent.noIdentity
  | .pamReplace =>
    intent.recordSha256.isSome && intent.replacementRecordSha256.isNone && intent.exactIdentity
  | .pamRemove =>
    intent.recordSha256.isNone && intent.replacementRecordSha256.isNone && intent.exactIdentity
  | .vendorCreate =>
    intent.recordSha256.isNone && intent.replacementRecordSha256.isNone && intent.expectedMetadata

def validStateIntent : Bool :=
  intent.version = provenanceVersion && intent.sequence ≠ 0 && confined intent.service &&
    validBackupName intent.service intent.backup && intent.roleFields

variable (binding : PublicationBinding)

def validPublicationBinding : Bool :=
  binding.version = provenanceVersion && binding.sequence ≠ 0 && confined binding.service &&
    validBackupName binding.service binding.backup && binding.links = 1 &&
    isRegularMode binding.mode

/-- The content of a state file that the scans accept: one link, the
store's mode and owner, and within the limit. -/
def ownedContentAt (name : StateName) (limit : Nat) (files : Files) : Option (File × Content) :=
  match openRegularAt (.state name) files with
  | .error _ => none
  | .ok file =>
    if ownedStateFile P file then
      match readOpenBounded file limit with
      | .ok content => some (file, content)
      | .error _ => none
    else none

variable (files : Files)

/-- One round of the loop of `scanned_record_pairs`. -/
def recordPairAt (name : StateName) : Option PreparedBackup :=
  if name.isJson then
    match ownedContentAt P name maxRecordBytes files with
    | some (file, .record provenance) =>
      if validProvenanceRecord name provenance then
        match ownedContentAt P (.backup provenance.backup) maxBackupBytes files with
        | some (backup, original) =>
          if P.sha256 original = provenance.originalSha256 then
            some
              { backup := provenance.backup
                provenance
                backupIdentity := some (backup.identity P)
                recordIdentity := some (file.identity P) }
          else none
        | none => none
      else none
    | _ => none
  else none

def scannedRecordPairs : List PreparedBackup :=
  (P.readDir files).filterMap (recordPairAt P files)

/-- The pairs of a service whose sequence number no other pair has, the
latest first. -/
def validatedRecords (service : String) (files : Files) : List PreparedBackup :=
  let records := scannedRecordPairs P files
  let unique := records.filter fun record =>
    record.provenance.service = service &&
      records.countP (fun other => other.provenance.sequence = record.provenance.sequence) = 1
  unique.insertionSort fun a b => b.provenance.sequence ≤ a.provenance.sequence

/-- One round of the loop of `validated_intents`. -/
def validIntentAt (name : StateName) : Option ValidIntent :=
  match name with
  | .intent _ _ =>
    match ownedContentAt P name maxRecordBytes files with
    | some (file, .intent intent) =>
      if name = .intent intent.role intent.backup ∧ validStateIntent intent then
        some { name, intent, identity := file.identity P }
      else none
    | _ => none
  | _ => none

def validatedIntents : List ValidIntent :=
  (P.readDir files).filterMap (validIntentAt P files)

/-- One round of the loop of `validated_publications`. -/
def validPublicationAt (name : StateName) : Option ValidPublication :=
  match name with
  | .publication _ _ =>
    match ownedContentAt P name maxRecordBytes files with
    | some (file, .binding binding) =>
      if name = .publication binding.role binding.backup ∧ validPublicationBinding binding then
        some { name, binding, identity := file.identity P }
      else none
    | _ => none
  | _ => none

def validatedPublications : List ValidPublication :=
  (P.readDir files).filterMap (validPublicationAt P files)

/-! ## Planning -/

def scannedSequences : List Nat :=
  (scannedRecordPairs P files).map fun record => record.provenance.sequence

def nextSequence : Except IoError Nat :=
  let next := (scannedSequences P files).foldl max 0 + 1
  if next < 2 ^ 64 then .ok next else .error ⟨.invalidData, "PAM backup sequence exhausted"⟩

def sequenceInUse (sequence : Nat) (files : Files) : Bool :=
  sequence = 0 || (scannedSequences P files).contains sequence

/-- The `find_map` of `plan_at_unlocked`: step the clock on by a nanosecond
while the name is taken. -/
def probeBackupName (service : String) (files : Files) : Nat → Nat → Option BackupName
  | 0, _ => none
  | probes + 1, sinceEpoch =>
    let candidate : BackupName :=
      { service
        seconds := sinceEpoch / 1000000000
        nanoseconds := sinceEpoch % 1000000000 }
    if entryExistsAt (.state (.backup candidate)) files ||
        entryExistsAt (.state (.record candidate)) files then
      probeBackupName service files probes
        (if sinceEpoch + 1 < durationLimit then sinceEpoch + 1 else sinceEpoch)
    else some candidate

def planAtUnlocked (service : String) (original installed : Bytes) (sinceEpoch : Duration)
    (files : Files) : Except IoError PreparedBackup :=
  if confined service then
    match nextSequence P files with
    | .error e => .error e
    | .ok sequence =>
      match probeBackupName service files maxTimestampCollisionProbes sinceEpoch.nanoseconds with
      | none =>
        .error ⟨.alreadyExists, "PAM backup timestamp collision probe limit exhausted"⟩
      | some backup =>
        .ok
          { backup
            provenance :=
              { version := provenanceVersion
                sequence
                state := .prepared
                service
                backup
                originalSha256 := P.sha256 (.bytes original)
                installedSha256 := P.sha256 (.bytes installed) }
            backupIdentity := none
            recordIdentity := none }
  else .error ⟨.invalidInput, "invalid PAM service name"⟩

/-! ## Intents and bindings -/

/-- An intent with the fields that every role has, and no identity of an
original. -/
def stateIntent (role : IntentRole) (sequence : Nat) (service : String) (backup : BackupName)
    (originalSha256 installedSha256 : Digest)
    (recordSha256 replacementRecordSha256 : Option Digest) : StateIntent where
  version := provenanceVersion
  role := role
  sequence := sequence
  service := service
  backup := backup
  originalSha256 := originalSha256
  installedSha256 := installedSha256
  recordSha256 := recordSha256
  replacementRecordSha256 := replacementRecordSha256
  originalDevice := none
  originalInode := none
  originalLinks := none
  originalMode := none
  originalUid := none
  originalGid := none

/-- An intent with the identity of the file that the operation replaces. -/
def StateIntent.withOriginal (expected : FileIdentity) : StateIntent :=
  { intent with
    originalDevice := some expected.device
    originalInode := some expected.inode
    originalLinks := some expected.links
    originalMode := some expected.mode
    originalUid := some expected.uid
    originalGid := some expected.gid }

structure CreatedPublication where
  name : StateName
  stateIdentity : FileIdentity
  binding : PublicationBinding

def publicationBindingFor (role : PublicationRole) (intent : StateIntent)
    (replacement : FileIdentity) : PublicationBinding where
  version := provenanceVersion
  role := role
  sequence := intent.sequence
  service := intent.service
  backup := intent.backup
  intentSha256 := P.sha256 (.intent intent)
  device := replacement.device
  inode := replacement.inode
  links := replacement.links
  sha256 := replacement.sha256
  mode := replacement.mode
  uid := replacement.uid
  gid := replacement.gid

/-- `remove_all_binding_identity`: the identity that a binding holds. -/
def PublicationBinding.identity : FileIdentity where
  device := binding.device
  inode := binding.inode
  links := binding.links
  sha256 := binding.sha256
  mode := binding.mode
  uid := binding.uid
  gid := binding.gid

def bindingIdentityMatches (actual : FileIdentity) : Bool :=
  binding.identity = actual

def createPublicationBinding (role : PublicationRole) (intent : StateIntent)
    (replacement : FileIdentity) : Action CreatedPublication := do
  let binding := publicationBindingFor P role intent replacement
  let name := StateName.publication role intent.backup
  let stateIdentity ← atomicStateCreate P name (.binding binding)
  pure { name, stateIdentity, binding }

def finishPublicationState (intentName : StateName) (intentIdentity : FileIdentity)
    (publication : Option CreatedPublication) : Action Unit := do
  unlinkStateIfIdentityMatches P intentName intentIdentity
  match publication with
  | some publication =>
    unlinkStateIfIdentityMatches P publication.name publication.stateIdentity
  | none => pure ()

/-! ## Backup pairs -/

variable (prepared : PreparedBackup)

/-- The intent of `persist_unlocked_with_hook`. -/
def prepareIntent : StateIntent :=
  stateIntent .prepare prepared.provenance.sequence prepared.provenance.service prepared.backup
    prepared.provenance.originalSha256 prepared.provenance.installedSha256
    (some (P.sha256 (.record prepared.provenance))) none

def persist (original : Bytes) : Action Unit := do
  let inUse ← Prog.read fun files => .ok (sequenceInUse P prepared.provenance.sequence files)
  if P.sha256 (.bytes original) ≠ prepared.provenance.originalSha256 then
    Prog.fail ⟨.invalidInput, "prepared backup does not match this store or original"⟩
  else if maxBackupBytes < original.length then
    Prog.fail ⟨.invalidData, "PAM backup exceeds the state size limit"⟩
  else if inUse then
    Prog.fail ⟨.alreadyExists, "PAM backup sequence was allocated concurrently"⟩
  else do
    let intent := prepareIntent P prepared
    let intentName := StateName.intent .prepare prepared.backup
    let intentIdentity ← atomicStateCreate P intentName (.intent intent)
    match ← (atomicStateCreate P (.backup prepared.backup) (.bytes original)).attempt with
    | .error e => do
      if isAmbiguousPublication e then Prog.fail e
      else do
        let _ ← (unlinkStateIfIdentityMatches P intentName intentIdentity).attempt
        Prog.fail e
    | .ok backupIdentity =>
      match ← (atomicStateCreate P (.record prepared.backup)
          (.record prepared.provenance)).attempt with
      | .error e =>
        if isAmbiguousPublication e then Prog.fail e
        else do
          let _ ← (unlinkStateIfIdentityMatches P (.backup prepared.backup)
            backupIdentity).attempt
          let _ ← (unlinkStateIfIdentityMatches P intentName intentIdentity).attempt
          Prog.fail e
      | .ok _ => unlinkStateIfIdentityMatches P intentName intentIdentity

/-- The identity of a file, within a limit if there is one. -/
def identityAt (name : Name) (limit : Option Nat) (files : Files) : Except IoError FileIdentity :=
  match openRegularAt name files with
  | .error e => .error e
  | .ok file =>
    match limit with
    | some limit => identityOfOpenBounded P file limit
    | none => .ok (file.identity P)

/-- The check of a published name: it must open, and hold the expected
file. -/
def requirePublished (name : Name) (limit : Option Nat) (expected : FileIdentity)
    (unreadable changed : String) : Action Unit := do
  match ← (Prog.read (identityAt P name limit)).attempt with
  | .error _ => Prog.fail (ambiguousPublication unreadable)
  | .ok published =>
    if identityMatches expected published then pure ()
    else Prog.fail (ambiguousPublication changed)

/-- The record that `commit_unlocked` publishes. -/
def ProvenanceRecord.commit (provenance : ProvenanceRecord) : ProvenanceRecord :=
  { provenance with state := .committed }

/-- The intent of `commit_unlocked`. -/
def commitIntent : StateIntent :=
  stateIntent .commit prepared.provenance.sequence prepared.provenance.service prepared.backup
    prepared.provenance.originalSha256 prepared.provenance.installedSha256
    (some (P.sha256 (.record prepared.provenance)))
    (some (P.sha256 (.record prepared.provenance.commit)))

/-- `commit_unlocked` after the exchange. -/
def finishCommit (intentIdentity current replacement : FileIdentity)
    (publication : CreatedPublication) : Action Unit := do
  let intentName := StateName.intent .commit prepared.backup
  let exchangeName := StateName.commitExchange prepared.backup
  let recordName := Name.state (.record prepared.backup)
  requirePublished P recordName (some maxRecordBytes) replacement
    "committed provenance became ambiguous"
    "committed provenance changed before final validation"
  let displaced ← Prog.read (identityAt P (.state exchangeName) (some maxRecordBytes))
  if !identityMatches current displaced then do
    renameExchangeAt (.state exchangeName) recordName
    match ← (Prog.read (openRegularAt (.state exchangeName))).attempt with
    | .ok restored => do
      let restored ← Prog.ofResult (identityOfOpenBounded P restored maxRecordBytes)
      if identityMatches replacement restored then
        unlinkStateIfIdentityMatches P exchangeName replacement
      else pure ()
    | .error _ => pure ()
    let _ ← (finishPublicationState P intentName intentIdentity (some publication)).attempt
    Prog.fail (.other "prepared provenance changed during commit")
  else do
    requirePublished P recordName (some maxRecordBytes) replacement
      "committed provenance became ambiguous"
      "committed provenance changed before displaced cleanup"
    unlinkStateIfIdentityMatches P exchangeName displaced
    requirePublished P recordName (some maxRecordBytes) replacement
      "committed provenance became ambiguous"
      "committed provenance changed before intent cleanup"
    finishPublicationState P intentName intentIdentity (some publication)

def commitUnlocked : Action Unit := do
  let replacement := prepared.provenance.commit
  let preparedSha256 := P.sha256 (.record prepared.provenance)
  let intent := commitIntent P prepared
  let intentName := StateName.intent .commit prepared.backup
  let exchangeName := StateName.commitExchange prepared.backup
  let recordName := Name.state (.record prepared.backup)
  let intentIdentity ← atomicStateCreate P intentName (.intent intent)
  let current ← Prog.read (identityAt P recordName (some maxRecordBytes))
  if !stateIdentityMatches P current preparedSha256 then do
    let _ ← (unlinkStateIfIdentityMatches P intentName intentIdentity).attempt
    Prog.fail (.other "prepared provenance changed before commit")
  else
    match ← (atomicStateCreate P exchangeName (.record replacement)).attempt with
    | .error e =>
      if isAmbiguousPublication e then Prog.fail e
      else do
        let _ ← (unlinkStateIfIdentityMatches P intentName intentIdentity).attempt
        Prog.fail e
    | .ok replacementIdentity =>
      match ← (createPublicationBinding P .commit intent replacementIdentity).attempt with
      | .error e =>
        if isAmbiguousPublication e then Prog.fail e
        else do
          cleanupUnpublishedTemp P (.state exchangeName) replacementIdentity maxRecordBytes
            "unpublished committed provenance became ambiguous"
          unlinkStateIfIdentityMatches P intentName intentIdentity
          Prog.fail e
      | .ok publication => do
        renameExchangeAt (.state exchangeName) recordName
        finishCommit P prepared intentIdentity current replacementIdentity publication

/-- The intent of `cleanup_one_at`. -/
def cleanupIntent (backup record : FileIdentity) : StateIntent :=
  stateIntent .cleanup prepared.provenance.sequence prepared.provenance.service prepared.backup
    backup.sha256 prepared.provenance.installedSha256 (some record.sha256) none

/-- `cleanup_one_at` after the backup is in quarantine. -/
def finishCleanup (expectedRecord : FileIdentity)
    (quarantinedBackup intentIdentity : FileIdentity) : Action Unit := do
  let backupName := Name.state (.backup prepared.backup)
  let recordName := Name.state (.record prepared.backup)
  let backupQuarantine := StateName.quarantineBackup prepared.backup
  let recordQuarantine := StateName.quarantineRecord prepared.backup
  match ← (renameNoreplaceAt recordName (.state recordQuarantine)).attempt with
  | .error e => do
    let _ ← (renameNoreplaceAt (.state backupQuarantine) backupName).attempt
    Prog.fail e
  | .ok _ => do
    let quarantinedRecord ←
      Prog.read (identityAt P (.state recordQuarantine) (some maxRecordBytes))
    if !identityMatches expectedRecord quarantinedRecord then do
      let _ ← (renameNoreplaceAt (.state recordQuarantine) recordName).attempt
      let _ ← (renameNoreplaceAt (.state backupQuarantine) backupName).attempt
      Prog.fail (.other "PAM provenance changed during quarantine")
    else do
      unlinkStateIfIdentityMatches P backupQuarantine quarantinedBackup
      unlinkStateIfIdentityMatches P recordQuarantine quarantinedRecord
      unlinkStateIfIdentityMatches P (.intent .cleanup prepared.backup) intentIdentity

def cleanupOneAt : Action Unit := do
  let backupName := Name.state (.backup prepared.backup)
  let recordName := Name.state (.record prepared.backup)
  let backup ← Prog.read (openRegularAt backupName)
  let record ← Prog.read (openRegularAt recordName)
  match prepared.backupIdentity, prepared.recordIdentity with
  | none, _ => Prog.fail ⟨.invalidInput, "cleanup backup has no captured identity"⟩
  | _, none => Prog.fail ⟨.invalidInput, "cleanup record has no captured identity"⟩
  | some expectedBackup, some expectedRecord => do
    let backupIdentity ← Prog.ofResult (identityOfOpenBounded P backup maxBackupBytes)
    let recordIdentity ← Prog.ofResult (identityOfOpenBounded P record maxRecordBytes)
    if !identityMatches expectedBackup backupIdentity ||
        !identityMatches expectedRecord recordIdentity then
      Prog.fail (.other "PAM backup state changed before cleanup")
    else do
      let intent := cleanupIntent prepared expectedBackup expectedRecord
      let intentIdentity ←
        atomicStateCreate P (.intent .cleanup prepared.backup) (.intent intent)
      let backupQuarantine := Name.state (.quarantineBackup prepared.backup)
      renameNoreplaceAt backupName backupQuarantine
      let quarantinedBackup ←
        Prog.read (identityAt P backupQuarantine (some maxBackupBytes))
      if !identityMatches expectedBackup quarantinedBackup then do
        let _ ← (renameNoreplaceAt backupQuarantine backupName).attempt
        Prog.fail (.other "PAM backup changed during quarantine")
      else
        finishCleanup P prepared expectedRecord quarantinedBackup intentIdentity

end Facelock.Store
