import Facelock.Store.Replacement

/-!
# Recovery of single operations

The model of `BackupStore::recover_unlocked` and the functions under it.
Recovery looks at the state directory four times: for temporary files of
the store, for publication bindings, for intents, and for backup pairs
that are still prepared.  What it cannot classify it leaves alone.

The directory is read once at the start of each pass; entries are looked
up when their turn comes, as in the source.
-/

namespace Facelock.Store

open Facelock.Crash

variable (P : Platform) (dirs : PamDirs)

/-! ## Temporary files -/

/-- `backup_service(..).is_some()`. -/
def isBackupName (backup : BackupName) : Bool :=
  confined backup.service && validBackupName backup.service backup

/-- `valid_owned_temp_destination`.  The quarantine name of a backup has
the shape of a backup name itself.  So has the name of a commit exchange
without `.json`: its content is tested as the record of that backup, which
it never is, and the branch for it at the end is not reached. -/
def validOwnedTempDestination (destination : StateName) (content : Content) : Bool :=
  match destination, content with
  | .backup backup, _ => isBackupName backup
  | .quarantineBackup backup, _ => isBackupName backup
  | .record backup, .record record =>
    isBackupName backup && validProvenanceRecord destination record
  | .intent _ _, .intent intent =>
    destination = .intent intent.role intent.backup && validStateIntent intent
  | .publication _ _, .binding binding =>
    destination = .publication binding.role binding.backup && validPublicationBinding binding
  | _, _ => false

/-- The file under a temporary name, if it is the store's: the digest in
the name is the content's, and the content belongs to the destination. -/
def ownedTempAt (files : Files) (name : StateName) : Option File :=
  match name with
  | .temp destination expectedHash _ =>
    match ownedContentAt P name maxBackupBytes files with
    | some (file, content) =>
      if P.sha256 content = expectedHash ∧ validOwnedTempDestination destination content then
        some file
      else none
    | none => none
  | _ => none

/-- One round of `recover_owned_temps`. -/
def recoverOwnedTemp (name : StateName) : Action Unit := do
  match ← Prog.read fun files => .ok (ownedTempAt P files name) with
  | some file => unlinkStateIfIdentityMatches P name (file.identity P)
  | none => pure ()

def recoverOwnedTemps : Action Unit := do
  let names ← Prog.read fun files => .ok (P.readDir files)
  names.forM (recoverOwnedTemp P)

/-! ## Publications -/

def publicationMatchesIntent (publication : PublicationBinding) (intent : ValidIntent) : Bool :=
  publication.role.intentRole = intent.intent.role &&
    publication.sequence = intent.intent.sequence &&
    publication.service = intent.intent.service &&
    publication.backup = intent.intent.backup &&
    publication.intentSha256 = intent.identity.sha256 &&
    (match publication.role with
      | .commit => intent.intent.replacementRecordSha256 = some publication.sha256
      | .pamReplace | .pamRemove | .vendorCreate =>
        intent.intent.installedSha256 = publication.sha256)

def exactOriginalIntentIdentity (intent : StateIntent) (identity : FileIdentity) : Bool :=
  identity.sha256 = intent.originalSha256 && some identity.device = intent.originalDevice &&
    some identity.inode = intent.originalInode && some identity.links = intent.originalLinks &&
    some identity.mode = intent.originalMode && some identity.uid = intent.originalUid &&
    some identity.gid = intent.originalGid

def finishRecoveredPublication (intent : Option ValidIntent) (publication : ValidPublication) :
    Action Unit := do
  match intent with
  | some intent => unlinkStateIfIdentityMatches P intent.name intent.identity
  | none => pure ()
  unlinkStateIfIdentityMatches P publication.name publication.identity

variable (publication : ValidPublication)

section

variable (intent : Option ValidIntent)

def recoverCommitPublication : Action Unit := do
  let record := Name.state (.record publication.binding.backup)
  let exchange := StateName.commitExchange publication.binding.backup
  let canonical ← Prog.read (openIdentityAt P record maxRecordBytes)
  let temp ← Prog.read (openIdentityAt P (.state exchange) maxRecordBytes)
  let isPublished := fun identity => bindingIdentityMatches publication.binding identity
  -- `unwrap_or_default` gives the empty string, which is no digest.
  let isPrepared := fun identity =>
    match intent.bind fun valid => valid.intent.recordSha256 with
    | some preparedHash => stateIdentityMatches P identity preparedHash
    | none => false
  match intent, canonical, temp with
  | some _, some current, some displaced =>
    if isPrepared current && isPublished displaced || isPublished current && isPrepared displaced
    then do
      unlinkStateIfIdentityMatches P exchange displaced
      finishRecoveredPublication P intent publication
    else pure ()
  | some _, some current, none | none, some current, none =>
    if isPublished current then finishRecoveredPublication P intent publication else pure ()
  | _, _, _ => pure ()

/-- The retirement that a finished removal may still owe. -/
def recoverRetirement : Action Unit := do
  let binding := publication.binding
  let quarantineExists ← Prog.read fun files =>
    .ok (entryExistsAt (.pam (.vendorRetire binding.backup)) files)
  let shouldRetire ←
    if quarantineExists then pure true
    else do
      match ← Prog.read (readRegularAtBounded P (.service binding.service) maxBackupBytes) with
      | some (content, current) =>
        if bindingIdentityMatches binding current then
          match currentVendorOverrideMatches P dirs binding.service content.rawBytes current
              true with
          | .ok answer => pure answer
          | .error _ => pure false
        else pure false
      | none => pure false
  if shouldRetire then do
    match ← (retireVendorOverride P dirs binding.service binding.backup
        binding.identity).attempt with
    | .ok _ => pure ()
    | .error e =>
      if isAmbiguousPublication e || e.kind = .interrupted then Prog.fail e else pure ()
  else pure ()

/-- What `recover_pam_publication` does once the two names are classified. -/
def finishPamPublication : Action Unit := do
  if publication.binding.role = .pamRemove then recoverRetirement P dirs publication else pure ()
  finishRecoveredPublication P intent publication

def recoverPamPublication (tempName : PamName) : Action Unit := do
  let binding := publication.binding
  let canonical ← Prog.read (openIdentityAt P (.pam (.service binding.service)) maxBackupBytes)
  let temp ← Prog.read (openIdentityAt P (.pam tempName) maxBackupBytes)
  let isInstalled := fun identity => bindingIdentityMatches binding identity
  let isOriginal := fun identity =>
    match intent with
    | some valid => exactOriginalIntentIdentity valid.intent identity
    | none => false
  match intent, canonical, temp with
  | some _, some current, some other =>
    if isOriginal current && isInstalled other || isInstalled current && isOriginal other then do
      unlinkAtIfIdentityMatches P (.pam tempName) other maxBackupBytes
      finishPamPublication P dirs publication intent
    else pure ()
  | some _, some current, none | none, some current, none =>
    if isInstalled current then finishPamPublication P dirs publication intent else pure ()
  | _, none, none =>
    if binding.role = .pamRemove then finishPamPublication P dirs publication intent else pure ()
  | _, _, _ => pure ()

def recoverVendorPublication : Action Unit := do
  let binding := publication.binding
  let tempName := Name.pam (.vendorCreate binding.backup)
  let canonical ← Prog.read (openIdentityAt P (.pam (.service binding.service)) maxBackupBytes)
  let temp ← Prog.read (openIdentityAt P tempName maxBackupBytes)
  match intent, canonical, temp with
  | some _, none, some replacement =>
    if bindingIdentityMatches binding replacement then do
      unlinkAtIfIdentityMatches P tempName replacement maxBackupBytes
      finishRecoveredPublication P intent publication
    else pure ()
  | _, some installed, none =>
    if bindingIdentityMatches binding installed then
      finishRecoveredPublication P intent publication
    else pure ()
  | _, _, _ => pure ()

/-- The recovery of a binding with its intent, by the role of the binding. -/
def recoverByRole : Action Unit :=
  let backup := publication.binding.backup
  match publication.binding.role with
  | .commit => recoverCommitPublication P publication intent
  | .pamReplace => recoverPamPublication P dirs publication intent (.pamReplace backup)
  | .pamRemove => recoverPamPublication P dirs publication intent (.pamRemove backup)
  | .vendorCreate => recoverVendorPublication P publication intent

end

/-- One round of `recover_publications`.  Only an absent intent name makes
a binding an orphan; any other entry under that name blocks it. -/
def recoverPublication (intents : List ValidIntent) (publication : ValidPublication) :
    Action Unit := do
  let binding := publication.binding
  let intent := intents.find? (publicationMatchesIntent binding)
  let blocked ← Prog.read fun files =>
    .ok (entryExistsAt (.state (.intent binding.role.intentRole binding.backup)) files)
  if intent.isNone && blocked then pure ()
  else recoverByRole P dirs publication intent

def recoverPublications : Action Unit := do
  let intents ← Prog.read fun files => .ok (validatedIntents P files)
  let publications ← Prog.read fun files => .ok (validatedPublications P files)
  publications.forM (recoverPublication P dirs intents)

/-! ## Intents -/

def matchingStateEntry (name : StateName) (expectedSha256 : Digest) (limit : Nat)
    (files : Files) : Except IoError (Option FileIdentity) :=
  match openIdentityAt P (.state name) limit files with
  | .error e => .error e
  | .ok none => .ok none
  | .ok (some identity) =>
    if stateIdentityMatches P identity expectedSha256 then .ok (some identity)
    else .error (.other "reserved state entry does not match its durable intent")

variable (valid : ValidIntent)

def recoverPrepareIntent : Action Unit := do
  let intent := valid.intent
  match intent.recordSha256 with
  | none => pure ()
  | some recordHash => do
    let backup ← (Prog.read (matchingStateEntry P (.backup intent.backup) intent.originalSha256
      maxBackupBytes)).attempt
    let provenance ← (Prog.read (matchingStateEntry P (.record intent.backup) recordHash
      maxRecordBytes)).attempt
    match backup, provenance with
    | .ok backup, .ok provenance => do
      match backup, provenance with
      | some identity, none =>
        unlinkStateIfIdentityMatches P (.backup intent.backup) identity
      | none, some identity =>
        unlinkStateIfIdentityMatches P (.record intent.backup) identity
      | some _, some _ | none, none => pure ()
      unlinkStateIfIdentityMatches P valid.name valid.identity
    | _, _ => pure ()

/-- `.ok().flatten()`. -/
def entryOrNone {α : Type} : Except IoError (Option α) → Option α
  | .ok entry => entry
  | .error _ => none

def recoverCommitIntent : Action Unit := do
  let intent := valid.intent
  match intent.recordSha256, intent.replacementRecordSha256 with
  | some recordHash, some _ => do
    let canonicalPrepared ← (Prog.read (matchingStateEntry P (.record intent.backup) recordHash
      maxRecordBytes)).attempt
    let exchangeEntry ←
      Prog.read (openIdentityAt P (.state (.commitExchange intent.backup)) maxRecordBytes)
    if (entryOrNone canonicalPrepared).isSome && exchangeEntry.isNone then
      unlinkStateIfIdentityMatches P valid.name valid.identity
    else pure ()
  | _, _ => pure ()

def resumeQuarantine (canonical quarantine : StateName) (expectedSha256 : Digest)
    (limit : Nat) : Action (Option FileIdentity) := do
  let canonicalIdentity ←
    Prog.read (matchingStateEntry P canonical expectedSha256 limit)
  let quarantineIdentity ←
    Prog.read (matchingStateEntry P quarantine expectedSha256 limit)
  match canonicalIdentity, quarantineIdentity with
  | some expected, none => do
    renameNoreplaceAt (.state canonical) (.state quarantine)
    match ← Prog.read (matchingStateEntry P quarantine expectedSha256 limit) with
    | none => Prog.fail (.other "quarantined state disappeared")
    | some moved =>
      if identityMatches expected moved then pure (some moved)
      else do
        let _ ← (renameNoreplaceAt (.state quarantine) (.state canonical)).attempt
        Prog.fail (.other "state entry changed during recovery quarantine")
  | none, some identity => pure (some identity)
  | none, none => pure none
  | some _, some _ =>
    Prog.fail (.other "both canonical and quarantine state entries exist")

def unlinkEntry (name : StateName) : Option FileIdentity → Action Unit
  | some identity => unlinkStateIfIdentityMatches P name identity
  | none => pure ()

def recoverCleanupIntent : Action Unit := do
  let intent := valid.intent
  match intent.recordSha256 with
  | none => pure ()
  | some recordHash =>
    match ← (resumeQuarantine P (.backup intent.backup) (.quarantineBackup intent.backup)
        intent.originalSha256 maxBackupBytes).attempt with
    | .error _ => pure ()
    | .ok backup =>
      match ← (resumeQuarantine P (.record intent.backup) (.quarantineRecord intent.backup)
          recordHash maxRecordBytes).attempt with
      | .error _ => pure ()
      | .ok record => do
        unlinkEntry P (.quarantineBackup intent.backup) backup
        unlinkEntry P (.quarantineRecord intent.backup) record
        unlinkStateIfIdentityMatches P valid.name valid.identity

/-- The reading of a PAM name in the recovery of an intent: an irregular
entry ends it, an oversized file is an error. -/
def openForIntent (name : PamName) (files : Files) :
    Except IoError (Option (Option FileIdentity)) :=
  match openRegularAt (.pam name) files with
  | .ok file =>
    match identityOfOpenBounded P file maxBackupBytes with
    | .ok identity => .ok (some (some identity))
    | .error e => .error e
  | .error e => if e.kind = .notFound then .ok (some none) else .ok none

def recoverExistingPamMutationIntent (tempName : PamName) : Action Unit := do
  let intent := valid.intent
  match ← Prog.read (openForIntent P (.service intent.service)) with
  | none => pure ()
  | some canonical =>
    match ← Prog.read (openForIntent P tempName) with
    | none => pure ()
    | some temp =>
      match canonical, temp with
      | some current, none =>
        if exactOriginalIntentIdentity intent current then
          unlinkStateIfIdentityMatches P valid.name valid.identity
        else pure ()
      | _, _ => pure ()

def recoverPamReplaceIntent : Action Unit := do
  let intent := valid.intent
  match intent.recordSha256 with
  | none => pure ()
  | some recordHash => do
    let record ← (Prog.read (matchingStateEntry P (.record intent.backup) recordHash
      maxRecordBytes)).attempt
    if (entryOrNone record).isNone then pure ()
    else recoverExistingPamMutationIntent P valid (.pamReplace intent.backup)

def recoverPamRemoveIntent : Action Unit :=
  recoverExistingPamMutationIntent P valid (.pamRemove valid.intent.backup)

def recoverVendorCreateIntent : Action Unit := do
  let intent := valid.intent
  match ← Prog.read (openForIntent P (.service intent.service)) with
  | none => pure ()
  | some canonical =>
    match ← Prog.read (openForIntent P (.vendorCreate intent.backup)) with
    | none => pure ()
    | some temp =>
      match canonical, temp with
      | none, none => unlinkStateIfIdentityMatches P valid.name valid.identity
      | _, _ => pure ()

def recoverIntent : Action Unit :=
  match valid.intent.role with
  | .prepare => recoverPrepareIntent P valid
  | .commit => recoverCommitIntent P valid
  | .cleanup => recoverCleanupIntent P valid
  | .pamReplace => recoverPamReplaceIntent P valid
  | .pamRemove => recoverPamRemoveIntent P valid
  | .vendorCreate => recoverVendorCreateIntent P valid

def recoverIntents : Action Unit := do
  let intents ← Prog.read fun files => .ok (validatedIntents P files)
  intents.forM (recoverIntent P)

/-! ## Prepared pairs -/

/-- The service that a record file gives recovery to look at. -/
def hintAt (files : Files) (name : StateName) : Option String :=
  if name.isJson then
    match openRegularAt (.state name) files with
    | .error _ => none
    | .ok file =>
      match readOpenBounded file maxRecordBytes with
      | .ok (.record record) =>
        if validProvenanceRecord name record then some record.service else none
      | _ => none
  else none

def pushNew (services : List String) (service : String) : List String :=
  if service ∈ services then services else services ++ [service]

/-- The hinted services, each once, in the order of their first hint. -/
def hintedServices (files : Files) : List String :=
  ((P.readDir files).filterMap (hintAt files)).foldl pushNew []

/-- One round of the inner loop of `recover_unlocked`.  A replacement
intent that is still there means that the PAM names could not be
classified, so the pair stays too. -/
def recoverRecord (service : String) (prepared : PreparedBackup) : Action Unit := do
  if prepared.provenance.state ≠ .prepared then pure ()
  else do
    let blocked ← Prog.read fun files =>
      .ok (entryExistsAt (.state (.intent .pamReplace prepared.backup)) files)
    if blocked then pure ()
    else
      match ← (Prog.read (readRegularNofollow P service)).attempt with
      | .error _ => pure ()
      | .ok (content, _) =>
        if P.sha256 content = prepared.provenance.installedSha256 then commitUnlocked P prepared
        else if P.sha256 content = prepared.provenance.originalSha256 then
          cleanupOneAt P prepared
        else pure ()

def recoverService (service : String) : Action Unit := do
  let records ← Prog.read fun files => .ok (validatedRecords P service files)
  records.forM (recoverRecord P service)

def recoverRecords : Action Unit := do
  let services ← Prog.read fun files => .ok (hintedServices P files)
  services.forM (recoverService P)

def recoverUnlocked : Action Unit := do
  recoverOwnedTemps P
  recoverPublications P dirs
  recoverIntents P
  recoverRecords P

end Facelock.Store
