import Facelock.Store.Vendor

/-!
# Replacing a service file

The publication protocol of the override directory: a replacement is
written to a temporary name, its identity is bound in the state
directory, and the temporary and the service name are exchanged in one
step.  `replace_existing_verified_with_hooks` does this for a service
that has a local file, `create_override_verified_with_hooks` for one
that only a vendor directory has.

`replace_pam_with_intent_unlocked_hook` and
`remove_pam_with_intent_unlocked_published_hook` are the same protocol
with other names and texts, so both are `mutatePamWithIntent` at their
own values.  The hooks of the source stand for the crash points of its
tests; a production caller sets only the one after the exchange, which
the machine-wide removal uses to hold a publication back.
-/

namespace Facelock.Store

open Facelock.Crash
open Facelock.Pam (Bytes)

variable (P : Platform) (dirs : PamDirs)

/-- The file that a temporary name of the override directory gets: the
content with the owner and permissions of the model.  The kernel sets the
type bits. -/
def newPamFile (content : Bytes) (model : FileIdentity) (files : Files) : File where
  device := P.pamDevice
  inode := P.freshInode files
  links := 1
  mode := 32768 + model.mode % 4096
  uid := model.uid
  gid := model.gid
  content := .bytes content
  regular := by omega

/-- `create_temp_at_named_with_context_hook` with a fixed name. -/
def createTempAt (temp : PamName) (content : Bytes) (model : FileIdentity) :
    Action FileIdentity := do
  let file ← Prog.read fun files => .ok (newPamFile P content model files)
  create (.pam temp) file
  let identity := file.identity P
  if identity.links ≠ 1 ∨ identity.sha256 ≠ P.sha256 (.bytes content) ∨
      identity.mode ≠ model.mode ∨ identity.uid ≠ model.uid ∨ identity.gid ≠ model.gid then do
    cleanupUnpublishedTemp P (.pam temp) identity maxBackupBytes
      "created PAM temp became ambiguous during error cleanup"
    Prog.fail (.other "created PAM temp does not match its requested content and metadata")
  else pure identity

/-! ## An existing service file -/

variable (service : String)

section

variable (prepared : PreparedBackup) (expected : FileIdentity) (content : Bytes) (temp : PamName)
  (replacement : FileIdentity) (afterExchange : Except IoError Unit)

/-- `replace_existing_verified_with_hooks` up to the call of `after_temp`. -/
def createReplacement : Action FileIdentity := do
  let source ← Prog.read (identityAt P (.pam (.service service)) none)
  if !identityMatches expected source then
    Prog.fail (.other "PAM service changed after it was planned")
  else do
    let created ← createTempAt P temp content expected
    let replacement ← readOrAmbiguous (identityAt P (.pam temp) none)
      "created PAM temp became ambiguous before binding"
    if identityMatches created replacement then pure replacement
    else Prog.fail (ambiguousPublication "created PAM temp changed before publication binding")

/-- The hook `after_temp`: bind the identity of the temporary file. -/
def bindReplacement (role : PublicationRole) (intent : StateIntent) (temp : PamName)
    (replacement : FileIdentity) (ambiguousMessage : String) : Action CreatedPublication := do
  match ← (createPublicationBinding P role intent replacement).attempt with
  | .ok created => pure created
  | .error e =>
    if isAmbiguousPublication e then Prog.fail e
    else do
      cleanupUnpublishedTemp P (.pam temp) replacement maxBackupBytes ambiguousMessage
      Prog.fail e

/-- What `replace_existing_verified_with_hooks` does when the displaced
file is not the planned one: exchange the names back. -/
def undoExchange : Action Unit := do
  match ← (renameExchangeAt (.pam temp) (.pam (.service service))).attempt with
  | .error e =>
    Prog.fail (.other ("PAM service changed after it was planned and rollback failed: " ++
      e.message))
  | .ok _ => do
    match ← (Prog.read (identityAt P (.pam temp) none)).attempt with
    | .ok restored =>
      if identityMatches replacement restored then do
        let _ ← (unlink (.pam temp)).attempt
        pure ()
      else pure ()
    | .error _ => pure ()
    Prog.fail (.other "PAM service changed after it was planned")

/-- `replace_existing_verified_with_hooks` after the call of `after_temp`. -/
def exchangeReplacement : Action Unit := do
  let serviceName := Name.pam (.service service)
  match ← (Prog.read (identityAt P serviceName none)).attempt with
  | .error e => do
    cleanupUnpublishedTemp P (.pam temp) replacement maxBackupBytes
      "unpublished PAM temp became ambiguous after source drift"
    Prog.fail e
  | .ok source =>
    if !identityMatches expected source then do
      cleanupUnpublishedTemp P (.pam temp) replacement maxBackupBytes
        "unpublished PAM temp became ambiguous after source drift"
      Prog.fail (.other "PAM service changed after it was planned")
    else
      match ← (renameExchangeAt (.pam temp) serviceName).attempt with
      | .error e => do
        cleanupUnpublishedTemp P (.pam temp) replacement maxBackupBytes
          "unpublished PAM temp became ambiguous after exchange failure"
        Prog.fail e
      | .ok _ => do
        Prog.ofResult afterExchange
        requirePublished P serviceName none replacement
          "published PAM service became ambiguous"
          "published PAM service changed before final validation"
        let displaced ← (Prog.read (identityAt P (.pam temp) none)).attempt
        if displaced.toOption ≠ some expected then
          undoExchange P service temp replacement
        else do
          requirePublished P serviceName none replacement
            "published PAM service became ambiguous"
            "published PAM service changed before displaced cleanup"
          unlink (.pam temp)

/-! ## The protocol with its intent -/

/-- `validate_published_path`: any failure is ambiguous. -/
def validatePublishedPath (binding : PublicationBinding) (message : String) : Action Unit :=
  requirePublished P (.pam (.service service)) (some maxBackupBytes) binding.identity
    message message

/-- What sets one use of the protocol apart: the role, the temporary name
and the texts. -/
structure MutationKind where
  role : PublicationRole
  temp : BackupName → PamName
  ambiguousTemp : String
  cleanupFailed : String

/-- The results after which the intent and the binding stay. -/
def keepsEvidence : Except IoError Unit → Bool
  | .ok _ => false
  | .error e => e.kind = .interrupted || isAmbiguousPublication e

/-- The end of the protocol.  An interrupted or ambiguous publication keeps
its intent and binding; every other one is finished. -/
def concludeMutation (kind : MutationKind) (intent : StateIntent) (intentIdentity : FileIdentity)
    (publication : Option CreatedPublication) (result : Except IoError Unit) : Action Unit := do
  if keepsEvidence result then Prog.ofResult result
  else
    match ← (finishPublicationState P (.intent kind.role.intentRole intent.backup)
        intentIdentity publication).attempt with
    | .ok _ => Prog.ofResult result
    | .error cleanupError =>
      match result with
      | .ok _ => Prog.fail cleanupError
      | .error e => Prog.fail (.other (e.message ++ kind.cleanupFailed ++ cleanupError.message))

/-- The protocol from the intent on.  `afterPublished` is what the caller
does with the published file before the intent and the binding go. -/
def mutatePamWithIntent (kind : MutationKind) (intent : StateIntent) (expected : FileIdentity)
    (content : Bytes) (afterExchange : Except IoError Unit)
    (afterPublished : FileIdentity → Action Unit) : Action Unit := do
  let service := intent.service
  let temp := kind.temp intent.backup
  let intentIdentity ←
    atomicStateCreate P (.intent kind.role.intentRole intent.backup) (.intent intent)
  match ← (createReplacement P service expected content temp).attempt with
  | .error e => concludeMutation P kind intent intentIdentity none (.error e)
  | .ok replacement =>
    match ← (bindReplacement P kind.role intent temp replacement kind.ambiguousTemp).attempt with
    | .error e => concludeMutation P kind intent intentIdentity none (.error e)
    | .ok publication => do
      let result ← Prog.attempt do
        exchangeReplacement P service expected temp replacement afterExchange
        validatePublishedPath P service publication.binding
          "published PAM service changed before intent cleanup"
        afterPublished publication.binding.identity
      concludeMutation P kind intent intentIdentity (some publication) result

def pamReplaceKind : MutationKind where
  role := .pamReplace
  temp := .pamReplace
  ambiguousTemp := "unpublished PAM replacement temp became ambiguous"
  cleanupFailed := "; also failed to clean PAM replacement intent: "

def pamRemoveKind : MutationKind where
  role := .pamRemove
  temp := .pamRemove
  ambiguousTemp := "unpublished PAM removal temp became ambiguous"
  cleanupFailed := "; also failed to clean PAM removal intent: "

/-- The intent of `replace_pam_with_intent_unlocked_hook`. -/
def pamReplaceIntent : StateIntent :=
  (stateIntent .pamReplace prepared.provenance.sequence prepared.provenance.service
    prepared.backup expected.sha256 (P.sha256 (.bytes content))
    (some (P.sha256 (.record prepared.provenance))) none).withOriginal expected

/-- `replace_pam_with_intent_unlocked_hook`.  The path is the service's name
in the override directory. -/
def replacePamWithIntent : Action Unit :=
  if expected.sha256 ≠ prepared.provenance.originalSha256 ∨
      P.sha256 (.bytes content) ≠ prepared.provenance.installedSha256 then
    Prog.fail ⟨.invalidInput, "PAM replacement does not match prepared provenance"⟩
  else
    mutatePamWithIntent P pamReplaceKind (pamReplaceIntent P prepared expected content) expected
      content afterExchange fun _ => pure ()

end

structure PamMutationPlan where
  operation : BackupName
  sequence : Nat
  service : String
  originalSha256 : Digest
  installedSha256 : Digest

def planMutation (original installed : Bytes) (sinceEpoch : Duration)
    (files : Files) : Except IoError PamMutationPlan :=
  match planAtUnlocked P service original installed sinceEpoch files with
  | .error e => .error e
  | .ok prepared =>
    .ok
      { operation := prepared.backup
        sequence := prepared.provenance.sequence
        service := prepared.provenance.service
        originalSha256 := prepared.provenance.originalSha256
        installedSha256 := prepared.provenance.installedSha256 }

variable (mutation : PamMutationPlan)

section

variable (expected : FileIdentity) (root : VendorRoot) (content : Bytes)

/-- The intent of `remove_pam_with_intent_unlocked_published_hook`. -/
def pamRemoveIntent : StateIntent :=
  (stateIntent .pamRemove mutation.sequence mutation.service mutation.operation expected.sha256
    (P.sha256 (.bytes content)) none none).withOriginal expected

/-- `remove_pam_with_intent_unlocked_published_hook`. -/
def removePamWithIntent (afterPublished : FileIdentity → Action Unit) : Action Unit :=
  if expected.sha256 ≠ mutation.originalSha256 ∨
      P.sha256 (.bytes content) ≠ mutation.installedSha256 then
    Prog.fail ⟨.invalidInput, "PAM removal does not match its transaction plan"⟩
  else
    mutatePamWithIntent P pamRemoveKind (pamRemoveIntent P mutation expected content) expected
      content (.ok ()) afterPublished

/-! ## A service that only a vendor directory has -/

/-- The entry that a vendor path names: the directory is found by its
path, as `resolve_service_path` recorded it. -/
def vendorIdentityAt : Except IoError FileIdentity :=
  match root.lookup service with
  | none => .error .notFound
  | some .irregular => .error ⟨.invalidData, "PAM service is not a regular file"⟩
  | some (.regular file) =>
    if file.links = 1 then .ok (file.identity P)
    else .error ⟨.invalidData, "PAM service has " ++ toString file.links ++ " hard links"⟩

/-- `create_override_verified_with_hooks` up to the call of `after_temp`. -/
def createOverride (expected : FileIdentity)
    (content : Bytes) (temp : PamName) : Action FileIdentity := do
  let source ← Prog.ofResult (vendorIdentityAt P service root)
  if !identityMatches expected source then
    Prog.fail (.other "vendor PAM service changed after it was planned")
  else do
    let created ← createTempAt P temp content expected
    let replacement ← readOrAmbiguous (identityAt P (.pam temp) none)
      "created vendor temp became ambiguous before binding"
    if identityMatches created replacement then pure replacement
    else Prog.fail (ambiguousPublication
      "created vendor temp changed before publication binding")

/-- `create_override_verified_with_hooks` after the call of `after_temp`.
The vendor file is only read, so its second check gives what the first
gave. -/
def publishOverride (expected : FileIdentity)
    (temp : PamName) (replacement : FileIdentity) : Action Unit := do
  match vendorIdentityAt P service root with
  | .error e => do
    cleanupUnpublishedTemp P (.pam temp) replacement maxBackupBytes
      "unpublished vendor temp became ambiguous after source drift"
    Prog.fail e
  | .ok source =>
    if !identityMatches expected source then do
      cleanupUnpublishedTemp P (.pam temp) replacement maxBackupBytes
        "unpublished vendor temp became ambiguous after source drift"
      Prog.fail (.other "vendor PAM service changed after it was planned")
    else
      match ← (renameNoreplaceAt (.pam temp) (.pam (.service service))).attempt with
      | .error e => do
        cleanupUnpublishedTemp P (.pam temp) replacement maxBackupBytes
          "unpublished vendor temp became ambiguous after publication failure"
        Prog.fail e
      | .ok _ =>
        requirePublished P (.pam (.service service)) none replacement
          "published vendor override became ambiguous"
          "published vendor override changed before final validation"

def vendorCreateKind : MutationKind where
  role := .vendorCreate
  temp := .vendorCreate
  ambiguousTemp := "unpublished vendor override temp became ambiguous"
  cleanupFailed := "; also failed to clean vendor creation intent: "

/-- The intent of `create_vendor_with_intent_unlocked_hook`: the metadata of
the vendor file and no identity. -/
def vendorCreateIntent : StateIntent :=
  { stateIntent .vendorCreate mutation.sequence mutation.service mutation.operation
      expected.sha256 (P.sha256 (.bytes content)) none none with
    originalMode := some expected.mode
    originalUid := some expected.uid
    originalGid := some expected.gid }

end

/-- `create_vendor_with_intent_unlocked_hook`. -/
def createVendorWithIntent (service : String) (root : VendorRoot)
    (expected : FileIdentity) (content : Bytes) : Action Unit := do
  if mutation.service ≠ service ∨ expected.sha256 ≠ mutation.originalSha256 ∨
      P.sha256 (.bytes content) ≠ mutation.installedSha256 then
    Prog.fail ⟨.invalidInput, "vendor creation does not match its transaction plan"⟩
  else do
    let kind := vendorCreateKind
    let intent := vendorCreateIntent P mutation expected content
    let temp := kind.temp mutation.operation
    let intentIdentity ←
      atomicStateCreate P (.intent .vendorCreate mutation.operation) (.intent intent)
    match ← (createOverride P service root expected content temp).attempt with
    | .error e => concludeMutation P kind intent intentIdentity none (.error e)
    | .ok replacement =>
      match ← (bindReplacement P .vendorCreate intent temp replacement
          kind.ambiguousTemp).attempt with
      | .error e => concludeMutation P kind intent intentIdentity none (.error e)
      | .ok publication => do
        let result ← Prog.attempt do
          publishOverride P service root expected temp replacement
          validatePublishedPath P service publication.binding
            "published vendor override changed before intent cleanup"
        concludeMutation P kind intent intentIdentity (some publication) result

end Facelock.Store
