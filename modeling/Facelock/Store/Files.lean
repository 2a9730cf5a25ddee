import Facelock.Lib.Crash
import Facelock.Lib.Directory
import Facelock.Pam.Document

/-!
# The files that a PAM change touches

The names, file contents and directory operations under `BackupStore` of
`crates/facelock-cli/src/commands/pam.rs`.  Two directories are modelled
as one map: the state directory and the PAM override directory.  A name
is a constructor with the parts that the source formats into it, so two
names are equal only if the source's strings are; the one thing this
loses is a service that is itself named like a file of the store, with
the prefix `.facelock-`.

A state file holds the value that the source encodes as JSON.  A value
stands for its one encoding by `serde_json::to_vec_pretty`, and any other
bytes are `Content.bytes`.  Encodings are taken to be below the limits
for records and journals, which the length limit of file names ensures;
the limits are checked on raw bytes.

Every create, rename, exchange and unlink is one atomic durable step, so
the calls that flush a directory are not modelled.
-/

namespace Facelock.Store

open Facelock.Crash
open Facelock.Pam (Bytes)

/-! ## Names -/

/-- A backup name `service.seconds-nanoseconds`. -/
structure BackupName where
  service : String
  seconds : Nat
  nanoseconds : Nat
  deriving DecidableEq, Repr

/-- A remove-all operation `seconds-nanoseconds`. -/
structure Operation where
  seconds : Nat
  nanoseconds : Nat
  deriving DecidableEq, Repr

inductive IntentRole where
  | prepare
  | commit
  | cleanup
  | pamReplace
  | pamRemove
  | vendorCreate
  deriving DecidableEq, Repr

inductive PublicationRole where
  | commit
  | pamReplace
  | pamRemove
  | vendorCreate
  deriving DecidableEq, Repr

def PublicationRole.intentRole : PublicationRole → IntentRole
  | .commit => .commit
  | .pamReplace => .pamReplace
  | .pamRemove => .pamRemove
  | .vendorCreate => .vendorCreate

/-- The digest of a content.  `sha256_hex` gives 64 hexadecimal digits;
here a digest is a number, so `valid_sha256` holds of every digest. -/
abbrev Digest := Nat

/-- The reserved names of the machine-wide cleanup. -/
inductive BatchName where
  | journal (operation : Operation)
  | commit (operation : Operation)
  deriving DecidableEq, Repr

/-- A name in the state directory, other than the reserved ones of the
machine-wide cleanup. -/
inductive StateName where
  | backup (backup : BackupName)
  | record (backup : BackupName)
  | intent (role : IntentRole) (backup : BackupName)
  | publication (role : PublicationRole) (backup : BackupName)
  | quarantineBackup (backup : BackupName)
  | quarantineRecord (backup : BackupName)
  | commitExchange (backup : BackupName)
  | temp (destination : StateName) (sha256 : Digest) (stamp : Nat)
  | batchTemp (destination : BatchName) (sha256 : Digest) (stamp : Nat)
  | foreign (name : String)
  deriving DecidableEq, Repr

/-- A name in the PAM override directory. -/
inductive PamName where
  | service (service : String)
  | pamReplace (backup : BackupName)
  | pamRemove (operation : BackupName)
  | vendorRetire (operation : BackupName)
  | vendorCreate (operation : BackupName)
  deriving DecidableEq, Repr

inductive Name where
  | state (name : StateName)
  | pam (name : PamName)
  deriving DecidableEq, Repr

def StateName.isJson : StateName → Bool
  | .record _ | .intent _ _ | .publication _ _ | .quarantineRecord _ | .commitExchange _ => true
  | .backup _ | .quarantineBackup _ | .temp _ _ _ | .batchTemp _ _ _ => false
  | .foreign name => name.endsWith ".json"

/-- `confined`: one path component. -/
def confined (service : String) : Bool :=
  service ≠ "" && service ≠ "." && service ≠ ".." &&
    service.toList.all fun c => c ≠ '/' && c ≠ '\x00'

def validBackupName (service : String) (backup : BackupName) : Bool :=
  backup.service = service && backup.seconds < 2 ^ 64 && backup.nanoseconds < 1000000000

/-! ## Contents -/

inductive ProvenanceState where
  | prepared
  | committed
  deriving DecidableEq, Repr

structure ProvenanceRecord where
  version : Nat
  sequence : Nat
  state : ProvenanceState
  service : String
  backup : BackupName
  originalSha256 : Digest
  installedSha256 : Digest
  deriving DecidableEq, Repr

structure StateIntent where
  version : Nat
  role : IntentRole
  sequence : Nat
  service : String
  backup : BackupName
  originalSha256 : Digest
  installedSha256 : Digest
  recordSha256 : Option Digest
  replacementRecordSha256 : Option Digest
  originalDevice : Option Nat
  originalInode : Option Nat
  originalLinks : Option Nat
  originalMode : Option Nat
  originalUid : Option Nat
  originalGid : Option Nat

structure FileIdentity where
  device : Nat
  inode : Nat
  links : Nat
  sha256 : Digest
  mode : Nat
  uid : Nat
  gid : Nat
  deriving DecidableEq, Repr

structure PublicationBinding where
  version : Nat
  role : PublicationRole
  sequence : Nat
  service : String
  backup : BackupName
  intentSha256 : Digest
  device : Nat
  inode : Nat
  links : Nat
  sha256 : Digest
  mode : Nat
  uid : Nat
  gid : Nat

structure RemoveAllJournalTarget where
  service : String
  backup : BackupName
  original : FileIdentity
  installedSha256 : Digest
  deleteOverride : Option Bool
  deriving DecidableEq, Repr

structure RemoveAllJournal where
  version : Nat
  operation : Operation
  keepBackup : Bool
  targets : List RemoveAllJournalTarget

structure RemoveAllCommittedTarget where
  service : String
  backup : BackupName
  installed : FileIdentity
  deleteOverride : Option Bool

structure RemoveAllCommit where
  version : Nat
  operation : Operation
  journalSha256 : Digest
  keepBackup : Bool
  targets : List RemoveAllCommittedTarget

inductive Content where
  | bytes (raw : Bytes)
  | record (record : ProvenanceRecord)
  | intent (intent : StateIntent)
  | binding (binding : PublicationBinding)
  | journal (journal : RemoveAllJournal)
  | commit (commit : RemoveAllCommit)

/-- Whether a content is within a size limit. -/
def Content.fits (limit : Nat) : Content → Bool
  | .bytes raw => raw.length ≤ limit
  | _ => true

def provenanceVersion : Nat := 1

def maxTimestampCollisionProbes : Nat := 4096

def maxRecordBytes : Nat := 16384

def maxBackupBytes : Nat := 1048576

/-! ## Files and errors -/

def isRegularMode (mode : Nat) : Bool :=
  mode / 4096 % 16 = 8

/-- A regular file.  `mode` is the sixteen bits of `st_mode`, of which the
upper four are `S_IFREG`. -/
structure File where
  device : Nat
  inode : Nat
  links : Nat
  mode : Nat
  uid : Nat
  gid : Nat
  content : Content
  regular : mode / 4096 = 8

/-- A directory entry: a regular file, or a link, directory or device
that no function of the store opens. -/
inductive Entry where
  | regular (file : File)
  | irregular

/-- The state directory, without the reserved names of the machine-wide
cleanup, and the override directory. -/
abbrev Files := Dir Name Entry

abbrev Batch := Dir BatchName Entry

/-- The largest `Duration`, in nanoseconds, plus one. -/
def durationLimit : Nat := 1000000000 * 2 ^ 64

/-- A `Duration` since the epoch. -/
structure Duration where
  nanoseconds : Nat
  bounded : nanoseconds < durationLimit

def epoch : Duration := ⟨0, by decide⟩

inductive ErrorKind where
  | notFound
  | alreadyExists
  | invalidInput
  | invalidData
  | interrupted
  | other
  /-- An `other` error that holds an `AmbiguousPublication`. -/
  | ambiguous
  deriving DecidableEq, Repr

structure IoError where
  kind : ErrorKind
  message : String
  deriving DecidableEq, Repr

def IoError.notFound : IoError := ⟨.notFound, "No such file or directory"⟩
def IoError.alreadyExists : IoError := ⟨.alreadyExists, "File exists"⟩
def IoError.other (message : String) : IoError := ⟨.other, message⟩

def ambiguousPublication (message : String) : IoError := ⟨.ambiguous, message⟩

def isAmbiguousPublication (e : IoError) : Bool := e.kind = .ambiguous

/-- A program on the two directories. -/
abbrev Action := Prog Files IoError

/-! ## The platform -/

/-- What the operating system and the hash function contribute: the
digest, which no two contents share; the inode of a new file, which no
linked file has; the process id and clock reading in a temporary name,
which no other temporary name has; the clock and the date; the order in
which a directory is read; the owner that state files have; and the
devices of the two directories. -/
structure Platform where
  sha256 : Content → Digest
  sha256_injective : Function.Injective sha256
  freshInode : Files → Nat
  freshInode_unused : ∀ (files : Files) name file,
    files.get name = some (.regular file) → file.inode ≠ freshInode files
  stamp : Files → Nat
  stamp_unused : ∀ (files : Files) destination digest,
    files.get (.state (.temp destination digest (stamp files))) = none
  batchStamp_unused : ∀ (files : Files) destination digest,
    files.get (.state (.batchTemp destination digest (stamp files))) = none
  clock : Files → Duration
  today : Files → Bytes
  readDir : Files → List StateName
  mem_readDir : ∀ (files : Files) name, name ∈ readDir files ↔ files.get (.state name) ≠ none
  nodup_readDir : ∀ files, (readDir files).Nodup
  readPam : Files → List PamName
  readBatch : Batch → List BatchName
  mem_readBatch : ∀ (batch : Batch) name, name ∈ readBatch batch ↔ batch.get name ≠ none
  expectedOwner : Nat × Nat
  stateDevice : Nat
  pamDevice : Nat

variable (P : Platform)

variable (file : File)

def File.identity : FileIdentity where
  device := file.device
  inode := file.inode
  links := file.links
  sha256 := P.sha256 file.content
  mode := file.mode
  uid := file.uid
  gid := file.gid

/-! ## Reading -/

variable (name : Name)

def openRegularAt (files : Files) : Except IoError File :=
  match files.get name with
  | none => .error .notFound
  | some .irregular => .error ⟨.invalidData, "PAM service is not a regular file"⟩
  | some (.regular file) =>
    if file.links = 1 then .ok file
    else .error ⟨.invalidData, "PAM service has " ++ toString file.links ++ " hard links"⟩

def readOpenBounded (limit : Nat) : Except IoError Content :=
  if file.content.fits limit then .ok file.content
  else .error ⟨.invalidData, "state file exceeds size limit"⟩

def identityOfOpenBounded (limit : Nat) : Except IoError FileIdentity :=
  match readOpenBounded file limit with
  | .ok _ => .ok (file.identity P)
  | .error e => .error e

def openIdentityAt (limit : Nat) (files : Files) : Except IoError (Option FileIdentity) :=
  match openRegularAt name files with
  | .ok file =>
    match identityOfOpenBounded P file limit with
    | .ok identity => .ok (some identity)
    | .error e => .error e
  | .error e => if e.kind = .notFound then .ok none else .error e

/-- `entry_exists_at`, and `symlink_metadata(..).is_ok()`. -/
def entryExistsAt (files : Files) : Bool :=
  (files.get name).isSome

/-- `read_regular_nofollow` of a service in the override directory. -/
def readRegularNofollow (service : String) (files : Files) :
    Except IoError (Content × FileIdentity) :=
  match openRegularAt (.pam (.service service)) files with
  | .ok file =>
    match readOpenBounded file maxBackupBytes with
    | .ok content => .ok (content, file.identity P)
    | .error e => .error e
  | .error e => .error e

def identityMatches (expected actual : FileIdentity) : Bool := expected = actual

def stateIdentityMatches (identity : FileIdentity) (expectedSha256 : Digest) : Bool :=
  identity.sha256 = expectedSha256 && identity.links = 1 && identity.mode % 4096 = 384 &&
    (identity.uid, identity.gid) = P.expectedOwner

/-- The test on mode and owner that the scans of the state directory
make. -/
def ownedStateFile : Bool :=
  file.mode % 4096 = 384 && (file.uid, file.gid) = P.expectedOwner

/-! ## Atomic steps -/

def create (file : File) : Action Unit :=
  Prog.act fun files =>
    if (files.get name).isSome then .error .alreadyExists
    else .ok (files.set name (.regular file))

def unlink : Action Unit :=
  Prog.act fun files =>
    if (files.get name).isSome then .ok (files.remove name) else .error .notFound

def renameNoreplaceAt (source destination : Name) : Action Unit :=
  Prog.act fun files =>
    match files.get source with
    | none => .error .notFound
    | some entry =>
      if (files.get destination).isSome then .error .alreadyExists
      else .ok (files.rename source destination entry)

def renameExchangeAt (left right : Name) : Action Unit :=
  Prog.act fun files =>
    match files.get left, files.get right with
    | some leftEntry, some rightEntry =>
      .ok (files.exchange left right leftEntry rightEntry)
    | _, _ => .error .notFound

/-! ## State files -/

def unlinkAtIfIdentityMatches (expected : FileIdentity) (limit : Nat) : Action Unit := do
  let file ← Prog.read (openRegularAt name)
  let actual ← Prog.ofResult (identityOfOpenBounded P file limit)
  if !identityMatches expected actual then
    Prog.fail (.other "state entry changed before owned cleanup")
  else
    unlink name

def unlinkStateIfIdentityMatches (name : StateName) (expected : FileIdentity) : Action Unit :=
  unlinkAtIfIdentityMatches P (.state name) expected
    (if name.isJson then maxRecordBytes else maxBackupBytes)

/-- The file that the store creates for a content: mode `0600`, and the
owner of the store. -/
def newStateFile (content : Content) (files : Files) : File where
  device := P.stateDevice
  inode := P.freshInode files
  links := 1
  mode := 33152
  uid := P.expectedOwner.1
  gid := P.expectedOwner.2
  content := content
  regular := by decide

/-- The temporary name that `atomic_state_publish` picks. -/
def tempName (name : StateName) (content : Content) (files : Files) : Name :=
  .state (.temp name (P.sha256 content) (P.stamp files))

/-- `atomic_state_publish`: write a temporary file and move it to a name
that must be free. -/
def atomicStateCreate (name : StateName) (content : Content) : Action FileIdentity := do
  let temp ← Prog.read fun files => .ok (tempName P name content files)
  let file ← Prog.read fun files => .ok (newStateFile P content files)
  create temp file
  match ← (renameNoreplaceAt temp (.state name)).attempt with
  | .ok _ => pure (file.identity P)
  | .error e =>
    let _ ← (unlinkAtIfIdentityMatches P temp (file.identity P) maxBackupBytes).attempt
    Prog.fail e

def cleanupUnpublishedTemp (expected : FileIdentity) (limit : Nat)
    (ambiguousMessage : String) : Action Unit := do
  match ← (unlinkAtIfIdentityMatches P name expected limit).attempt with
  | .ok _ => pure ()
  | .error _ => Prog.fail (ambiguousPublication ambiguousMessage)

end Facelock.Store
