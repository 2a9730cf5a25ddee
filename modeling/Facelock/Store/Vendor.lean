import Facelock.Store.Operations

/-!
# Local copies of vendor service files

A service that exists only as a package file is copied into the override
directory before it is changed.  This module models what
`crates/facelock-cli/src/commands/pam.rs` knows about such copies: the
shape of a copy that nobody has edited (`exact_vendor_override_shape`),
and the retirement of one (`retire_vendor_override_with_hook`), which
moves the copy to a quarantine name before it deletes it.

The vendor directories are only read, so they are a parameter and not
part of the state.
-/

namespace Facelock.Store

open Facelock.Crash
open Facelock.Pam

/-- One vendor directory: its path and the entry under each service name.
A directory that does not exist has no entries. -/
structure VendorRoot where
  path : Bytes
  lookup : String → Option Entry

/-- The search path after the override directory. -/
structure PamDirs where
  vendors : List VendorRoot

variable (P : Platform) (dirs : PamDirs)

structure ResolvedVendor where
  path : Bytes
  content : Bytes
  identity : FileIdentity

/-- The bytes of a file.  A state value has no bytes of its own in this
model, and no state value lies in a PAM directory. -/
def Content.rawBytes : Content → Bytes
  | .bytes raw => raw
  | _ => []

/-- `base.join(name)`, for a name that is not absolute. -/
def joinPath (base name : Bytes) : Bytes :=
  if base.getLast?.all (· = 47) then base ++ name else base ++ 47 :: name

/-- `root.join(service)`. -/
def VendorRoot.servicePath (root : VendorRoot) (service : String) : Bytes :=
  joinPath root.path service.toUTF8.toList

/-- The components of a path.  Two slashes have an empty one between them. -/
def pathComponents (path : Bytes) : List Bytes :=
  (Lines.split 47 path).map (·.filter (· ≠ 47))

/-- The loop of `normalized_configured_path`.  The path that it builds is
the list of its names. -/
def normalizeNames : List Bytes → List Bytes → Option (List Bytes)
  | names, [] => some names
  | names, component :: rest =>
    if component = [] ∨ component = ascii "." then normalizeNames names rest
    else if component = ascii ".." then
      if names = [] then none else normalizeNames names.dropLast rest
    else normalizeNames (names ++ [component]) rest

def normalizedConfiguredPath (path : Bytes) : Option Bytes :=
  if path.head? = some 47 then
    (normalizeNames [] (pathComponents path)).map fun names => names.foldl joinPath (ascii "/")
  else none

/-- The loop of `resolve_current_vendor`: the first entry wins. -/
def resolveIn (service : String) : List VendorRoot → Except IoError (Option ResolvedVendor)
  | [] => .ok none
  | root :: roots =>
    match root.lookup service with
    | none => resolveIn service roots
    | some .irregular => .error ⟨.invalidData, "PAM service is not a regular file"⟩
    | some (.regular file) =>
      if file.links = 1 then
        match readOpenBounded file maxBackupBytes with
        | .ok content =>
          .ok (some
            { path := root.servicePath service
              content := content.rawBytes
              identity := file.identity P })
        | .error e => .error e
      else .error ⟨.invalidData, "PAM service has " ++ toString file.links ++ " hard links"⟩

variable (service : String)

def resolveCurrentVendor : Except IoError (Option ResolvedVendor) :=
  if confined service then resolveIn P service dirs.vendors
  else .error ⟨.invalidInput, "invalid PAM service name"⟩

def vendorOverrideHeaderSuffix : Bytes :=
  ascii "# This local override shadows the vendor file and will not track vendor updates.\n"

/-- The index of the last window `part` of a list. -/
def lastWindow (part : Bytes) (bytes : Bytes) : Option Nat :=
  (List.range bytes.length).reverse.find? fun i => (bytes.drop i).take part.length = part

def isAsciiDigit (byte : UInt8) : Bool := 48 ≤ byte && byte ≤ 57

def isAsciiAlphanumeric (byte : UInt8) : Bool :=
  isAsciiDigit byte || (65 ≤ byte && byte ≤ 90) || (97 ≤ byte && byte ≤ 122)

def versionOk (version : Bytes) : Bool :=
  !version.isEmpty &&
    version.all fun byte => isAsciiAlphanumeric byte || byte = 46 || byte = 45 || byte = 43

def dateOk (date : Bytes) : Bool :=
  date.length = 10 &&
    (date.zipIdx.all fun (byte, index) =>
      if index = 4 || index = 7 then byte = 45 else isAsciiDigit byte)

/-- `bytes.strip_prefix(start)`. -/
def stripStart (start bytes : Bytes) : Option Bytes :=
  if start <+: bytes then some (bytes.drop start.length) else none

/-- `bytes.strip_suffix(ending)`. -/
def stripEnd (ending bytes : Bytes) : Option Bytes :=
  if ending <:+ bytes then some (bytes.take (bytes.length - ending.length)) else none

/-- `vendor_override_payload`: what stands below the two header lines. -/
def vendorOverridePayload (content vendor : Bytes) : Option Bytes := do
  let firstEnd := (← content.findIdx? (· == newline)) + 1
  let secondEnd := firstEnd + (← (content.drop firstEnd).findIdx? (· == newline)) + 1
  if slice content firstEnd secondEnd ≠ vendorOverrideHeaderSuffix then none
  else
    let rest ← stripStart (ascii "# Copied from " ++ vendor ++ ascii " by facelock ")
      (content.take firstEnd)
    let rest ← stripEnd (ascii ".\n") rest
    let separator ← lastWindow (ascii " on ") rest
    if versionOk (rest.take separator) && dateOk (rest.drop (separator + 4)) then
      some (content.drop secondEnd)
    else none

def exactVendorOverrideShape (content : Bytes) (identity : FileIdentity)
    (vendor : ResolvedVendor) : Bool :=
  let withoutLine := withLineRemoved content
  match vendorOverridePayload withoutLine vendor.path with
  | none => false
  | some payload =>
    let headerLen := withoutLine.length - payload.length
    let emitted := withoutLine.take headerLen ++ withLineInserted vendor.content
    (content = withoutLine || content = emitted) && payload = vendor.content &&
      !hasFacelockRule vendor.content &&
      (identity.mode, identity.uid, identity.gid) =
        (vendor.identity.mode, vendor.identity.uid, vendor.identity.gid)

def currentVendorOverrideMatches (content : Bytes) (identity : FileIdentity)
    (requireRestartShape : Bool) : Except IoError Bool :=
  match resolveCurrentVendor P dirs service with
  | .error e => .error e
  | .ok none => .ok false
  | .ok (some vendor) =>
    .ok (exactVendorOverrideShape content identity vendor &&
      (!requireRestartShape || !hasFacelockRule content))

/-- `read_regular_at_bounded` in the override directory. -/
def readRegularAtBounded (name : PamName) (limit : Nat) (files : Files) :
    Except IoError (Option (Content × FileIdentity)) :=
  match openRegularAt (.pam name) files with
  | .ok file =>
    match readOpenBounded file limit with
    | .ok content => .ok (some (content, file.identity P))
    | .error e => .error e
  | .error e => if e.kind = .notFound then .ok none else .error e

/-! ## Retirement -/

/-- A read whose every error becomes one ambiguous error. -/
def readOrAmbiguous {α : Type} (f : Files → Except IoError α) (message : String) : Action α :=
  Prog.read fun files =>
    match f files with
    | .ok value => .ok value
    | .error _ => .error (ambiguousPublication message)

variable (quarantine : PamName) (expected : FileIdentity)

def restoreVendorQuarantine : Action Unit := do
  let canonical ← readOrAmbiguous (openIdentityAt P (.pam (.service service)) maxBackupBytes)
    "vendor override canonical name became ambiguous during restore"
  if canonical.isSome then
    Prog.fail (ambiguousPublication
      "vendor override could not be restored without overwriting a concurrent file")
  else
    match ← (renameNoreplaceAt (.pam quarantine) (.pam (.service service))).attempt with
    | .error _ =>
      Prog.fail (ambiguousPublication "vendor override quarantine could not be restored durably")
    | .ok _ => do
      let restored ← readOrAmbiguous (openIdentityAt P (.pam (.service service)) maxBackupBytes)
        "restored vendor override could not be verified"
      match restored with
      | none => Prog.fail (ambiguousPublication "restored vendor override disappeared")
      | some restored =>
        if identityMatches expected restored then pure ()
        else Prog.fail (ambiguousPublication "restored vendor override identity became ambiguous")

def validateVendorQuarantine (files : Files) : Except IoError Bool :=
  match readRegularAtBounded P quarantine maxBackupBytes files with
  | .error e => .error e
  | .ok none => .ok false
  | .ok (some (content, quarantined)) =>
    if identityMatches expected quarantined then
      match openIdentityAt P (.pam (.service service)) maxBackupBytes files with
      | .error e => .error e
      | .ok (some _) => .ok false
      | .ok none =>
        currentVendorOverrideMatches P dirs service content.rawBytes quarantined true
    else .ok false

def declineVendorRetirement (reason : String) : Action Unit := do
  let quarantined ← readOrAmbiguous (openIdentityAt P (.pam quarantine) maxBackupBytes)
    "vendor override quarantine could not be authenticated for restore"
  let canonical ← readOrAmbiguous (openIdentityAt P (.pam (.service service)) maxBackupBytes)
    "vendor override canonical name became ambiguous before restore"
  if canonical.isNone && quarantined = some expected then do
    restoreVendorQuarantine P service quarantine expected
    Prog.fail (.other reason)
  else
    Prog.fail (ambiguousPublication "vendor override quarantine state became ambiguous")

/-- The first half of `retire_vendor_override_with_hook`: bring the copy to
its quarantine name.  The result says whether there is anything to
delete. -/
def quarantineVendorOverride (operation : BackupName) (expected : FileIdentity) : Action Bool := do
  let quarantine := PamName.vendorRetire operation
  let existing ← readOrAmbiguous (readRegularAtBounded P quarantine maxBackupBytes)
    "vendor override quarantine could not be inspected"
  match existing with
  | some (_, quarantined) =>
    if identityMatches expected quarantined then pure true
    else Prog.fail (ambiguousPublication
      "vendor override quarantine is not the published removal inode")
  | none => do
    let current ← readOrAmbiguous (openIdentityAt P (.pam (.service service)) maxBackupBytes)
      "vendor override canonical name could not be inspected"
    match current with
    | none => pure false
    | some current =>
      if identityMatches expected current then
        match ← (renameNoreplaceAt (.pam (.service service)) (.pam quarantine)).attempt with
        | .ok _ => pure true
        | .error e =>
          Prog.fail (ambiguousPublication
            (if e.kind = .alreadyExists then "vendor override quarantine name already exists"
              else "vendor override could not be quarantined durably"))
      else
        Prog.fail (ambiguousPublication "vendor override changed before quarantine")

/-- `matches!(validate_vendor_quarantine(..), Ok(true))`. -/
def vendorQuarantineValid (files : Files) : Bool :=
  match validateVendorQuarantine P dirs service quarantine expected files with
  | .ok true => true
  | _ => false

def retireVendorOverride (operation : BackupName) (expected : FileIdentity) : Action Unit := do
  if !confined service then Prog.fail ⟨.invalidInput, "invalid service"⟩
  else if !validBackupName service operation then
    Prog.fail ⟨.invalidInput, "invalid vendor-retirement operation"⟩
  else do
    let quarantine := PamName.vendorRetire operation
    let started ← quarantineVendorOverride P service operation expected
    if !started then pure ()
    else do
      let initiallyValid ← Prog.read fun files =>
        .ok (vendorQuarantineValid P dirs service quarantine expected files)
      if !initiallyValid then
        declineVendorRetirement P service quarantine expected
          "vendor override or current vendor source changed before cleanup"
      else do
        let finallyValid ← Prog.read fun files =>
          .ok (vendorQuarantineValid P dirs service quarantine expected files)
        if !finallyValid then
          declineVendorRetirement P service quarantine expected
            "vendor override or current vendor source changed before final cleanup"
        else
          match ← (unlinkAtIfIdentityMatches P (.pam quarantine) expected
              maxBackupBytes).attempt with
          | .ok _ => pure ()
          | .error _ =>
            Prog.fail (ambiguousPublication
              "vendor override quarantine could not be authenticated")

end Facelock.Store
