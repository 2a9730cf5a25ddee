import Facelock.Lib.Interference
import Facelock.Purge.Filesystem
import Facelock.Purge.Report

/-!
# The purge engine

The traversal and deletion engine, call by call.  Every system call is one
`call` of `Lib.Interference`, so other processes act between any two of
them and any of them can fail.  What a directory stream lists is a choice
of the schedule: entries may come and go while a directory is read, so a
stream may list anything.  The interrupt flag is another choice.

`Pass` is a program on a `Machine`: the filesystem, the reporter, and a
trace.  The trace is what the kernel did for the pass: which object was
inspected, opened, moved or unlinked under which name, with the logical
path that the pass was working on.  Nothing of the engine reads it.

A file and a directory are deleted by the same protocol.  The name is moved
to a quarantine name, the object is proven again there, and only then
unlinked; else it is moved back.  `deleteQuarantined` is that protocol after
the first move, with what differs in `EntryFlavor`.

The loop of `purge_root` takes fuel.  One unit is one iteration, so the
states it passes through are its results for smaller amounts.
-/

namespace Facelock.Purge

open Interference

/-! ## What the pass knows beforehand -/

structure MountTable where
  ids : List Nat
  mountpoints : List Path

namespace MountTable

def containsId (mounts : MountTable) (id : Nat) : Bool := decide (id ∈ mounts.ids)

def isMountpoint (mounts : MountTable) (actual : Path) : Bool :=
  decide (actual ∈ mounts.mountpoints)

end MountTable

structure PurgeOptions where
  /-- The directory that stands in for `/` in a test. -/
  testPrefix : Option Path := none
  trustedUid : Nat := 0
  trustedGid : Nat := 0
  maxDepth : Nat := 64
  maxNodes : Nat := 10000

/-- What the classification of `config.toml` found. -/
structure ConfigFindings where
  external : List (String × String)
  notes : List String

structure Ctx where
  options : PurgeOptions
  mounts : MountTable
  /-- `String::from_utf8_lossy` on a name that is not valid UTF-8. -/
  replaced : List UInt8 → String
  /-- `config_scan::classify_config`. -/
  classifyConfig : List UInt8 → ConfigFindings

def purgeRoots : List Path :=
  [["etc", "facelock"], ["var", "lib", "facelock"], ["var", "log", "facelock"]]

def pamBackupsLogical : Path := ["var", "lib", "facelock", "pam-backups"]

def enrolledDirLogical : Path := ["var", "lib", "facelock", "enrolled"]

def maxConfigBytes : Nat := 1024 * 1024

def maxQuarantineAttempts : Nat := 32

def interruptedDetail : String :=
  "purge interrupted; entries in this root that were not yet processed are retained"

/-! ## Trust -/

section

variable (node : Node) (logical : Path)

def isDirectEnrollmentMarker : Bool :=
  match logical.getLast? with
  | none => false
  | some name => decide (logical = enrolledDirLogical ++ [name]) && name != ""

def trustedDirectory (st : Stat) (trustedUid trustedGid : Nat) : Bool :=
  st.isDir && st.uid == trustedUid && st.gid == trustedGid && st.mode &&& 0o022 == 0

def trustedRegular (st : Stat) (trustedUid trustedGid : Nat) : Bool :=
  if !st.isRegular || st.nlink != 1 then false
  else if isDirectEnrollmentMarker logical then st.mode &&& 0o077 == 0
  else st.uid == trustedUid && st.gid == trustedGid && st.mode &&& 0o022 == 0

namespace Ctx

variable (ctx : Ctx)

def trustedDirectory (st : Stat) : Bool :=
  Purge.trustedDirectory st ctx.options.trustedUid ctx.options.trustedGid

def trustedRegular (logical : Path) (st : Stat) : Bool :=
  Purge.trustedRegular logical st ctx.options.trustedUid ctx.options.trustedGid

def lossyName : Name → String
  | .text characters => characters
  | .raw bytes => ctx.replaced bytes

def isMountpoint (logical : Path) : Bool :=
  ctx.mounts.isMountpoint (ctx.options.testPrefix.getD [] ++ logical)

end Ctx

def parentLogical : Path := logical.dropLast

/-! ## The machine -/

/-- What the kernel did for the pass. -/
inductive Event where
  | entered (root : Path) (node : Node)
  | inspected (logical : Path) (dir : Node) (name : Name) (seen : Stat)
  | opened (logical : Path) (dir : Node) (name : Name) (node : Node)
  /-- The PAM rollback directory was read and had an entry. -/
  | foundRollback (node : Node)
  | quarantined (logical : Path) (dir : Node) (name qname : Name) (node : Node)
  | restored (logical : Path) (dir : Node) (qname name : Name) (node : Node)
  | unlinked (logical : Path) (kind : RemovedKind) (dir : Node) (qname : Name) (node : Node)
  deriving DecidableEq

structure Machine where
  fs : Filesystem
  reporter : Reporter
  trace : List Event

/-- What a call is free to choose. -/
structure Choice where
  /-- What a stream lists of a directory with these entries. -/
  listing : List Name → List Name
  interrupted : Bool

abbrev Pass (α : Type) := Prog Machine Errno Choice α

/-- The schedule in which the other processes make the given moves. -/
def schedule (moves : Nat → List Move) (fails : Nat → Option Errno) (choose : Nat → Choice) :
    Schedule Machine Errno Choice where
  interfere n machine := { machine with fs := (moves n).foldl Filesystem.move machine.fs }
  fails
  choose

def report (f : Reporter → Reporter) : Pass Unit :=
  .update fun machine => ((), { machine with reporter := f machine.reporter })

def remnant (logical : Path) (kind : RemnantKind) (detail : String) : Pass Unit :=
  report fun reporter => reporter.remnant logical kind detail

/-- Report a remnant and refuse. -/
def refuse {α : Type} (value : α) (logical : Path) (kind : RemnantKind) (detail : String) :
    Pass α := do
  remnant logical kind detail
  return value

def isProtected (logical : Path) : Pass Bool :=
  .update fun machine => (machine.reporter.isProtected logical, machine)

def record (event : Event) : Pass Unit :=
  .update fun machine => ((), { machine with trace := machine.trace ++ [event] })

def interrupted : Pass Bool := .observe fun choice _ => choice.interrupted

/-! ## Calls -/

def lstatPath : Pass (Except Errno (Node × Stat)) :=
  .call fun _ machine => (.ok (machine.fs.anchor, machine.fs.stat machine.fs.anchor), machine)

/-- Open the fixed anchor. -/
def openDir : Pass (Except Errno Node) :=
  .call fun _ machine =>
    (.ok machine.fs.anchor, { machine with fs := machine.fs.hold machine.fs.anchor (.inl rfl) })

def lstatAt (dir : Node) (name : Name) : Pass (Except Errno Stat) :=
  .call fun _ machine => (machine.fs.lstatAt dir name, machine)

def fstat : Pass (Except Errno Stat) :=
  .call fun _ machine => (.ok (machine.fs.stat node), machine)

def openDirAt (dir : Node) (name : Name) : Pass (Except Errno Node) :=
  .call fun _ machine =>
    ((machine.fs.openDirAt dir name).1, { machine with fs := (machine.fs.openDirAt dir name).2 })

def openFileAt (dir : Node) (name : Name) : Pass (Except Errno Node) :=
  .call fun _ machine =>
    ((machine.fs.openFileAt dir name).1, { machine with fs := (machine.fs.openFileAt dir name).2 })

def close (node : Node) : Pass Unit :=
  .update fun machine => ((), { machine with fs := machine.fs.close node })

def closeAll : List Node → Pass Unit
  | [] => return ()
  | node :: nodes => do
    close node
    closeAll nodes

def mountId : Pass (Option Nat) := do
  let id ← (.call fun _ machine => (.ok (machine.fs.attributes node).mount, machine) :
    Pass (Except Errno Nat))
  return id.toOption

def renameNoreplace (dir : Node) (source target : Name) (event : Node → Event) :
    Pass (Except Errno Unit) :=
  .call fun _ machine =>
    match machine.fs.renameNoreplace dir source target with
    | (.error e, _) => (.error e, machine)
    | (.ok node, fs) => (.ok (), { machine with fs, trace := machine.trace ++ [event node] })

def unlinkAt (dir : Node) (name : Name) (removeDir : Bool) (event : Node → Event) :
    Pass (Except Errno Unit) :=
  .call fun _ machine =>
    match machine.fs.unlinkAt dir name removeDir with
    | (.error e, _) => (.error e, machine)
    | (.ok node, fs) => (.ok (), { machine with fs, trace := machine.trace ++ [event node] })

/-- `DirStream::open`: the names that the stream is going to list. -/
def openStream : Pass (Except Errno (List Name)) :=
  .call fun choice machine =>
    (.ok (choice.listing ((machine.fs.entries node).map Link.name)), machine)

/-- `DirStream::next_entry`: the next name, and what comes after it. -/
def nextEntry (pending : List Name) : Pass (Except Errno (Option (Name × List Name))) :=
  .call fun _ machine =>
    match pending with
    | [] => (.ok none, machine)
    | name :: rest => (.ok (some (name, rest)), machine)

def rewind : Pass (List Name) :=
  .observe fun choice machine => choice.listing ((machine.fs.entries node).map Link.name)

def finishStream : Pass (Except Errno Unit) := .call fun _ machine => (.ok (), machine)

def readFile : Pass (Except Errno (List UInt8)) :=
  .call fun _ machine =>
    (.ok ((machine.fs.attributes node).content.take (maxConfigBytes + 1)), machine)

end

/-! ## Pinned directories -/

/-- One pinned component of a directory chain. -/
structure ChainLink where
  parent : Node
  handle : Node
  name : Name
  before : Stat
  mountId : Nat

/-- A root with its fixed anchor and every component down to it. -/
structure OpenedRoot where
  base : Node
  baseBefore : Stat
  baseMountId : Nat
  chain : List ChainLink
  root : Node
  before : Stat
  mountId : Nat
  dev : Nat
  logical : Path

/-- One directory that is being read. -/
structure Frame where
  handle : Node
  pending : List Name
  /-- The parent's descriptor and the name there; the root has none. -/
  place : Option (Node × Name)
  logical : Path
  before : Stat
  depth : Nat
  childrenRemoved : Bool
  pathChain : List ChainLink

namespace Ctx

variable (ctx : Ctx)

def provenMountId (node : Node) : Pass (Option Nat) := do
  match ← mountId node with
  | none => return none
  | some id =>
    if ctx.options.testPrefix.isSome || ctx.mounts.containsId id then return some id
    else return none

/-- Give up a chain that was opened so far. -/
def abandon {α : Type} (nodes : List Node) : Pass (Option α) := do
  closeAll nodes
  return none

/-- The components of a fixed root, from `parent` on.  `opened` are the
descriptors so far, the last one first. -/
def openComponents (logical : Path) (opened : List Node) :
    List String → Path → Node → Nat → List ChainLink → Pass (Option (List ChainLink))
  | [], _, _, _, chain => return some chain
  | part :: parts, above, parent, parentMountId, chain => do
    let component := above ++ [part]
    match ← lstatAt parent (.text part) with
    | .error e =>
      if e.isNotFound then abandon opened
      else
        remnant component .inaccessible ("cannot inspect fixed path component: " ++ e.text)
        abandon opened
    | .ok before =>
      if before.isSymlink then
        remnant component .symbolicLink "fixed path component is a symbolic link"
        abandon opened
      else if !ctx.trustedDirectory before then
        remnant component .untrustedOwnershipOrMode
          "fixed path component is not a trusted directory"
        abandon opened
      else
        match ← openDirAt parent (.text part) with
        | .error e =>
          remnant component .inaccessible ("cannot open fixed path component: " ++ e.text)
          abandon opened
        | .ok handle =>
          let st ← fstat handle
          if !st.toOption.any before.sameDirectoryIdentity then
            remnant component .changedDuringTraversal
              "fixed path component changed while it was opened"
            abandon (handle :: opened)
          else
            match ← ctx.provenMountId handle with
            | none =>
              remnant component .mountBoundary "cannot prove fixed path component mount identity"
              abandon (handle :: opened)
            | some mount =>
              -- Only the root itself must not be a mount point.
              if parts.isEmpty && (mount != parentMountId || ctx.isMountpoint logical) then
                remnant logical .mountBoundary "root is a mount point"
                abandon (handle :: opened)
              else
                openComponents logical (handle :: opened) parts component handle mount
                  (chain ++ [{ parent, handle, name := .text part
                               before := st.toOption.getD before, mountId := mount }])

def openFixedRoot (logical : Path) : Pass (Option OpenedRoot) := do
  match ← lstatPath with
  | .error e =>
    refuse none logical .inaccessible ("cannot inspect fixed traversal anchor: " ++ e.text)
  | .ok (_, baseSeen) =>
    if baseSeen.isSymlink || !ctx.trustedDirectory baseSeen then
      refuse none logical .untrustedOwnershipOrMode
        "fixed traversal anchor is not a trusted directory"
    else
      match ← openDir with
      | .error e =>
        refuse none logical .inaccessible ("cannot open fixed traversal anchor: " ++ e.text)
      | .ok base =>
        let opened ← fstat base
        if !opened.toOption.any baseSeen.sameDirectoryIdentity then
          remnant logical .changedDuringTraversal
            "fixed traversal anchor changed while it was opened"
          abandon [base]
        else
          match ← ctx.provenMountId base with
          | none =>
            remnant logical .mountBoundary "cannot prove fixed traversal anchor mount identity"
            abandon [base]
          | some baseMountId =>
            match ← ctx.openComponents logical [base] logical [] base baseMountId [] with
            | none => return none
            | some chain =>
              match chain.getLast? with
              | none => abandon [base]
              | some last =>
                return some
                  { base
                    baseBefore := opened.toOption.getD baseSeen
                    baseMountId
                    chain
                    root := last.handle
                    before := last.before
                    mountId := last.mountId
                    dev := last.before.dev
                    logical }

/-- The chain of a root, proven again from its first link on. -/
def fixedChainIsCurrent (root : OpenedRoot) : List ChainLink → Pass Bool
  | [] => return true
  | link :: chain => do
    let named ← lstatAt link.parent link.name
    let opened ← fstat link.handle
    if !(named.toOption.any link.before.sameDirectoryIdentity &&
        opened.toOption.any link.before.sameDirectoryIdentity) then
      refuse false root.logical .changedDuringTraversal "fixed path chain changed before deletion"
    else
      match ← openDirAt link.parent link.name with
      | .error _ =>
        refuse false root.logical .changedDuringTraversal
          "fixed path chain cannot be reopened before deletion"
      | .ok current =>
        let st ← fstat current
        let mount ← ctx.provenMountId current
        close current
        if !(st.toOption.any link.before.sameDirectoryIdentity && mount == some link.mountId) then
          refuse false root.logical .changedDuringTraversal
            "fixed path chain mount changed before deletion"
        else fixedChainIsCurrent root chain

def fixedRootIsCurrent (root : OpenedRoot) : Pass Bool := do
  let named ← lstatPath
  let opened ← fstat root.base
  let mount ← ctx.provenMountId root.base
  if !(named.toOption.any (fun found => root.baseBefore.sameDirectoryIdentity found.2) &&
      opened.toOption.any root.baseBefore.sameDirectoryIdentity &&
      mount == some root.baseMountId) then
    refuse false root.logical .changedDuringTraversal
      "fixed traversal anchor changed before deletion"
  else ctx.fixedChainIsCurrent root root.chain

def traversalChainIsCurrent (logical : Path) : List ChainLink → Pass Bool
  | [] => return true
  | link :: chain => do
    let named ← lstatAt link.parent link.name
    let opened ← fstat link.handle
    let mount ← ctx.provenMountId link.handle
    if !(named.toOption.any link.before.sameDirectoryIdentity &&
        opened.toOption.any link.before.sameDirectoryIdentity &&
        mount == some link.mountId) then
      refuse false logical .changedDuringTraversal "opened descendant path changed before deletion"
    else traversalChainIsCurrent logical chain

/-- Both chains down to the object that is about to be deleted. -/
def chainsAreCurrent (root : OpenedRoot) (chain : List ChainLink) (logical : Path) : Pass Bool := do
  if ← ctx.fixedRootIsCurrent root then ctx.traversalChainIsCurrent logical chain
  else return false

def openedOnRootMount (node : Node) (root : OpenedRoot) (logical : Path) : Pass (Option Nat) := do
  let st ← fstat node
  let mount ← ctx.provenMountId node
  if st.toOption.any (fun st => st.dev == root.dev) && mount == some root.mountId &&
      !ctx.isMountpoint logical then
    return mount
  else refuse none logical .mountBoundary "mount boundary"

/-! ## Quarantine -/

end Ctx

inductive EntryFlavor where
  | file
  | directory
  deriving DecidableEq

namespace EntryFlavor

def noun : EntryFlavor → String
  | file => "entry"
  | directory => "directory"

def sameIdentity : EntryFlavor → Stat → Stat → Bool
  | file => Stat.sameIdentity
  | directory => Stat.sameDirectoryIdentity

def openAt : EntryFlavor → Node → Name → Pass (Except Errno Node)
  | file => openFileAt
  | directory => openDirAt

def removeDir : EntryFlavor → Bool
  | file => false
  | directory => true

def removedKind : EntryFlavor → RemovedKind
  | file => .file
  | directory => .directory

/-- What the report says when the unlink fails. -/
def failure : EntryFlavor → String
  | file => "unlink failed: "
  | directory => "directory removal failed: "

end EntryFlavor

def hexadecimal (n : Nat) : String := String.ofList (Nat.toDigits 16 n)

/-- Two digits at least. -/
def hexadecimalPair (n : Nat) : String :=
  if n < 16 then "0" ++ hexadecimal n else hexadecimal n

def quarantineCandidate (before : Stat) (attempt : Nat) : Name :=
  .text (quarantineStem ++
    (hexadecimal before.dev ++ "-" ++ hexadecimal before.ino ++ "-" ++ hexadecimalPair attempt))

namespace Ctx

variable (ctx : Ctx)

/-- Move the entry to the first candidate that is free. -/
def quarantineAttempts (parent : Node) (name : Name) (logical : Path) (before : Stat) :
    List Nat → Pass (Option Name)
  | [] =>
    refuse none logical .quarantineCollision "no collision-free quarantine name is available"
  | attempt :: attempts => do
    let candidate := quarantineCandidate before attempt
    if candidate = name then quarantineAttempts parent name logical before attempts
    else
      match ← renameNoreplace parent name candidate (.quarantined logical parent name candidate) with
      | .ok () => return some candidate
      | .error e =>
        if e.isExists then
          remnant (parentLogical logical ++ [ctx.lossyName candidate]) .quarantineCollision
            "quarantine name collision"
          quarantineAttempts parent name logical before attempts
        else
          refuse none logical .inaccessible ("cannot quarantine entry atomically: " ++ e.text)

def quarantineEntry (parent : Node) (name : Name) (logical : Path) (before : Stat) :
    Pass (Option Name) :=
  ctx.quarantineAttempts parent name logical before (List.range maxQuarantineAttempts)

def restoreQuarantined (parent : Node) (name qname : Name) (logical : Path) (identity : Stat)
    (flavor : EntryFlavor) : Pass Bool := do
  let qLogical := parentLogical logical ++ [ctx.lossyName qname]
  match ← renameNoreplace parent qname name (.restored logical parent qname name) with
  | .error e =>
    if e.isExists then
      remnant logical .changedDuringTraversal
        ("replacement appeared while the verified " ++ flavor.noun ++ " was quarantined")
      refuse false qLogical .quarantineRetained
        ("quarantined " ++ flavor.noun ++ " retained for recovery")
    else
      refuse false qLogical .quarantineRetained
        ("cannot restore quarantined " ++ flavor.noun ++ " atomically: " ++ e.text)
  | .ok () =>
    let st ← lstatAt parent name
    if !st.toOption.any (flavor.sameIdentity identity) then
      refuse false logical .changedDuringTraversal
        ("restored " ++ flavor.noun ++ " identity is ambiguous")
    else
      refuse true logical .restoredAfterQuarantine
        (flavor.noun ++ " changed during quarantine and was restored")

variable (flavor : EntryFlavor)

/-- Open the quarantined object and prove it to be the inspected one. -/
def proveQuarantined (root : OpenedRoot) (parent : Node) (qname : Name)
    (qLogical : Path) (before : Stat) (qPublic : Option Stat) : Pass (Option Node) := do
  if !qPublic.any (flavor.sameIdentity before) then return none
  else
    match ← flavor.openAt parent qname with
    | .error _ => return none
    | .ok qfd =>
      let st ← fstat qfd
      if !st.toOption.any (flavor.sameIdentity before) then
        close qfd
        return none
      else
        match ← ctx.openedOnRootMount qfd root qLogical with
        | none =>
          close qfd
          return none
        | some _ => return some qfd

/-- Move the object back; the entry stays. -/
def giveBack (parent : Node) (name qname : Name) (logical : Path) (identity : Stat)
    (flavor : EntryFlavor) : Pass Bool := do
  let _ ← ctx.restoreQuarantined parent name qname logical identity flavor
  return false

/-- Whether the inode of an unlinked file is still linked.  A directory is
not asked. -/
def stillLinked (qfd : Node) : Pass Bool :=
  match flavor with
  | .file => do
    let st ← fstat qfd
    return !st.toOption.any fun st => st.nlink == 0
  | .directory => return false

def reportUnlinked (qfd : Node) (logical : Path) : Pass Unit := do
  if ← stillLinked flavor qfd then
    report fun reporter => reporter.externalHardlink logical
  close qfd
  report fun reporter => reporter.removed logical flavor.removedKind

/-- The protocol after the move: prove the object again under its
quarantine name and unlink it, or move it back. -/
def deleteQuarantined (root : OpenedRoot) (parent : Node)
    (name qname : Name) (logical : Path) (before : Stat) (chain : List ChainLink) : Pass Bool := do
  let qLogical := parentLogical logical ++ [ctx.lossyName qname]
  let seen ← lstatAt parent qname
  match ← ctx.proveQuarantined flavor root parent qname qLogical before seen.toOption with
  | none => ctx.giveBack parent name qname logical (seen.toOption.getD before) flavor
  | some qfd =>
    let qIdentity := seen.toOption.getD before
    if !(← ctx.chainsAreCurrent root chain logical) then
      close qfd
      ctx.giveBack parent name qname logical qIdentity flavor
    else
      let final ← lstatAt parent qname
      if !final.toOption.any (flavor.sameIdentity before) then
        close qfd
        ctx.giveBack parent name qname logical (final.toOption.getD qIdentity) flavor
      else
        match ← unlinkAt parent qname flavor.removeDir
            (.unlinked logical flavor.removedKind parent qname) with
        | .error e =>
          let st ← lstatAt parent qname
          close qfd
          match st.toOption.filter (flavor.sameIdentity before) with
          | some st => ctx.giveBack parent name qname logical st flavor
          | none => refuse false qLogical .inaccessible (flavor.failure ++ e.text)
        | .ok () =>
          reportUnlinked flavor qfd logical
          return true

/-! ## Entries -/

/-- The rest of `purge_regular_entry` once the file is open. -/
def purgeOpened (frame : Frame) (name : Name) (logical : Path) (before : Stat)
    (root : OpenedRoot) (opened : Node) : Pass Bool := do
  let parent := frame.handle
  let st ← fstat opened
  if !st.toOption.any before.sameIdentity then
    refuse false logical .changedDuringTraversal "regular file changed while it was opened"
  else
    match ← ctx.openedOnRootMount opened root logical with
    | none => return false
    | some _ =>
      let current ← lstatAt parent name
      if !current.toOption.any before.sameIdentity then
        refuse false logical .changedDuringTraversal "changed before unlink"
      else if !(← ctx.chainsAreCurrent root frame.pathChain logical) then return false
      else
        match ← ctx.quarantineEntry parent name logical before with
        | none => return false
        | some qname =>
          ctx.deleteQuarantined .file root parent name qname logical before frame.pathChain

def purgeRegularEntry (frame : Frame) (name : Name) (logical : Path) (before : Stat)
    (root : OpenedRoot) : Pass Bool := do
  if before.nlink ≠ 1 then refuse false logical .hardLink "hard-linked regular file"
  else if !ctx.trustedRegular logical before then
    refuse false logical .untrustedOwnershipOrMode "wrong owner or unsafe mode"
  else
    match ← openFileAt frame.handle name with
    | .error e => refuse false logical .inaccessible ("cannot open regular file: " ++ e.text)
    | .ok opened =>
      record (.opened logical frame.handle name opened)
      let removed ← ctx.purgeOpened frame name logical before root opened
      close opened
      return removed

end Ctx

inductive ChildOutcome where
  | kept
  | refused
  | descend (frame : Frame)
  | abortRoot

namespace Ctx

variable (ctx : Ctx)

/-- The check on the PAM rollback directory: `none` if it has to stay, else
the stream to go on with. -/
def inspectRollback (node : Node) (logical : Path) (pending : List Name) :
    Pass (Option (List Name)) := do
  match ← nextEntry pending with
  | .error e =>
    refuse none logical .pamRollbackState ("cannot inspect PAM rollback state: " ++ e.text)
  | .ok (some _) =>
    record (.foundRollback node)
    refuse none logical .pamRollbackState "PAM rollback state remains after removal cleanup"
  | .ok none =>
    let pending ← rewind node
    return some pending

/-- What is left to read of a directory.  Only the PAM rollback directory is
looked into beforehand. -/
def pendingOf (node : Node) (logical : Path) (listed : List Name) : Pass (Option (List Name)) :=
  if logical = pamBackupsLogical then inspectRollback node logical listed
  else return some listed

/-- The rest of `process_child` once the directory is open. -/
def descendInto (frame : Frame) (name : Name) (childLogical : Path) (before : Stat)
    (root : OpenedRoot) (handle : Node) : Pass (Option Frame) := do
  let st ← fstat handle
  if !st.toOption.any before.sameDirectoryIdentity then
    refuse none childLogical .changedDuringTraversal "directory changed while it was opened"
  else
    match ← ctx.openedOnRootMount handle root childLogical with
    | none => return none
    | some mount =>
      match ← openStream handle with
      | .error e =>
        refuse none childLogical .inaccessible ("cannot enumerate directory: " ++ e.text)
      | .ok listed =>
        match ← pendingOf handle childLogical listed with
        | none => return none
        | some pending =>
          return some
            { handle
              pending
              place := some (frame.handle, name)
              logical := childLogical
              before
              depth := frame.depth + 1
              childrenRemoved := true
              pathChain := frame.pathChain ++
                [{ parent := frame.handle, handle, name
                   before := st.toOption.getD before, mountId := mount }] }

def processChild (frame : Frame) (name : Name) (childLogical : Path) (root : OpenedRoot) :
    Pass ChildOutcome := do
  match ← lstatAt frame.handle name with
  | .error e =>
    if e.isNotFound then return .kept
    else refuse .refused childLogical .inaccessible ("cannot inspect: " ++ e.text)
  | .ok before =>
    record (.inspected childLogical frame.handle name before)
    if childLogical = pamBackupsLogical ∧ !before.isDir then
      refuse .refused childLogical .pamRollbackState
        "PAM rollback state path is not a trusted empty directory"
    else if before.isSymlink then
      refuse .refused childLogical .symbolicLink "symbolic link"
    else if before.isRegular then
      if ← ctx.purgeRegularEntry frame name childLogical before root then return .kept
      else return .refused
    else if !before.isDir then
      refuse .refused childLogical .nonRegular "non-regular object"
    else if !ctx.trustedDirectory before then
      refuse .refused childLogical .untrustedOwnershipOrMode "wrong owner or unsafe directory mode"
    else if frame.depth + 1 > ctx.options.maxDepth then
      refuse .refused childLogical .depthLimitExceeded
        ("depth limit exceeded (" ++ toString ctx.options.maxDepth ++ ")")
    else
      match ← openDirAt frame.handle name with
      | .error e => refuse .refused childLogical .inaccessible ("cannot open directory: " ++ e.text)
      | .ok handle =>
        record (.opened childLogical frame.handle name handle)
        match ← ctx.descendInto frame name childLogical before root handle with
        | some child => return .descend child
        | none =>
          close handle
          return .refused

/-- Remove a directory whose entries are gone.  The first part of
`finish_frame` has found it to be no root and none of its children kept. -/
def removeFinished (frame : Frame) (parent : Node) (name : Name) (root : OpenedRoot) :
    Pass Bool := do
  let opened ← fstat frame.handle
  let named ← lstatAt parent name
  if !(opened.toOption.any frame.before.sameDirectoryIdentity &&
      named.toOption.any frame.before.sameDirectoryIdentity) then
    refuse false frame.logical .changedDuringTraversal "directory changed before removal"
  else
    let parentChain := frame.pathChain.dropLast
    if !(← ctx.chainsAreCurrent root parentChain frame.logical) then return false
    else
      match ← ctx.quarantineEntry parent name frame.logical frame.before with
      | none => return false
      | some qname =>
        ctx.deleteQuarantined .directory root parent name qname frame.logical frame.before
          parentChain

def finishFrame (frame : Frame) (root : OpenedRoot) : Pass Bool := do
  match ← finishStream with
  | .error e =>
    refuse false frame.logical .inaccessible ("cannot finish reading directory: " ++ e.text)
  | .ok () =>
    -- The roots stay as empty anchors.
    if frame.depth = 0 then ctx.fixedRootIsCurrent root
    else if !frame.childrenRemoved then return false
    else
      match frame.place with
      | none => return false
      | some (parent, name) => ctx.removeFinished frame parent name root

/-! ## The traversal -/

end Ctx

/-- The directories that are being read, the innermost first, and how many
entries were inspected. -/
structure Traversal where
  stack : List Frame
  nodesSeen : Nat

/-- A refused child keeps the directory above it. -/
def keepTop : List Frame → List Frame
  | [] => []
  | frame :: rest => { frame with childrenRemoved := false } :: rest

/-- The descriptors of the directories below the root. -/
def frameHandles (stack : List Frame) : List Node :=
  (stack.filter fun frame => frame.place.isSome).map Frame.handle

namespace Ctx

variable (ctx : Ctx)

variable (root : OpenedRoot)

section

variable (frame : Frame) (rest : List Frame) (nodesSeen : Nat)

/-- One entry of the directory `frame`, whose stream goes on with
`pending`.  `none` gives up the root. -/
def visitChild (name : Name) (pending : List Name) : Pass (Option Traversal) := do
  let frame := { frame with pending }
  let childLogical := frame.logical ++ [ctx.lossyName name]
  if ← isProtected childLogical then
    return some { stack := keepTop (frame :: rest), nodesSeen }
  else if nodesSeen + 1 > ctx.options.maxNodes then
    refuse none root.logical .nodeLimitExceeded
      ("node limit exceeded (" ++ toString ctx.options.maxNodes ++ ")")
  else
    match ← ctx.processChild frame name childLogical root with
    | .kept => return some { stack := frame :: rest, nodesSeen := nodesSeen + 1 }
    | .refused => return some { stack := keepTop (frame :: rest), nodesSeen := nodesSeen + 1 }
    | .descend child => return some { stack := child :: frame :: rest, nodesSeen := nodesSeen + 1 }
    | .abortRoot => return none

/-- The directory has been read: close it, and remove it if it can be. -/
def popFrame : Pass (Option Traversal) := do
  let removed ← ctx.finishFrame frame root
  closeAll (frameHandles [frame])
  return some { stack := if removed then rest else keepTop rest, nodesSeen }

/-- One iteration of the loop of `purge_root` with a directory on the
stack. -/
def iteration : Pass (Option Traversal) := do
  if ← interrupted then
    refuse none root.logical .interrupted interruptedDetail
  else
    match ← nextEntry frame.pending with
    | .error e =>
      refuse none frame.logical .inaccessible ("cannot continue reading directory: " ++ e.text)
    | .ok none => ctx.popFrame root frame rest nodesSeen
    | .ok (some (name, pending)) => ctx.visitChild root frame rest nodesSeen name pending

end

/-- The loop of `purge_root`.  It returns whether it ended within the
fuel. -/
def traverse (root : OpenedRoot) : Nat → Traversal → Pass Bool
  | 0, traversal => return traversal.stack.isEmpty
  | fuel + 1, traversal =>
    match traversal.stack with
    | [] => return true
    | frame :: rest => do
      match ← ctx.iteration root frame rest traversal.nodesSeen with
      | none =>
        closeAll (frameHandles (frame :: rest))
        return true
      | some traversal => traverse root fuel traversal

def purgeRoot (fuel : Nat) (root : OpenedRoot) : Pass Bool := do
  record (.entered root.logical root.root)
  if !(← ctx.fixedRootIsCurrent root) then return true
  else
    match ← openStream root.root with
    | .error e =>
      refuse true root.logical .inaccessible ("cannot enumerate opened root: " ++ e.text)
    | .ok pending =>
      ctx.traverse root fuel
        { stack :=
            [{ handle := root.root
               pending
               place := none
               logical := root.logical
               before := root.before
               depth := 0
               childrenRemoved := true
               pathChain := [] }]
          nodesSeen := 0 }

/-- The descriptors of an opened root, the last one first. -/
def rootHandles : List Node :=
  (root.chain.map ChainLink.handle).reverse ++ [root.base]

/-! ## The pass -/

/-- The rest of `inspect_external_configuration` once the file is open. -/
def classifyOpened (logical : Path) (before : Stat) (file : Node) : Pass Unit := do
  let st ← fstat file
  if !st.toOption.any before.sameIdentity then
    remnant logical .changedDuringTraversal "configuration changed while it was inspected"
  else if (← ctx.openedOnRootMount file root logical).isNone then return ()
  else
    match ← readFile file with
    | .error e => remnant logical .inaccessible ("cannot read configuration: " ++ e.text)
    | .ok raw =>
      if raw.length > maxConfigBytes then
        report fun reporter =>
          reporter.configNote "configuration exceeds the classification size limit"
      else
        let findings := ctx.classifyConfig raw
        report fun reporter =>
          findings.external.foldl (fun reporter (field, path) => reporter.external field path)
            (findings.notes.foldl Reporter.configNote reporter)

def inspectConfiguration : Pass Unit := do
  let logical : Path := ["etc", "facelock", "config.toml"]
  match ← lstatAt root.root (.text "config.toml") with
  | .error e =>
    if e.isNotFound then return ()
    else remnant logical .inaccessible ("cannot inspect configuration: " ++ e.text)
  | .ok before =>
    if !ctx.trustedRegular logical before || before.size > maxConfigBytes then
      remnant logical .untrustedOwnershipOrMode
        "configuration is not a trusted single-link regular file"
    else
      match ← openFileAt root.root (.text "config.toml") with
      | .error e => remnant logical .inaccessible ("cannot open configuration: " ++ e.text)
      | .ok file =>
        ctx.classifyOpened root logical before file
        close file

def inspectExternalConfiguration : Pass Unit := do
  match ← ctx.openFixedRoot ["etc", "facelock"] with
  | none => return ()
  | some root =>
    ctx.inspectConfiguration root
    closeAll (rootHandles root)

/-- One root of the pass.  It returns whether it ended within the fuel. -/
def purgeLogical (fuel : Nat) (logical : Path) : Pass Bool := do
  if ← interrupted then
    refuse true logical .interrupted interruptedDetail
  else if ← isProtected logical then return true
  else
    match ← ctx.openFixedRoot logical with
    | none => return true
    | some root =>
      if ← ctx.purgeRoot fuel root then
        closeAll (rootHandles root)
        return true
      else return false

def purgeAll (fuel : Nat) : List Path → Pass Bool
  | [] => return true
  | logical :: roots => do
    if ← ctx.purgeLogical fuel logical then purgeAll fuel roots
    else return false

end Ctx

def refuseAll (kind : RemnantKind) (detail : String) : List Path → Pass Unit
  | [] => return ()
  | logical :: roots => do
    remnant logical kind detail
    refuseAll kind detail roots

inductive Mode where
  | report
  | purge
  deriving DecidableEq

/-- One pass.  `ctx.mounts` is the mount table that loading gives.  The
result says whether the pass ended within the fuel. -/
def run (ctx : Ctx) (mode : Mode) (fuel : Nat) : Pass Bool := do
  if ← interrupted then
    match mode with
    | .purge =>
      refuseAll .interrupted interruptedDetail purgeRoots
      return true
    | .report => return true
  else
    match ← (.call fun _ machine => (.ok (), machine) : Pass (Except Errno Unit)) with
    | .error e =>
      match mode with
      | .purge =>
        refuseAll .mountTopologyUnavailable ("mount topology is unavailable: " ++ e.text)
          purgeRoots
        return true
      | .report =>
        report fun reporter => reporter.configNote ("mount topology is unavailable: " ++ e.text)
        return true
    | .ok () =>
      ctx.inspectExternalConfiguration
      match mode with
      | .purge => ctx.purgeAll fuel purgeRoots
      | .report => return true

end Facelock.Purge
