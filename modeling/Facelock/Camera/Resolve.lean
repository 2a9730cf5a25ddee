import Facelock.Camera.Siblings

/-!
# Resolving a camera

From the nodes of the machine to one node with its quirk and its
capabilities, before anything is opened: automatic selection
(`crates/facelock-camera/src/device.rs`), the format a quirk leads to
(`capture.rs`) and `ResolvedCamera::interrogate` (`caps.rs`).

`Host` is what the kernel reports about the nodes.  It stays fixed while a
camera is resolved.  `classifyIrSources` reads it once for each node, so its
slices have one length and no index is out of range.
-/

namespace Facelock.Camera

open List

open Facelock.Auth (DeviceFingerprint IrTextureScale)

/-! ## The machine -/

structure Host where
  listDevices : Except String (List DeviceInfo)
  validateDevice : String → Except String DeviceInfo
  deviceFingerprint : String → DeviceFingerprint
  readPlatformIdentity : String → Option PlatformIdentity
  /-- `QuirksDb::load()`. -/
  loadQuirks : QuirksDb

def Host.readUsbIds (host : Host) (path : String) : Option (String × String) :=
  match (host.deviceFingerprint path).vid, (host.deviceFingerprint path).pid with
  | some vid, some pid => some (vid, pid)
  | _, _ => none

variable (toLowercase : List Char → List Char)

section

variable (host : Host) (device : DeviceInfo) (devices : List DeviceInfo) (quirks : Option QuirksDb)

def QuirksDb.findMatch (db : QuirksDb) (device : DeviceInfo) : Option Quirk :=
  (db.findMatchWithKind toLowercase device (host.readUsbIds device.path)
    (host.readPlatformIdentity device.path)).map Prod.fst

def classifyIrSources : List IrSource :=
  (classifyIrSourcesWithIdentity toLowercase devices quirks
    (devices.map fun device => host.readUsbIds device.path)
    (devices.map fun device => host.readPlatformIdentity device.path)).get
    (classifyIrSourcesWithIdentity_isSome _ _ _ _ _ (by simp) (by simp))

def irSourceResolved : IrSource :=
  let siblings := match host.listDevices with
    | .ok devices => devices
    | .error _ => []
  let devices := (siblings.filter fun other => other.path ≠ device.path) ++ [device]
  (classifyIrSources toLowercase host devices quirks).getLast?.getD .none

def isIrCameraResolved : Bool :=
  decide (irSourceResolved toLowercase host device quirks ≠ .none)

/-! ## Formats -/

def decodableFormats : List String := ["GREY", "Y16", "YUYV", "NV12", "MJPG"]

def normalizeFourcc (fourcc : String) : String := Text.trim fourcc

def hasDecodableFormat : Bool :=
  device.formats.any fun format => decodableFormats.contains (Text.trim format.fourcc)

def selectFormat (preferred available : List String) : Option Nat :=
  preferred.findSome? fun pref => available.findIdx? (· == pref)

def quirkFormatPreference (quirk : Option Quirk) : Option String :=
  ((quirk.bind Quirk.formatPreference).map Text.trim).filter (decodableFormats.contains ·)

def selectFormatForQuirk (quirk : Option Quirk) (available : List String) : Option Nat :=
  selectFormat ((quirkFormatPreference quirk).toList ++ decodableFormats) available

def y16ShiftFromBitDepth (bitDepth : UInt8) : Option UInt8 :=
  if 8 ≤ bitDepth ∧ bitDepth ≤ 16 then some (bitDepth - 8) else none

def irTextureScaleForFormat (format : String) (quirk : Option Quirk) : IrTextureScale :=
  if format ≠ "Y16" then .notY16
  else
    match quirk.bind Quirk.y16BitDepth with
    | some bitDepth =>
      if (y16ShiftFromBitDepth bitDepth).isSome then .verifiedY16 bitDepth else .unverifiedY16
    | none => .unverifiedY16

/-! ## Automatic selection -/

/-- `name.split(|c| !c.is_ascii_alphanumeric())`. -/
def nameTokens : List Char → List (List Char)
  | [] => [[]]
  | c :: rest =>
    if !c.isAlphanum then [] :: nameTokens rest
    else
      match nameTokens rest with
      | [] => [[c]]
      | token :: tokens => (c :: token) :: tokens

def hasIrNameToken (name : String) : Bool :=
  (nameTokens name.toList).any fun token =>
    Facelock.Auth.eqIgnoreAsciiCase token "ir".toList ||
      Facelock.Auth.eqIgnoreAsciiCase token "infrared".toList

def formatListing : String :=
  ", ".intercalate (device.formats.map fun format => Text.trim format.fourcc)

def pickAutoDevice (sources : List IrSource) : Option DeviceInfo :=
  let nodes := (devices.zip sources).filter fun node => hasDecodableFormat node.1
  let picked := nodes.find? (fun node => node.2 == .quirk && hasNativeIrFormat node.1)
    <|> nodes.find? (fun node => node.2 == .quirk)
    <|> nodes.find? (fun node => node.2 != .none && hasIrNameToken node.1.name)
    <|> nodes.find? (fun node => node.2 != .none)
  picked.map Prod.fst <|> devices.find? hasDecodableFormat

def autoDetectDeviceWith (db : QuirksDb) : Except String DeviceInfo :=
  match host.listDevices with
  | .error e => .error e
  | .ok devices =>
    if devices.isEmpty then .error "no video devices found"
    else
      match pickAutoDevice devices (classifyIrSources toLowercase host devices (some db)) with
      | some device => .ok device
      | none => .error ("no camera with a decodable pixel format (" ++
          "/".intercalate decodableFormats ++ ") found; detected: " ++
          "; ".intercalate (devices.map fun device =>
            device.path ++ " \"" ++ device.name ++ "\" [" ++ formatListing device ++ "]") ++
          ". Raw sensor nodes (e.g. Intel IPU6/IPU7) are excluded from auto-detection — " ++
          "set device.path to a processed camera (see docs/compatibility.md)")

/-! ## Interrogation -/

def quirkId (quirk : Quirk) : String :=
  let base := match quirk.vendorId, quirk.productId, quirk.modalias, quirk.nodeName,
      quirk.namePattern with
    | some vid, some pid, _, _, _ => vid ++ ":" ++ pid
    | _, _, some modalias, some node, _ => "platform:" ++ modalias ++ "/" ++ node
    | _, _, _, _, some pattern => "name:" ++ pattern
    | _, _, _, _, _ => "unidentified-quirk"
  match quirk.notes with
  | some notes => if notes = "" then base else base ++ " (" ++ notes ++ ")"
  | none => base

structure CameraCaps extends Facelock.Auth.CameraCaps where
  appliedQuirks : List String

structure ResolvedCamera where
  info : DeviceInfo
  quirk : Option Quirk
  caps : CameraCaps

def ResolvedCamera.interrogate (info : DeviceInfo) (quirks : QuirksDb) : ResolvedCamera :=
  let quirk := quirks.findMatch toLowercase host info
  let available := info.formats.map fun format => Text.trim format.fourcc
  let selectedFormat :=
    ((selectFormatForQuirk quirk available).bind fun index => available[index]?).getD ""
  { info := info
    quirk := quirk
    caps :=
      { isIr := isIrCameraResolved toLowercase host info (some quirks)
        fingerprint := host.deviceFingerprint info.path
        appliedQuirks := (quirk.map quirkId).toList
        irTextureScale := irTextureScaleForFormat selectedFormat quirk } }

end

/-! ## The verdict among the listed nodes -/

section

variable (host : Host) (quirks : Option QuirksDb)

/-- The verdict of a node for itself, from what the kernel reports of it. -/
def nodeVerdict (device : DeviceInfo) : IrSource :=
  irSourceWithQuirksAndIdentity toLowercase device quirks (host.readUsbIds device.path)
    (host.readPlatformIdentity device.path)

theorem classifyIrSources_eq (devices : List DeviceInfo) :
    classifyIrSources toLowercase host devices quirks =
      ofFn (siblingVerdict devices.get (fun i => host.readUsbIds (devices.get i).path)
        fun i => nodeVerdict toLowercase host quirks (devices.get i)) := by
  have hmap {α : Type} (f : DeviceInfo → α) :
      devices.map f = ofFn fun i => f (devices.get i) := by
    rw [← ofFn_get devices, map_ofFn, ofFn_get]
    rfl
  have hclassify := classify_ofFn toLowercase quirks devices.get
    (fun i => host.readUsbIds (devices.get i).path)
    (fun i => host.readPlatformIdentity (devices.get i).path)
  rw [ofFn_get, ← hmap fun device => host.readUsbIds device.path,
    ← hmap fun device => host.readPlatformIdentity device.path] at hclassify
  apply Option.some.inj
  rw [classifyIrSources, Option.some_get, hclassify]
  rfl

/-- Another listed node of the same USB device has an infrared format and was
found by a quirk, and this node has none. -/
def LosesToSibling (device : DeviceInfo) : Prop :=
  hasNativeIrFormat device = false ∧
    ∃ ids siblings, host.readUsbIds device.path = some ids ∧ host.listDevices = .ok siblings ∧
      ∃ other ∈ siblings, other.path ≠ device.path ∧ host.readUsbIds other.path = some ids ∧
        hasNativeIrFormat other = true ∧ nodeVerdict toLowercase host quirks other = .quirk

/-- The verdict of a node that a quirk found, as the last one of a list. -/
theorem getLast?_classifyIrSources (others : List DeviceInfo) {device}
    (hown : nodeVerdict toLowercase host quirks device = .quirk) :
    (classifyIrSources toLowercase host (others ++ [device]) quirks).getLast? =
      some (if ∃ ids, host.readUsbIds device.path = some ids ∧ ∃ other ∈ others ++ [device],
          nodeVerdict toLowercase host quirks other = .quirk ∧
            host.readUsbIds other.path = some ids ∧ hasNativeIrFormat other = true
        then demoted device .quirk else .quirk) := by
  have hlt : others.length < (others ++ [device]).length := by simp
  have hlast : (others ++ [device]).get ⟨others.length, hlt⟩ = device := by simp
  have hindex : (others ++ [device]).length - 1 = others.length := by simp
  rw [classifyIrSources_eq, getLast?_eq_getElem?, length_ofFn, hindex,
    List.getElem?_ofFn, dif_pos hlt, siblingVerdict]
  simp only [Told, hlast, hown, true_and, exists_mem_iff_get]

/-- A node that a quirk found loses its verdict to a sibling, and in no other
way. -/
theorem isIrCameraResolved_eq_false {device}
    (hown : nodeVerdict toLowercase host quirks device = .quirk) :
    isIrCameraResolved toLowercase host device quirks = false ↔
      LosesToSibling toLowercase host quirks device := by
  unfold isIrCameraResolved irSourceResolved
  rw [decide_eq_false_iff_not, not_not]
  dsimp only
  rw [getLast?_classifyIrSources toLowercase host quirks _ hown, Option.getD_some, demoted]
  unfold LosesToSibling
  cases hnative : hasNativeIrFormat device with
  | true => simp
  | false =>
    rw [heuristicIrSource_of_colour hnative, if_neg Bool.false_ne_true, ite_eq_left_iff]
    simp only [reduceCtorEq, imp_false, not_not, true_and]
    constructor
    · rintro ⟨ids, hids, other, hmem, hquirk, hother, hinfrared⟩
      rcases mem_append.mp hmem with hmem | hmem
      · cases hlist : host.listDevices with
        | error e =>
          rw [hlist] at hmem
          cases hmem
        | ok siblings =>
          rw [hlist] at hmem
          obtain ⟨hmem, hpath⟩ := mem_filter.mp hmem
          exact ⟨ids, siblings, hids, rfl, other, hmem, of_decide_eq_true hpath, hother,
            hinfrared, hquirk⟩
      · obtain rfl := mem_singleton.mp hmem
        rw [hnative] at hinfrared
        cases hinfrared
    · rintro ⟨ids, siblings, hids, hlist, other, hmem, hpath, hother, hinfrared, hquirk⟩
      refine ⟨ids, hids, other, ?_, hquirk, hother, hinfrared⟩
      rw [hlist]
      exact mem_append_left _ (mem_filter.mpr ⟨hmem, decide_eq_true hpath⟩)

end

end Facelock.Camera
