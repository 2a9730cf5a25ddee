import Facelock.Camera.Resolve
import Facelock.Lib.Results

/-!
# Opening a camera

`Camera::open_resolved` of `crates/facelock-camera/src/capture.rs`: the
format is chosen by priority, negotiated with the driver, and checked.
`Driver` holds the answers of the driver to the calls that are made, each of
which may fail.  Row sizes are computed in 32 bits.  The emitter and the
lamp, which are switched on after the checks and never refuse a camera, are
left out.

A node that is infrared by its platform identity has to negotiate a mono
format (`check_platform_ir_format`).  How the quirk matched is not known any
more when the camera is opened, and `is_platform_ir_quirk` reads it off the
keys of the entry.  An entry with both pairs of keys is taken for one that
matched by USB, whichever way it matched.
-/

namespace Facelock.Camera

open Facelock.Auth (IrTextureScale)

/-! ## The driver -/

/-- The two flags of the device that are looked at. -/
structure Capabilities where
  videoCapture : Bool
  videoCaptureMplane : Bool

def isMplaneOnly (caps : Capabilities) : Bool :=
  caps.videoCaptureMplane && !caps.videoCapture

structure Format where
  width : UInt32
  height : UInt32
  fourcc : String
  stride : UInt32

/-- The answers of the driver, on the API that its flags select. -/
structure Driver where
  withPath : Except String Unit
  queryCaps : Except String Capabilities
  enumFormats : Except String (List String)
  format : Except String Format
  /-- For the wanted fourcc, width and height. -/
  setFormat : String → UInt32 → UInt32 → Except String Format
  withBuffers : Except String Unit

/-- The keys of the `[device]` section that are read here. -/
structure DeviceConfig where
  path : Option String
  maxHeight : UInt32
  rotation : UInt16
  warmupFrames : UInt32
  keepFormat : Bool

/-- An open `Camera`. -/
structure OpenCamera where
  width : UInt32
  height : UInt32
  format : String
  stride : UInt32
  rotation : UInt16
  devicePath : String
  caps : CameraCaps
  y16Shift : Option UInt8
  y16CalibrationFrames : UInt32
  warmupFrames : UInt32

/-! ## Checks -/

def isPlatformIrQuirk (quirk : Quirk) : Bool :=
  quirk.forceIr == some true && quirk.modalias.isSome && quirk.nodeName.isSome &&
    !(quirk.vendorId.isSome && quirk.productId.isSome)

variable (quirk : Option Quirk)

def checkPlatformIrFormat (isIr : Bool) (format devicePath : String) : Except String Unit :=
  match quirk.filter isPlatformIrQuirk with
  | none => .ok ()
  | some quirk =>
    if !isIr || isIrTypicalFourcc format then .ok ()
    else .error (devicePath ++ ": negotiated " ++ format ++ ", which is not a mono format, but " ++
      "the node is IR only by the platform quirk " ++ quirkId quirk ++ " — an IR sensor " ++
      "delivers a mono format, so this node is refused as IR; route the IR sensor to it (or " ++
      "set format_preference to its mono format) before authenticating (see docs/security.md)")

def expectedStride (format : String) (width : UInt32) : Option UInt32 :=
  if format = "GREY" ∨ format = "NV12" then some width
  else if format = "Y16" ∨ format = "YUYV" then some (width * 2)
  else none

def checkStride (format : String) (fmt : Format) (devicePath : String) : Except String Unit :=
  match expectedStride format fmt.width with
  | none => .ok ()
  | some expected =>
    -- Padded GREY rows are repacked later.
    if fmt.stride ≠ expected ∧ ¬(format = "GREY" ∧ expected < fmt.stride) then
      .error (devicePath ++ ": " ++ format ++ " bytesperline is " ++ toString fmt.stride ++
        " but facelock expects " ++ toString expected ++ " for " ++ toString fmt.width ++
        " pixels — padded strides are not supported")
    else .ok ()

def checkCapture (caps : Capabilities) (devicePath : String) : Except String Unit :=
  if !isMplaneOnly caps && !caps.videoCapture then
    .error (devicePath ++ ": not a video capture device")
  else .ok ()

/-! ## Negotiation -/

/-- `select_format_for_quirk(..).map(|idx| formats[idx]).ok_or_else(..)`. -/
def selectedFourcc (formats : List String) (devicePath : String) : Except String String :=
  let available := formats.map normalizeFourcc
  match (selectFormatForQuirk quirk available).bind fun idx => formats[idx]? with
  | some fourcc => .ok fourcc
  | none => .error (devicePath ++ ": no decodable pixel format — device advertises [" ++
      ", ".intercalate available ++ "] but facelock supports [" ++
      ", ".intercalate decodableFormats ++ "]. Raw sensor nodes (e.g. Intel IPU6/IPU7) cannot " ++
      "be used directly; set device.path to a processed camera instead " ++
      "(see docs/compatibility.md)")

/-- The format as it stands, for `keep_format`. -/
def keptFormat (driver : Driver) (devicePath : String) : Except String Format :=
  match driver.format with
  | .error e => .error ("failed to get format: " ++ e)
  | .ok fmt =>
    if !decodableFormats.contains (normalizeFourcc fmt.fourcc) then
      .error (devicePath ++ ": keep_format is set but the current format " ++
        normalizeFourcc fmt.fourcc ++ " is not decodable")
    else .ok fmt

/-- `failed to get format` of the one API that fills a request from the
current format. -/
def currentFormat (driver : Driver) (mplaneOnly : Bool) : Except String Unit :=
  if mplaneOnly then .ok ()
  else
    match driver.format with
    | .error e => .error ("failed to get format: " ++ e)
    | .ok _ => .ok ()

variable (config : DeviceConfig)

def negotiate (driver : Driver) (mplaneOnly : Bool)
    (fourcc devicePath : String) : Except String Format :=
  if config.keepFormat then keptFormat driver devicePath
  else do
    currentFormat driver mplaneOnly
    (driver.setFormat fourcc 640 (min config.maxHeight 480)).mapError
      ("failed to set format: " ++ ·)

/-! ## The camera -/

def quirkY16Shift : Option UInt8 :=
  (quirk.bind Quirk.y16BitDepth).bind y16ShiftFromBitDepth

def y16CalibrationFrames (warmupFrames : UInt32) : UInt32 := max warmupFrames 8

/-- The camera that a negotiated format gives. -/
def openedCamera (quirk : Option Quirk) (caps : CameraCaps)
    (fmt : Format) (devicePath : String) : OpenCamera :=
  let format := normalizeFourcc fmt.fourcc
  let warmupFrames := (quirk.bind Quirk.warmupFrames).getD config.warmupFrames
  { width := fmt.width
    height := fmt.height
    format := format
    stride := fmt.stride
    rotation := (quirk.bind Quirk.rotation).getD config.rotation
    devicePath := devicePath
    caps := { caps with irTextureScale := irTextureScaleForFormat format quirk }
    y16Shift := if format = "Y16" then quirkY16Shift quirk else some 0
    y16CalibrationFrames := y16CalibrationFrames warmupFrames
    warmupFrames := warmupFrames }

/-- `open_resolved` once the path is known. -/
def openPath (quirk : Option Quirk) (caps : CameraCaps)
    (driver : Driver) (devicePath : String) : Except String OpenCamera := do
  driver.withPath.mapError ("failed to open " ++ devicePath ++ ": " ++ ·)
  let flags ← driver.queryCaps.mapError ("failed to query caps for " ++ devicePath ++ ": " ++ ·)
  checkCapture flags devicePath
  let formats ← driver.enumFormats.mapError ("failed to enum formats: " ++ ·)
  let fourcc ← selectedFourcc quirk formats devicePath
  let fmt ← negotiate config driver (isMplaneOnly flags) fourcc devicePath
  checkPlatformIrFormat quirk caps.isIr (normalizeFourcc fmt.fourcc) devicePath
  checkStride (normalizeFourcc fmt.fourcc) fmt devicePath
  driver.withBuffers.mapError ("failed to create stream: " ++ ·)
  return openedCamera config quirk caps fmt devicePath

/-- The drivers of the machine are found by path. -/
def openResolved (toLowercase : List Char → List Char) (host : Host) (drivers : String → Driver)
    (config : DeviceConfig) (quirk : Option Quirk) (caps : CameraCaps) : Except String OpenCamera :=
  match config.path with
  | some path => openPath config quirk caps (drivers path) path
  | none => do
    let info ← autoDetectDeviceWith toLowercase host host.loadQuirks
    openPath config quirk caps (drivers info.path) info.path

def ResolvedCamera.open (toLowercase : List Char → List Char) (host : Host)
    (drivers : String → Driver) (camera : ResolvedCamera) (config : DeviceConfig) :
    Except String OpenCamera :=
  openResolved toLowercase host drivers { config with path := some camera.info.path }
    camera.quirk camera.caps

/-! ## What an open camera has passed -/

theorem openPath_eq_ok {config} {quirk : Option Quirk} {caps driver devicePath camera}
    (h : openPath config quirk caps driver devicePath = .ok camera) :
    camera.caps.isIr = caps.isIr ∧
      checkPlatformIrFormat quirk caps.isIr camera.format devicePath = .ok () := by
  obtain ⟨_, -, h⟩ := bind_eq_ok h
  obtain ⟨flags, -, h⟩ := bind_eq_ok h
  obtain ⟨_, -, h⟩ := bind_eq_ok h
  obtain ⟨formats, -, h⟩ := bind_eq_ok h
  obtain ⟨fourcc, -, h⟩ := bind_eq_ok h
  obtain ⟨fmt, -, h⟩ := bind_eq_ok h
  obtain ⟨_, hgate, h⟩ := bind_eq_ok h
  obtain ⟨_, -, h⟩ := bind_eq_ok h
  obtain ⟨_, -, h⟩ := bind_eq_ok h
  cases h
  exact ⟨rfl, hgate⟩

theorem checkPlatformIrFormat_eq_ok {quirk isIr format devicePath} :
    checkPlatformIrFormat (some quirk) isIr format devicePath = .ok () ↔
      (isPlatformIrQuirk quirk = true → isIr = true → isIrTypicalFourcc format = true) := by
  unfold checkPlatformIrFormat
  cases hplatform : isPlatformIrQuirk quirk with
  | false => simp [Option.filter, hplatform]
  | true =>
    cases isIr <;> cases htypical : isIrTypicalFourcc format <;>
      simp [Option.filter, hplatform]

/-! ## A colour camera -/

/-- A driver with one colour format. -/
def yuyvDriver : Driver :=
  { withPath := .ok ()
    queryCaps := .ok { videoCapture := true, videoCaptureMplane := false }
    enumFormats := .ok ["YUYV"]
    format := .ok { width := 640, height := 480, fourcc := "YUYV", stride := 1280 }
    setFormat := fun _ width height =>
      .ok { width := width, height := height, fourcc := "YUYV", stride := width * 2 }
    withBuffers := .ok () }

theorem selectFormat_singleton {preferred fourcc}
    (h : fourcc ∈ preferred) : selectFormat preferred [fourcc] = some 0 := by
  induction preferred with
  | nil => cases h
  | cons pref preferred ih =>
    unfold selectFormat at ih ⊢
    rw [List.findSome?_cons]
    by_cases heq : fourcc = pref
    · simp [heq]
    · have hnone : [fourcc].findIdx? (· == pref) = none := by simp [heq]
      rw [hnone]
      exact ih ((List.mem_cons.mp h).resolve_left heq)

theorem selectedFourcc_yuyv (devicePath : String) :
    selectedFourcc quirk ["YUYV"] devicePath = .ok "YUYV" := by
  have hnormal : ["YUYV"].map normalizeFourcc = ["YUYV"] := by decide +kernel
  have hselect : selectFormatForQuirk quirk ["YUYV"] = some 0 :=
    selectFormat_singleton (List.mem_append_right _ (by decide))
  unfold selectedFourcc
  dsimp only
  rw [hnormal, hselect]
  rfl

theorem openPath_yuyv (quirk : Option Quirk) (caps : CameraCaps) (devicePath : String)
    (hgate : checkPlatformIrFormat quirk caps.isIr "YUYV" devicePath = .ok ()) :
    ∃ camera, openPath config quirk caps yuyvDriver devicePath = .ok camera ∧
      camera.caps.isIr = caps.isIr ∧ camera.format = "YUYV" := by
  have hnormal : normalizeFourcc "YUYV" = "YUYV" := by decide +kernel
  have hformat : ∃ fmt, negotiate config yuyvDriver false "YUYV" devicePath = .ok fmt ∧
      fmt.fourcc = "YUYV" ∧ fmt.stride = fmt.width * 2 := by
    unfold negotiate
    split
    · have hdecodable : decodableFormats.contains (normalizeFourcc "YUYV") = true := by
        decide +kernel
      refine ⟨{ width := 640, height := 480, fourcc := "YUYV", stride := 1280 }, ?_, rfl, rfl⟩
      simp only [keptFormat, yuyvDriver, hdecodable, Bool.not_true, Bool.false_eq_true, if_false]
    · exact ⟨_, rfl, rfl, rfl⟩
  obtain ⟨fmt, hfmt, hfourcc, hstride⟩ := hformat
  have hrows : checkStride "YUYV" fmt devicePath = .ok () := by
    have hexpected : expectedStride "YUYV" fmt.width = some (fmt.width * 2) := by
      simp [expectedStride]
    simp [checkStride, hexpected, hstride]
  refine ⟨openedCamera config quirk caps fmt devicePath, ?_, rfl, ?_⟩
  · show (selectedFourcc quirk ["YUYV"] devicePath >>= fun fourcc =>
      negotiate config yuyvDriver false fourcc devicePath >>= fun fmt => _) = _
    rw [selectedFourcc_yuyv]
    show (negotiate config yuyvDriver false "YUYV" devicePath >>= fun fmt => _) = _
    rw [hfmt]
    show (checkPlatformIrFormat quirk caps.isIr (normalizeFourcc fmt.fourcc) devicePath >>=
      fun _ => checkStride (normalizeFourcc fmt.fourcc) fmt devicePath >>= fun _ => _) = _
    rw [hfourcc, hnormal, hgate]
    show (checkStride "YUYV" fmt devicePath >>= fun _ => _) = _
    rw [hrows]
    rfl
  · show normalizeFourcc fmt.fourcc = "YUYV"
    rw [hfourcc, hnormal]

/-! ## Nodes that are infrared by their platform identity -/

/-- For a node whose entry matched by platform identity, no driver makes an
open camera infrared on a colour format exactly if the entry has not both
USB keys, or the node loses its verdict to a sibling. -/
theorem interrogate_open_platform (toLowercase : List Char → List Char) (host : Host)
    (db : QuirksDb) (info : DeviceInfo) (quirk : Quirk)
    (hmatch : db.findMatchWithKind toLowercase info (host.readUsbIds info.path)
      (host.readPlatformIdentity info.path) = some (quirk, .platformId))
    (hforce : quirk.forceIr = some true) (config : DeviceConfig) :
    (∀ drivers camera,
      (ResolvedCamera.interrogate toLowercase host info db).open toLowercase host drivers config =
          .ok camera →
        ¬(camera.caps.isIr = true ∧ isIrTypicalFourcc camera.format = false)) ↔
      ¬(quirk.vendorId.isSome = true ∧ quirk.productId.isSome = true) ∨
        LosesToSibling toLowercase host (some db) info := by
  have hown : nodeVerdict toLowercase host (some db) info = .quirk := by
    simp [nodeVerdict, irSourceWithQuirksAndIdentity, hmatch, hforce, corroborated]
  rw [← isIrCameraResolved_eq_false toLowercase host (some db) hown]
  have hquirk : db.findMatch toLowercase host info = some quirk := by
    rw [QuirksDb.findMatch, hmatch]
    rfl
  obtain ⟨-, id, -, hmodalias, hnode⟩ := QuirksDb.findMatchWithKind_eq_some hmatch
  have hplatform : isPlatformIrQuirk quirk =
      !(quirk.vendorId.isSome && quirk.productId.isSome) := by
    simp [isPlatformIrQuirk, hforce, hmodalias, hnode]
  have hopen : ∀ drivers, (ResolvedCamera.interrogate toLowercase host info db).open toLowercase
      host drivers config =
        openPath { config with path := some info.path } (some quirk)
          (ResolvedCamera.interrogate toLowercase host info db).caps (drivers info.path)
          info.path := by
    intro drivers
    rw [← hquirk]
    rfl
  constructor
  · intro h
    by_contra hnot
    rw [not_or, not_not, Bool.not_eq_false] at hnot
    obtain ⟨⟨hvendor, hproduct⟩, hir⟩ := hnot
    -- the gate takes the entry for one that matched by USB
    have hgate : checkPlatformIrFormat (some quirk)
        (ResolvedCamera.interrogate toLowercase host info db).caps.isIr "YUYV" info.path =
          .ok () := by
      rw [checkPlatformIrFormat_eq_ok, hplatform, hvendor, hproduct]
      simp
    obtain ⟨camera, hcamera, hcaps, hformat⟩ :=
      openPath_yuyv { config with path := some info.path } (some quirk) _ info.path hgate
    refine h (fun _ => yuyvDriver) camera ((hopen _).trans hcamera) ⟨hcaps.trans hir, ?_⟩
    rw [hformat]
    decide +kernel
  · rintro h drivers camera hcamera ⟨hir, hcolour⟩
    rw [hopen] at hcamera
    obtain ⟨hcaps, hgate⟩ := openPath_eq_ok hcamera
    rw [hcaps] at hir
    rcases h with hkeys | hnone
    · rw [← Bool.and_eq_true, Bool.not_eq_true] at hkeys
      have hmono := checkPlatformIrFormat_eq_ok.mp hgate (by rw [hplatform, hkeys]; rfl) hir
      rw [hmono] at hcolour
      cases hcolour
    · have hverdict : isIrCameraResolved toLowercase host info (some db) = true := hir
      rw [hnone] at hverdict
      cases hverdict

/-- A machine with one node of a sensor card. -/
def cardHost : Host :=
  { listDevices := .ok []
    validateDevice := fun path => .error path
    deviceFingerprint := fun _ => { vid := none, pid := none, serial := none }
    readPlatformIdentity := fun _ =>
      some { modalias := "auxiliary:intel_ipu6.isys", nodeName := "Intel IPU6 ISYS Capture 0" }
    loadQuirks := { quirks := [] } }

/-- Its node, with a table of all formats of the card. -/
def cardNode : DeviceInfo :=
  { path := "/dev/video1", name := "ipu6", driver := "isys", capabilities := []
    formats := [{ fourcc := "GREY", description := "", sizes := [] },
      { fourcc := "YUYV", description := "", sizes := [] }] }

/-- The entry for it. -/
def cardQuirk : Quirk :=
  { modalias := some "auxiliary:intel_ipu6.isys", nodeName := some "Intel IPU6 ISYS Capture 0"
    forceIr := some true }

def cardConfig : DeviceConfig :=
  { path := none, maxHeight := 480, rotation := 0, warmupFrames := 5, keepFormat := false }

/-- With the platform keys alone the node is never infrared in colour. -/
theorem interrogate_open_platform_card :
    cardQuirk.vendorId = none ∧ ∀ drivers camera,
      (ResolvedCamera.interrogate (List.map Char.toLower) cardHost cardNode
          { quirks := [cardQuirk] }).open (List.map Char.toLower) cardHost drivers cardConfig =
          .ok camera →
        ¬(camera.caps.isIr = true ∧ isIrTypicalFourcc camera.format = false) := by
  refine ⟨rfl, ?_⟩
  exact (interrogate_open_platform (List.map Char.toLower) cardHost { quirks := [cardQuirk] }
    cardNode cardQuirk (by decide +kernel) rfl cardConfig).mpr (.inl (by decide))

/-- With USB keys beside them it opens as an infrared camera on `YUYV`. -/
theorem platform_match_with_usb_keys :
    let quirk := { cardQuirk with vendorId := some "046d", productId := some "085e" }
    let db : QuirksDb := { quirks := [quirk] }
    db.findMatchWithKind (List.map Char.toLower) cardNode (cardHost.readUsbIds cardNode.path)
        (cardHost.readPlatformIdentity cardNode.path) = some (quirk, .platformId) ∧
      quirk.forceIr = some true ∧ hasMonoOnlyFormats cardNode = false ∧
      ((ResolvedCamera.interrogate (List.map Char.toLower) cardHost cardNode db).open
          (List.map Char.toLower) cardHost (fun _ => yuyvDriver) cardConfig).map
        (fun camera => (camera.caps.isIr, camera.format, isIrTypicalFourcc camera.format)) =
        .ok (true, "YUYV", false) := by
  decide +kernel

end Facelock.Camera
