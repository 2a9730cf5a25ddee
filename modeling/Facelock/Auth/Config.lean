import Facelock.Lib.Binary32

/-!
# Configuration and device coupling

The keys of the configuration that the recognition loop reads, with their
defaults, and `Config::validate`
(`crates/facelock-core/src/config.rs`).  Device coupling decides which
stored templates may be compared with the live camera
(`device_ids_match`, `device_binding_allows` and
`device_allowed_model_ids` of `crates/facelock-core/src/types.rs`).  The
gate of an enrollment judges the id that it would store.

`f32` is `Binary32`.  How `validate` prints a number is a parameter,
since only the texts of its errors depend on it.
-/

namespace Facelock.Auth

/-! ## Keys and defaults -/

structure DeviceConfig where
  path : Option String := none
  rotation : Nat := 0
  /-- `0.6`. -/
  darkThreshold : Binary32 := ⟨0x3f19999a⟩
  darkPixelValue : UInt8 := 10
  irLed : Option String := none

structure RecognitionConfig where
  /-- `0.80`. -/
  threshold : Binary32 := ⟨0x3f4ccccd⟩
  timeoutSecs : Nat := 5
  noFaceTimeoutSecs : Nat := 2
  detectorSha256 : Option String := none
  embedderSha256 : Option String := none

inductive DeviceMatchGranularity where
  | model
  | unit
  deriving DecidableEq, Repr

structure SecurityConfig where
  requireFrameVariance : Bool := true
  requireLandmarkLiveness : Bool := false
  /-- `1.5`. -/
  landmarkDisplacementPx : Binary32 := ⟨0x3fc00000⟩
  landmarkMinMoving : Nat := 3
  minAuthFrames : Nat := 3
  /-- `10.0`. -/
  irTextureMinStddev : Binary32 := ⟨0x41200000⟩
  /-- `DEFAULT_FRAME_VARIANCE_MAX_SIMILARITY`, `0.985`. -/
  frameVarianceMaxSimilarity : Binary32 := ⟨0x3f7c28f6⟩
  bindTemplatesToDevice : Bool := true
  deviceMatchGranularity : DeviceMatchGranularity := .model
  bindLegacyTemplates : Bool := true

inductive SnapshotMode where
  | off
  | all
  | failure
  | success
  deriving DecidableEq, Repr

structure Config where
  device : DeviceConfig := {}
  recognition : RecognitionConfig := {}
  security : SecurityConfig := {}
  snapshots : SnapshotMode := .off

def SnapshotMode.shouldSave (mode : SnapshotMode) (success : Bool) : Bool :=
  match mode with
  | .off => false
  | .all => true
  | .success => success
  | .failure => !success

/-- `RecognitionConfig::effective_no_face_timeout`, in seconds. -/
def RecognitionConfig.effectiveNoFaceTimeout (recognition : RecognitionConfig) : Option Nat :=
  if 0 < recognition.noFaceTimeoutSecs then
    some (min recognition.noFaceTimeoutSecs recognition.timeoutSecs)
  else none

/-! ## Validation -/

inductive ConfigError where
  | validation (message : String)
  deriving DecidableEq, Repr

def ledClassName (spec : String) : Option String :=
  let root := "/sys/class/leds/".toList
  if root.isPrefixOf spec.toList then
    let name := spec.toList.drop root.length
    if name ≠ [] ∧ '/' ∉ name ∧ name ≠ ".".toList ∧ name ≠ "..".toList then
      some (String.ofList name)
    else none
  else none

def isAsciiHexdigit (c : Char) : Bool :=
  c.isDigit || ('a' ≤ c && c ≤ 'f') || ('A' ≤ c && c ≤ 'F')

def isSha256Hex (value : String) : Bool :=
  value.utf8ByteSize == 64 && value.toList.all isAsciiHexdigit

/-- `(0.0..=1.0).contains(&value)`. -/
def inUnitInterval (value : Binary32) : Bool :=
  decide (Binary32.zero ≤ value ∧ value ≤ Binary32.one)

/-- A check of an optional key, which passes when the key is not set. -/
def optionalCheck (value : Option String) (ok : String → Bool) (message : String) : Bool × String :=
  (value.all ok, message ++ value.getD "")

variable (display : Binary32 → String)

/-- A check that a number is between zero and one. -/
def unitCheck (key : String) (value : Binary32) : Bool × String :=
  (inUnitInterval value, key ++ " must be between 0.0 and 1.0, got " ++ display value)

/-- The checks of `Config::validate` in their order, each with the text of
its error.  `display` is how an `f32` prints. -/
def Config.checks (config : Config) : List (Bool × String) :=
  [ (config.device.path ≠ some "", "device.path must not be empty when specified"),
    optionalCheck config.device.irLed (fun led => (ledClassName led).isSome)
      "device.ir_led must be a /sys/class/leds/<name> path, got ",
    unitCheck display "device.dark_threshold" config.device.darkThreshold,
    unitCheck display "recognition.threshold" config.recognition.threshold,
    (config.device.rotation ∈ [0, 90, 180, 270],
      "device.rotation must be 0, 90, 180, or 270, got " ++ toString config.device.rotation),
    (config.recognition.timeoutSecs ≠ 0, "recognition.timeout_secs must be > 0"),
    unitCheck display "security.frame_variance_max_similarity"
      config.security.frameVarianceMaxSimilarity,
    -- A NaN is not below zero and passes.
    (¬ config.security.irTextureMinStddev < Binary32.zero,
      "security.ir_texture_min_stddev must be >= 0.0, got " ++
        display config.security.irTextureMinStddev),
    optionalCheck config.recognition.detectorSha256 isSha256Hex
      "recognition.detector_sha256 must be a 64-character hex SHA256, got ",
    optionalCheck config.recognition.embedderSha256 isSha256Hex
      "recognition.embedder_sha256 must be a 64-character hex SHA256, got " ]

/-- `Config::validate`: the first check that fails is the error. -/
def Config.validate (config : Config) : Except ConfigError Unit :=
  match (config.checks display).find? (fun check => !check.1) with
  | some check => .error (.validation check.2)
  | none => .ok ()

theorem Config.validate_eq_ok {display} {config : Config} :
    config.validate display = .ok () ↔ ∀ check ∈ config.checks display, check.1 = true := by
  rw [Config.validate]
  cases hfind : (config.checks display).find? (fun check => !check.1) with
  | some check =>
    have hfail : check.1 = false := by simpa using List.find?_some hfind
    have hmem := List.mem_of_find?_eq_some hfind
    simp only [reduceCtorEq, false_iff]
    intro hall
    rw [hall check hmem] at hfail
    exact absurd hfail (by simp)
  | none =>
    simpa using hfind

theorem Config.threshold_of_validate {display} {config : Config}
    (h : config.validate display = .ok ()) :
    Binary32.zero ≤ config.recognition.threshold ∧
      config.recognition.threshold ≤ Binary32.one := by
  have hcheck := Config.validate_eq_ok.mp h
    (unitCheck display "recognition.threshold" config.recognition.threshold)
    (by simp [Config.checks])
  simpa [unitCheck, inUnitInterval] using hcheck

/-- The defaults are accepted. -/
theorem Config.validate_default : ({} : Config).validate display = .ok () := by
  rw [Config.validate_eq_ok]
  have hdefaults : (({} : Config).checks display).map Prod.fst = List.replicate 10 true := by
    simp only [Config.checks, unitCheck, optionalCheck, List.map]
    decide
  intro check hcheck
  have hmem := List.mem_map_of_mem (f := Prod.fst) hcheck
  rw [hdefaults] at hmem
  exact List.eq_of_mem_replicate hmem

/-! ## Device coupling -/

structure FaceModelInfo where
  id : UInt32
  label : String
  deviceId : Option String

structure DeviceFingerprint where
  vid : Option String
  pid : Option String
  serial : Option String

structure DeviceBindingPolicy where
  enabled : Bool
  granularity : DeviceMatchGranularity
  allowLegacy : Bool

def SecurityConfig.deviceBindingPolicy (security : SecurityConfig) : DeviceBindingPolicy :=
  { enabled := security.bindTemplatesToDevice
    granularity := security.deviceMatchGranularity
    allowLegacy := security.bindLegacyTemplates }

/-- The next piece of `splitn`, and the text after its colon. -/
def splitField (text : List Char) : List Char × List Char :=
  (text.takeWhile (· ≠ ':'), (text.dropWhile (· ≠ ':')).tail)

def eqIgnoreAsciiCase (left right : List Char) : Bool :=
  left.map Char.toLower == right.map Char.toLower

def deviceIdsMatch (storedCanonical : String) (live : DeviceFingerprint)
    (granularity : DeviceMatchGranularity) : Bool :=
  -- The third field keeps the colons of a serial.
  let (storedVid, afterVid) := splitField storedCanonical.toList
  let (storedPid, storedSerial) := splitField afterVid
  let liveVid := (live.vid.getD "").toList
  let livePid := (live.pid.getD "").toList
  let liveSerial := (live.serial.getD "").toList
  let modelOk := !storedVid.isEmpty && !storedPid.isEmpty &&
    eqIgnoreAsciiCase storedVid liveVid && eqIgnoreAsciiCase storedPid livePid
  if !modelOk then false
  else
    match granularity with
    | .model => true
    | .unit => !storedSerial.isEmpty && !liveSerial.isEmpty && storedSerial == liveSerial

def deviceBindingAllows (deviceId : Option String) (live : DeviceFingerprint)
    (policy : DeviceBindingPolicy) : Bool :=
  if !policy.enabled then true
  else
    match deviceId with
    | none => policy.allowLegacy
    | some stored =>
      if stored = "" then policy.allowLegacy
      else deviceIdsMatch stored live policy.granularity

/-- `device_allowed_model_ids`.  The set of the source is a list here. -/
def deviceAllowedModelIds (models : List FaceModelInfo) (live : DeviceFingerprint)
    (policy : DeviceBindingPolicy) : List UInt32 :=
  (models.filter fun model => deviceBindingAllows model.deviceId live policy).map FaceModelInfo.id

/-! ## Enrollment -/

section

variable (fp : DeviceFingerprint) (security : SecurityConfig)

def DeviceFingerprint.canonical : String :=
  fp.vid.getD "" ++ ":" ++ fp.pid.getD "" ++ ":" ++ fp.serial.getD ""

def DeviceFingerprint.isUnknown : Bool :=
  !((fp.vid.any fun vid => vid ≠ "") && fp.pid.any fun pid => pid ≠ "")

def DeviceFingerprint.canonicalForStorage : Option String :=
  if fp.isUnknown then none else some fp.canonical

def DeviceFingerprint.hasSerial : Bool :=
  fp.serial.any fun serial => serial ≠ ""

/-- Each refusal names the identity of the camera. -/
inductive EnrollmentBindingError where
  | unitNeedsSerial (identity : String)
  | unitNeedsIdentity (identity : String)
  | legacyBarredNeedsIdentity (identity : String)
  deriving DecidableEq, Repr

def SecurityConfig.ensureEnrollmentBindingAllowed : Except EnrollmentBindingError Unit :=
  if security.deviceMatchGranularity = .unit ∧ fp.hasSerial = false then
    .error (.unitNeedsSerial fp.canonical)
  else if security.deviceMatchGranularity = .unit ∧ fp.canonicalForStorage = none then
    .error (.unitNeedsIdentity fp.canonical)
  else if security.bindTemplatesToDevice = true ∧ security.bindLegacyTemplates = false ∧
      fp.canonicalForStorage = none then
    .error (.legacyBarredNeedsIdentity fp.canonical)
  else .ok ()

theorem ensureEnrollmentBindingAllowed_eq_ok :
    security.ensureEnrollmentBindingAllowed fp = .ok () ↔
      (security.deviceMatchGranularity = .unit → fp.hasSerial = true ∧ fp.isUnknown = false) ∧
      (security.bindTemplatesToDevice = true →
        security.bindLegacyTemplates = true ∨ fp.isUnknown = false) := by
  have hnone : fp.canonicalForStorage = none ↔ fp.isUnknown = true := by
    simp [DeviceFingerprint.canonicalForStorage]
  simp only [SecurityConfig.ensureEnrollmentBindingAllowed, hnone]
  cases fp.isUnknown <;> cases fp.hasSerial <;> cases security.deviceMatchGranularity <;>
    cases security.bindLegacyTemplates <;> cases security.bindTemplatesToDevice <;> simp

theorem splitField_append {field} (rest : List Char) (h : ':' ∉ field) :
    splitField (field ++ ':' :: rest) = (field, rest) := by
  have hall : ∀ c ∈ field, (fun c => decide (c ≠ ':')) c = true := by
    intro c hc
    exact decide_eq_true fun heq => h (heq ▸ hc)
  rw [splitField, List.takeWhile_append_of_pos hall, List.dropWhile_append_of_pos hall]
  simp

/-- The id of a camera matches the camera, at the finer granularity if it
has a serial. -/
theorem deviceIdsMatch_canonical {fp granularity} (hvid : ∀ vid ∈ fp.vid, ':' ∉ vid.toList)
    (hpid : ∀ pid ∈ fp.pid, ':' ∉ pid.toList) (hknown : fp.isUnknown = false)
    (hserial : granularity = .unit → fp.hasSerial = true) :
    deviceIdsMatch fp.canonical fp granularity = true := by
  obtain ⟨vid, pid, serial⟩ := fp
  obtain ⟨⟨vid, rfl, hvidNe⟩, pid, rfl, hpidNe⟩ :
      (∃ v, vid = some v ∧ v ≠ "") ∧ ∃ p, pid = some p ∧ p ≠ "" := by
    cases vid <;> cases pid <;> simp_all [DeviceFingerprint.isUnknown]
  have hlist : (DeviceFingerprint.canonical ⟨some vid, some pid, serial⟩).toList =
      vid.toList ++ ':' :: (pid.toList ++ ':' :: (serial.getD "").toList) := by
    simp [DeviceFingerprint.canonical]
  rw [deviceIdsMatch, hlist, splitField_append _ (hvid vid rfl)]
  simp only [splitField_append _ (hpid pid rfl)]
  cases granularity with
  | model => simp [eqIgnoreAsciiCase, hvidNe, hpidNe]
  | unit =>
    have hsome := hserial rfl
    cases serial with
    | none => cases hsome
    | some serial =>
      have hne : serial ≠ "" := by simpa [DeviceFingerprint.hasSerial] using hsome
      simp [eqIgnoreAsciiCase, hvidNe, hpidNe, hne]

/-- A template that enrollment accepts is compared on its own camera once
coupling is on, unless the camera has no identity, coupling is off and
templates without an id are barred. -/
theorem enrolled_template_allowed_iff
    (hvid : ∀ vid ∈ fp.vid, ':' ∉ vid.toList) (hpid : ∀ pid ∈ fp.pid, ':' ∉ pid.toList) :
    (security.ensureEnrollmentBindingAllowed fp = .ok () →
      deviceBindingAllows fp.canonicalForStorage fp
        { security with bindTemplatesToDevice := true }.deviceBindingPolicy = true) ↔
    (fp.isUnknown = true → security.deviceMatchGranularity = .unit ∨
      security.bindLegacyTemplates = true ∨ security.bindTemplatesToDevice = true) := by
  rw [ensureEnrollmentBindingAllowed_eq_ok]
  cases hknown : fp.isUnknown with
  | true =>
    simp only [deviceBindingAllows, DeviceFingerprint.canonicalForStorage, hknown, if_true,
      SecurityConfig.deviceBindingPolicy]
    cases security.deviceMatchGranularity <;> cases security.bindLegacyTemplates <;>
      cases security.bindTemplatesToDevice <;> simp
  | false =>
    refine iff_of_true (fun hok => ?_) (fun h => nomatch h)
    have hmatch := deviceIdsMatch_canonical hvid hpid hknown fun hunit => (hok.1 hunit).1
    have hne : fp.canonical ≠ "" := by
      intro hempty
      have hlength := congrArg String.length hempty
      simp [DeviceFingerprint.canonical] at hlength
    simpa [deviceBindingAllows, DeviceFingerprint.canonicalForStorage, hknown,
      SecurityConfig.deviceBindingPolicy, hne] using hmatch

/-- A camera with an identity, at the finer granularity. -/
theorem enrolled_template_allowed_iff_unit :
    deviceBindingAllows (some "046d:085e:a:b") ⟨some "046d", some "085e", some "a:b"⟩
      { enabled := true, granularity := .unit, allowLegacy := false } = true :=
  (enrolled_template_allowed_iff ⟨some "046d", some "085e", some "a:b"⟩
    { deviceMatchGranularity := .unit, bindLegacyTemplates := false } (by decide) (by decide)).mpr
    (by decide) rfl

/-- Coupling is off, and a camera without an identity enrolls. -/
theorem enrolled_template_excluded :
    let security : SecurityConfig :=
      { bindTemplatesToDevice := false, bindLegacyTemplates := false }
    let fp : DeviceFingerprint := ⟨none, none, none⟩
    security.ensureEnrollmentBindingAllowed fp = .ok () ∧
      deviceBindingAllows fp.canonicalForStorage fp
        { security with bindTemplatesToDevice := true }.deviceBindingPolicy = false :=
  ⟨rfl, rfl⟩

end

end Facelock.Auth
