import Facelock.Camera.Open
import Mathlib.Algebra.Order.Floor.Ring
import Mathlib.Data.Int.Log
import Mathlib.Data.Rat.Floor
import Mathlib.Tactic.FieldSimp
import Mathlib.Tactic.Linarith

/-!
# The sizes of a captured frame

`Camera::capture` of `crates/facelock-camera/src/capture.rs` with the
converters of `preprocess.rs`, and the reads of `letterbox` in
`crates/facelock-face/src/detector.rs`.  The branch that downscales compares
the height of the camera with itself, so it is left out.

A frame carries the width and the height that were negotiated.  Only the
converters of GREY and NV12 compare them with the buffer.  The others convert
what is there, so the number of pixels is that of the buffer or of the JPEG.
A rotation by 90, 180 or 270 degrees rejects too few and drops what is too
much, and any other rotation only rejects.  The last section says when a
capture keeps to its size.

An index out of range ends the program and is `none` here.  `usize` has 64
bits and wraps, as in a release build, and an allocation does not fail.
-/

namespace Facelock.Camera

open List

/-! ## Converters -/

def chromaQ10 (u v : UInt8) : Int × Int × Int :=
  let u : Int := u.toNat - 128
  let v : Int := v.toNat - 128
  (1436 * v, -(352 * u + 731 * v), 1814 * u)

def yuvToRgbPx (y : UInt8) (chroma : Int × Int × Int) : List UInt8 :=
  let channel (c : Int) : UInt8 := UInt8.ofNat (min ((y.toNat * 1024 + c) / 1024) 255).toNat
  [channel chroma.1, channel chroma.2.1, channel chroma.2.2]

def yuyvToRgb : List UInt8 → List UInt8
  | y0 :: u :: y1 :: v :: rest =>
    yuvToRgbPx y0 (chromaQ10 u v) ++ yuvToRgbPx y1 (chromaQ10 u v) ++ yuyvToRgb rest
  | _ => []

def y16ToGray (shift : UInt8) : List UInt8 → List UInt8
  | lo :: hi :: rest =>
    UInt8.ofNat (min ((lo.toNat + 256 * hi.toNat) >>> (shift.toNat % 16)) 255) ::
      y16ToGray shift rest
  | _ => []

def rgbToGray : List UInt8 → List UInt8
  | r :: g :: b :: rest =>
    UInt8.ofNat ((77 * r.toNat + 150 * g.toNat + 29 * b.toNat) / 256) :: rgbToGray rest
  | _ => []

/-- A gray pixel as RGB. -/
def replicated (gray : List UInt8) : List UInt8 := gray.flatMap fun p => [p, p, p]

/-- The loop over the rows of a GREY frame. -/
def greyRows (width stride : Nat) : Nat → List UInt8 → Option (List UInt8)
  | 0, _ => some []
  | height + 1, buf =>
    if buf = [] then some []
    else if (buf.take stride).length < width then none
    else (greyRows width stride height (buf.drop stride)).map fun rest =>
      replicated ((buf.take stride).take width) ++ rest

def greyToRgb (buf : List UInt8) (width height stride : Nat) : Except String (List UInt8) :=
  let short := "GREY frame too short: " ++ toString buf.length ++ " bytes for " ++
    toString width ++ "x" ++ toString height ++ " (stride " ++ toString stride ++ ")"
  let needed := if height = 0 then 0 else stride * (height - 1) + width
  if stride < width ∨ buf.length < needed then .error short
  else (greyRows width (max stride 1) height buf).elim (.error short) .ok

/-- The bytes of an NV12 frame: the luma plane and half as many pairs. -/
def nv12Needed (width height : Nat) : Nat :=
  width * height + 2 * ((width + 1) / 2) * ((height + 1) / 2)

/-- The luma and the first chroma byte of a pixel. -/
def nv12Index (width height row col : Nat) : Nat × Nat :=
  (row * width + col, width * height + row / 2 * (2 * ((width + 1) / 2)) + col / 2 * 2)

def nv12ToRgb (data : List UInt8) (width height : Nat) : Option (Except String (List UInt8)) :=
  if data.length < nv12Needed width height % 2 ^ 64 then
    some (.error ("NV12 frame too short: " ++ toString data.length ++ " bytes for " ++
      toString width ++ "x" ++ toString height))
  else if ∀ row < height, ∀ col < width, (nv12Index width height row col).1 < data.length ∧
      (nv12Index width height row col).2 + 1 < data.length then
    some (.ok ((List.range height).flatMap fun row => (List.range width).flatMap fun col =>
      let index := nv12Index width height row col
      yuvToRgbPx (data.getD index.1 0)
        (chromaQ10 (data.getD index.2 0) (data.getD (index.2 + 1) 0))))
  else none

/-! ## Captures -/

/-- What the driver delivers to each call.  A slice has less than `2 ^ 63`
bytes. -/
structure FrameStream where
  next : Nat → Except String (List UInt8)
  /-- The calibration budget has not run out before the call. -/
  inBudget : Nat → Bool
  length_lt : ∀ n buf, next n = .ok buf → buf.length < 2 ^ 63

/-- The `image` crate: a JPEG of any size as packed RGB, and the rotations,
which return as many pixels as they are given. -/
structure ImageCrate where
  decodeJpeg : List UInt8 → Except String (List UInt8)
  rotate : UInt16 → Nat → Nat → List UInt8 → List UInt8
  length_rotate : ∀ degrees width height rgb,
    (rotate degrees width height rgb).length = 3 * (width * height)

structure Frame where
  rgb : List UInt8
  gray : List UInt8
  width : Nat
  height : Nat

def y16Peak : List UInt8 → Nat
  | lo :: hi :: rest => max (lo.toNat + 256 * hi.toNat) (y16Peak rest)
  | _ => 0

def y16ShiftFromPeak (peak : Nat) : UInt8 :=
  UInt8.ofNat ((if peak = 0 then 0 else peak.log2 + 1) - 8)

section Capture

variable (image : ImageCrate) (stream : FrameStream) (camera : OpenCamera)

/-- The loop of `calibrate_y16_shift`, for the frames that are left. -/
def calibrationBurst : Nat → Nat → Nat → Except String (Nat × Nat)
  | 0, frames, peak => .ok (peak, frames)
  | left + 1, frames, peak =>
    if stream.inBudget frames then
      match stream.next frames with
      | .ok buf => calibrationBurst left (frames + 1) (max peak (y16Peak buf))
      | .error e =>
        .error (camera.devicePath ++ ": Y16 calibration failed after " ++ toString frames ++
          " frame(s): " ++ e)
    else .ok (peak, frames)

def calibrateY16Shift : Except String (UInt8 × Nat) := do
  let (peak, frames) ← calibrationBurst stream camera camera.y16CalibrationFrames.toNat 0 0
  if frames = 0 then
    throw (camera.devicePath ++ ": Y16 calibration failed: no frame arrived within the " ++
      "calibration budget")
  return (y16ShiftFromPeak peak, frames)

/-- The frames that are thrown away after the burst. -/
def warmUp : Nat → Nat → Except String Unit
  | 0, _ => .ok ()
  | left + 1, frames =>
    match stream.next frames with
    | .ok _ => warmUp left (frames + 1)
    | .error e => .error ("warmup after Y16 calibration failed: " ++ e)

/-- The camera with a scale, and the number of frames that took. -/
def pinScale : Except String (OpenCamera × Nat) :=
  if camera.format = "Y16" ∧ camera.y16Shift = none then do
    let (shift, frames) ← calibrateY16Shift stream camera
    let topUp := camera.warmupFrames.toNat - frames
    warmUp stream topUp frames
    return ({ camera with y16Shift := some shift }, frames + topUp)
  else return (camera, 0)

def decode (buf : List UInt8) : Option (Except String (List UInt8)) :=
  let width := camera.width.toNat
  let height := camera.height.toNat
  if camera.format = "GREY" then some (greyToRgb buf width height camera.stride.toNat)
  else if camera.format = "Y16" then
    some (camera.y16Shift.elim (.error "Y16 conversion scale was not initialized") fun shift =>
      .ok (replicated (y16ToGray shift buf)))
  else if camera.format = "YUYV" then some (.ok (yuyvToRgb buf))
  else if camera.format = "NV12" then nv12ToRgb buf width height
  else if camera.format = "MJPG" then
    some ((image.decodeJpeg buf).mapError ("MJPG decode failed: " ++ ·))
  else some (.error ("unsupported format: " ++ camera.format))

/-- `RgbImage::from_raw` takes a buffer that is longer than the image, and
`into_raw` returns all of it. -/
def rotateRgb (rotation : UInt16) (width height : Nat) (rgb : List UInt8) :
    Except String (List UInt8 × Nat × Nat) :=
  if rotation = 0 then .ok (rgb, width, height)
  else if rgb.length < 3 * (width * height) then .error "failed to create image for rotation"
  else if rotation = 90 ∨ rotation = 270 then
    .ok (image.rotate rotation width height rgb, height, width)
  else if rotation = 180 then .ok (image.rotate rotation width height rgb, width, height)
  else .ok (rgb, width, height)

def captureRgb : Option (Except String ((List UInt8 × Nat × Nat) × OpenCamera)) :=
  match pinScale stream camera with
  | .error e => some (.error e)
  | .ok (camera, used) =>
    match stream.next used with
    | .error e => some (.error ("capture failed: " ++ e))
    | .ok buf => (decode image camera buf).map fun decoded =>
      decoded.bind fun rgb =>
        (rotateRgb image camera.rotation camera.width.toNat camera.height.toNat rgb).map
          fun frame => (frame, camera)

def capture : Option (Except String (Frame × OpenCamera)) :=
  (captureRgb image stream camera).map fun result => result.map fun captured =>
    let (rgb, width, height) := captured.1
    ({ rgb, gray := rgbToGray rgb, width, height }, captured.2)

end Capture

/-! ## Sizes -/

theorem length_yuyvToRgb : ∀ buf : List UInt8, (yuyvToRgb buf).length = 6 * (buf.length / 4)
  | [] | [_] | [_, _] | [_, _, _] => by simp [yuyvToRgb]
  | y0 :: u :: y1 :: v :: rest => by
    simp only [yuyvToRgb, yuvToRgbPx, length_append, length_yuyvToRgb rest, length_cons, length_nil]
    omega

theorem length_y16ToGray (shift : UInt8) :
    ∀ buf : List UInt8, (y16ToGray shift buf).length = buf.length / 2
  | [] | [_] => by simp [y16ToGray]
  | lo :: hi :: rest => by
    simp only [y16ToGray, length_cons, length_y16ToGray shift rest]
    omega

theorem length_rgbToGray : ∀ rgb : List UInt8, (rgbToGray rgb).length = rgb.length / 3
  | [] | [_] | [_, _] => by simp [rgbToGray]
  | r :: g :: b :: rest => by
    simp only [rgbToGray, length_cons, length_rgbToGray rest]
    omega

theorem length_replicated (gray : List UInt8) : (replicated gray).length = 3 * gray.length := by
  simp [replicated, length_flatMap, Nat.mul_comm]

theorem length_greyRows {width stride height buf rgb}
    (hlength : height ≠ 0 → width ≠ 0 → stride * (height - 1) + width ≤ buf.length)
    (h : greyRows width stride height buf = some rgb) : rgb.length = 3 * (width * height) := by
  induction height generalizing buf rgb with
  | zero =>
    cases h
    rfl
  | succ height ih =>
    have hlength := hlength (Nat.succ_ne_zero _)
    rw [greyRows] at h
    split_ifs at h with hnil hshort
    · cases h
      rw [hnil, length_nil] at hlength
      have hwidth : width = 0 := by omega
      simp [hwidth]
    · obtain ⟨rest, hrest, rfl⟩ := Option.map_eq_some_iff.mp h
      have hbelow : rest.length = 3 * (width * height) := by
        refine ih (fun hzero hwidth => ?_) hrest
        obtain ⟨n, rfl⟩ := Nat.exists_eq_add_one_of_ne_zero hzero
        have hrows := hlength hwidth
        rw [Nat.add_sub_cancel, Nat.mul_succ] at hrows
        rw [Nat.add_sub_cancel, length_drop]
        omega
      have hrow : min width (buf.take stride).length = width := by omega
      rw [length_append, length_replicated, hbelow, length_take, hrow, Nat.mul_succ]
      omega

theorem length_greyToRgb {buf rgb width height stride}
    (h : greyToRgb buf width height stride = .ok rgb) : rgb.length = 3 * (width * height) := by
  unfold greyToRgb at h
  by_cases hshort : stride < width ∨
      buf.length < if height = 0 then 0 else stride * (height - 1) + width
  · simp [hshort] at h
  · simp only [if_neg hshort] at h
    rw [not_or, Nat.not_lt, Nat.not_lt] at hshort
    cases hrows : greyRows width (max stride 1) height buf with
    | none => simp [hrows] at h
    | some rows =>
      obtain rfl : rows = rgb := by simpa [hrows] using h
      refine length_greyRows (fun hheight hwidth => ?_) hrows
      rw [if_neg hheight] at hshort
      rw [Nat.max_eq_left (by omega)]
      exact hshort.2

theorem nv12Index_lt {width height row col} (hrow : row < height) (hcol : col < width) :
    (nv12Index width height row col).1 < nv12Needed width height ∧
      (nv12Index width height row col).2 + 1 < nv12Needed width height := by
  have hluma : (row + 1) * width ≤ height * width := Nat.mul_le_mul_right _ hrow
  have hpairs : (row / 2 + 1) * (2 * ((width + 1) / 2)) ≤
      (height + 1) / 2 * (2 * ((width + 1) / 2)) := Nat.mul_le_mul_right _ (by omega)
  rw [Nat.add_mul, Nat.one_mul] at hluma hpairs
  unfold nv12Index nv12Needed
  rw [Nat.mul_comm width height, Nat.mul_comm _ ((height + 1) / 2)]
  constructor
  · show row * width + col < _
    omega
  · show height * width + row / 2 * (2 * ((width + 1) / 2)) + col / 2 * 2 + 1 < _
    omega

/-- A frame whose size wraps around is not in any buffer. -/
theorem lt_of_nv12Needed {width height} (hwidth : width < 2 ^ 32) (hheight : height < 2 ^ 32)
    (h : 2 ^ 64 ≤ nv12Needed width height) : 2 ^ 63 < width * height := by
  have hpairs : 2 * ((width + 1) / 2) * (2 * ((height + 1) / 2)) ≤ (width + 1) * (height + 1) :=
    Nat.mul_le_mul (by omega) (by omega)
  have hprod : (width + 1) * (height + 1) = width * height + width + height + 1 := by ring
  have hdouble : 2 * ((width + 1) / 2) * (2 * ((height + 1) / 2)) =
      2 * (2 * ((width + 1) / 2) * ((height + 1) / 2)) := by ring
  unfold nv12Needed at h
  omega

/-- The length that the converter of NV12 asks for is not a wrapped one, or
the buffer does not reach it. -/
def Nv12Fits (width height length : Nat) : Prop :=
  nv12Needed width height < 2 ^ 64 ∨ length < nv12Needed width height % 2 ^ 64

/-- A frame is whole, and the converter panics exactly on a wrapped length
that the buffer reaches. -/
theorem nv12ToRgb_spec {data width height} (hdata : data.length < 2 ^ 63) (hwidth : width < 2 ^ 32)
    (hheight : height < 2 ^ 32) :
    (Nv12Fits width height data.length ↔ nv12ToRgb data width height ≠ none) ∧
      ∀ rgb, nv12ToRgb data width height = some (.ok rgb) →
        rgb.length = 3 * (width * height) := by
  unfold nv12ToRgb
  split_ifs with hshort hread
  · exact ⟨iff_of_true (.inr hshort) (by simp), by simp⟩
  · refine ⟨iff_of_true ?_ (by simp), fun rgb h => ?_⟩
    · by_contra hfits
      rw [Nv12Fits, not_or, Nat.not_lt] at hfits
      have hlarge := lt_of_nv12Needed hwidth hheight hfits.1
      have hpos : 0 < width * height := by omega
      have hfirst := (hread 0 (Nat.pos_of_mul_pos_left hpos) 0 (Nat.pos_of_mul_pos_right hpos)).2
      simp only [nv12Index] at hfirst
      omega
    · cases h
      simp [length_flatMap, yuvToRgbPx]
      ring
  · refine ⟨iff_of_false ?_ (by simp), by simp⟩
    rintro (hfits | hfits)
    · rw [Nat.mod_eq_of_lt hfits, Nat.not_lt] at hshort
      apply hread
      intro row hrow col hcol
      obtain ⟨hluma, hpair⟩ := nv12Index_lt hrow hcol
      exact ⟨hluma.trans_le hshort, hpair.trans_le hshort⟩
    · exact hshort hfits

/-! ## Letterbox -/

/-- To the nearest integer, and to the even one of two. -/
def roundEven (x : ℚ) : ℤ :=
  if Int.fract x < 1 / 2 then ⌊x⌋
  else if 1 / 2 < Int.fract x then ⌊x⌋ + 1
  else if ⌊x⌋ % 2 = 0 then ⌊x⌋ else ⌊x⌋ + 1

/-- The nearest `f32`, a number of 24 bits.  The numbers here are far from the
smallest and the largest exponent. -/
def f32 (x : ℚ) : ℚ :=
  let ulp : ℚ := 2 ^ (Int.log 2 x - 23)
  roundEven (x / ulp) * ulp

theorem abs_roundEven_sub_le (x : ℚ) : |(roundEven x : ℚ) - x| ≤ 1 / 2 := by
  have hfract : Int.fract x = x - ⌊x⌋ := rfl
  unfold roundEven
  rw [abs_le]
  split_ifs <;> push_cast <;> constructor <;> linarith [Int.fract_nonneg x, Int.fract_lt_one x]

theorem abs_f32_sub_le {x : ℚ} (hx : 0 ≤ x) : |f32 x - x| ≤ x / 2 ^ 24 := by
  obtain rfl | hpos := hx.eq_or_lt
  · simp [f32, roundEven]
  · unfold f32
    set ulp : ℚ := 2 ^ (Int.log 2 x - 23) with hulp
    have hulp_pos : 0 < ulp := zpow_pos (by norm_num) _
    have hlog : ulp * 2 ^ 23 ≤ x := by
      have hle : (2 : ℚ) ^ Int.log 2 x ≤ x := Int.zpow_log_le_self one_lt_two hpos
      rwa [hulp, zpow_sub₀ two_ne_zero, zpow_ofNat, div_mul_cancel₀ _ (by norm_num)]
    calc |(roundEven (x / ulp) : ℚ) * ulp - x|
        = |(roundEven (x / ulp) : ℚ) - x / ulp| * ulp := by
          rw [← abs_of_pos hulp_pos, ← abs_mul, abs_of_pos hulp_pos, sub_mul,
            div_mul_cancel₀ _ hulp_pos.ne']
      _ ≤ 1 / 2 * ulp := by
          gcongr
          exact abs_roundEven_sub_le _
      _ ≤ x / 2 ^ 24 := by
          norm_num at hlog ⊢
          linarith

section Letterbox

/-- A side of the resized image.  A side of no pixels has no scale, and then
nothing is read. -/
def newSide (side : Nat) (scale : ℚ) : Nat := ⌊f32 (f32 side * scale) + 1 / 2⌋₊

/-- The row or column of the source, `y0` or `x0`. -/
def sourceIndex (side new d : Nat) : Nat :=
  ⌊f32 (f32 d * f32 (f32 side / f32 new))⌋₊

/-- All bytes that `letterbox` reads for the detector are there. -/
def LetterboxReads (width height length : Nat) : Prop :=
  let scale := min (f32 (640 / f32 width)) (f32 (640 / f32 height))
  ∀ dy < newSide height scale, ∀ dx < newSide width scale,
    let y0 := sourceIndex height (newSide height scale) dy
    let x0 := sourceIndex width (newSide width scale) dx
    ∀ y ∈ [y0, min (y0 + 1) (height - 1)], ∀ x ∈ [x0, min (x0 + 1) (width - 1)],
      (y * width + x) * 3 + 2 < length

variable {side : Nat}

theorem le_f32 {x} (hx : 0 ≤ x) : x * (1 - 1 / 2 ^ 24) ≤ f32 x := by
  linarith [(abs_le.mp (abs_f32_sub_le hx)).1]

theorem f32_le {x} (hx : 0 ≤ x) : f32 x ≤ x * (1 + 1 / 2 ^ 24) := by
  linarith [(abs_le.mp (abs_f32_sub_le hx)).2]

theorem f32_nonneg {x} (hx : 0 ≤ x) : 0 ≤ f32 x :=
  le_trans (mul_nonneg hx (by norm_num)) (le_f32 hx)

theorem newSide_le {scale} (hpos : 0 ≤ scale)
    (hscale : scale ≤ f32 (640 / f32 side)) : newSide side scale ≤ 640 := by
  have hside : 0 ≤ f32 side := f32_nonneg (Nat.cast_nonneg side)
  have hfits : f32 side * scale ≤ 640 * (1 + 1 / 2 ^ 24) := by
    rcases hside.eq_or_lt with hzero | hside
    · rw [← hzero, zero_mul]
      norm_num
    · calc f32 side * scale
          ≤ f32 side * (640 / f32 side * (1 + 1 / 2 ^ 24)) := by
            gcongr
            exact hscale.trans (f32_le (by positivity))
        _ = 640 * (1 + 1 / 2 ^ 24) := by field_simp
  have hround := f32_le (mul_nonneg hside hpos)
  refine Nat.le_of_lt_succ ((Nat.floor_lt' (by decide)).mpr ?_)
  norm_num at hround hfits ⊢
  linarith

theorem sourceIndex_lt {new d} (hside : 0 < side) (hnew : new ≤ 640) (hd : d < new) :
    sourceIndex side new d < side := by
  have hdpos : (0 : ℚ) ≤ f32 d := f32_nonneg (Nat.cast_nonneg d)
  have hquot : 0 ≤ f32 side / f32 new :=
    div_nonneg (f32_nonneg (Nat.cast_nonneg side)) (f32_nonneg (Nat.cast_nonneg new))
  have hnewpos : (0 : ℚ) < new := by exact_mod_cast (Nat.zero_le d).trans_lt hd
  have hsidepos : (0 : ℚ) < side := by exact_mod_cast hside
  -- five roundings lose less than one step of at most 640
  have hstep : (d : ℚ) * (1 + 1 / 2 ^ 24) ^ 4 < new * (1 - 1 / 2 ^ 24) := by
    have hd' : (d : ℚ) + 1 ≤ new := by exact_mod_cast hd
    have hnew' : (new : ℚ) ≤ 640 := by exact_mod_cast hnew
    norm_num
    linarith
  rw [sourceIndex, Nat.floor_lt' hside.ne']
  calc f32 (f32 d * f32 (f32 side / f32 new))
      ≤ f32 d * f32 (f32 side / f32 new) * (1 + 1 / 2 ^ 24) :=
        f32_le (mul_nonneg hdpos (f32_nonneg hquot))
    _ ≤ d * (1 + 1 / 2 ^ 24) *
          (side * (1 + 1 / 2 ^ 24) / (new * (1 - 1 / 2 ^ 24)) * (1 + 1 / 2 ^ 24)) *
          (1 + 1 / 2 ^ 24) := by
        gcongr
        · exact f32_nonneg hquot
        · exact f32_le (Nat.cast_nonneg d)
        · refine (f32_le hquot).trans ?_
          gcongr
          · exact f32_le hsidepos.le
          · exact le_f32 hnewpos.le
    _ = side * (d * (1 + 1 / 2 ^ 24) ^ 4 / (new * (1 - 1 / 2 ^ 24))) := by ring
    _ < side * 1 := by
        gcongr
        rw [div_lt_one (mul_pos hnewpos (by norm_num))]
        exact hstep
    _ = side := mul_one _

theorem side_pos {scale d} (hd : d < newSide side scale) : 0 < side := by
  by_contra hzero
  have hround : f32 0 = 0 :=
    le_antisymm (by simpa using f32_le le_rfl) (f32_nonneg le_rfl)
  have hfloor : ⌊(0 : ℚ) + 1 / 2⌋₊ = 0 := Nat.floor_eq_zero.mpr (by norm_num)
  rw [Nat.eq_zero_of_not_pos hzero, newSide, Nat.cast_zero, hround, zero_mul, hround, hfloor] at hd
  exact Nat.not_lt_zero d hd

theorem letterboxReads_of_length {width height length}
    (hlength : length = 3 * (width * height)) : LetterboxReads width height length := by
  unfold LetterboxReads
  intro scale dy hdy dx hdx y0 x0 y hy x hx
  have hscale : 0 ≤ scale :=
    le_min (f32_nonneg (div_nonneg (by norm_num) (f32_nonneg (Nat.cast_nonneg _))))
      (f32_nonneg (div_nonneg (by norm_num) (f32_nonneg (Nat.cast_nonneg _))))
  have hheight := side_pos hdy
  have hwidth := side_pos hdx
  have hy0 : y0 < height := sourceIndex_lt hheight (newSide_le hscale (min_le_right _ _)) hdy
  have hx0 : x0 < width := sourceIndex_lt hwidth (newSide_le hscale (min_le_left _ _)) hdx
  have hrow : y + 1 ≤ height := by
    rcases mem_pair.mp hy with rfl | rfl <;> omega
  have hcol : x < width := by
    rcases mem_pair.mp hx with rfl | rfl <;> omega
  have hrows := Nat.mul_le_mul_right width hrow
  rw [Nat.add_mul, Nat.one_mul, Nat.mul_comm height] at hrows
  omega

end Letterbox

/-! ## Whole frames -/

/-- A capture ends with an error, or with a frame of its size that the
detector reads within its bounds. -/
def Intact : Option (Except String (Frame × OpenCamera)) → Prop
  | none => False
  | some (.error _) => True
  | some (.ok (frame, _)) =>
    frame.rgb.length = 3 * (frame.width * frame.height) ∧
      frame.gray.length = frame.width * frame.height ∧
      LetterboxReads frame.width frame.height frame.rgb.length

/-- The bytes after a conversion that compares nothing. -/
def unchecked (image : ImageCrate) (format : String) (buf : List UInt8) : Option Nat :=
  if format = "Y16" then some (3 * (buf.length / 2))
  else if format = "YUYV" then some (6 * (buf.length / 4))
  else if format = "MJPG" then (image.decodeJpeg buf).toOption.map List.length
  else none

/-- A rotation passes these bytes on only as the whole image. -/
def Passes (rotation : UInt16) (size length : Nat) : Prop :=
  (rotation = 0 → length = size) ∧ (rotation ∉ [0, 90, 180, 270] → length ≤ size)

/-- What a capture of this camera needs of the buffer it converts. -/
def Whole (image : ImageCrate) (camera : OpenCamera) (buf : List UInt8) : Prop :=
  (camera.format = "NV12" → Nv12Fits camera.width.toNat camera.height.toNat buf.length) ∧
    ∀ length ∈ unchecked image camera.format buf,
      Passes camera.rotation (3 * (camera.width.toNat * camera.height.toNat)) length

/-- The buffer that a capture converts. -/
def delivered (stream : FrameStream) (camera : OpenCamera) : Option (List UInt8) :=
  (pinScale stream camera).toOption.bind fun pinned => (stream.next pinned.2).toOption

theorem intact_frame {rgb width height camera} :
    Intact (some (.ok ({ rgb, gray := rgbToGray rgb, width, height }, camera))) ↔
      rgb.length = 3 * (width * height) := by
  refine ⟨fun h => h.1, fun h => ⟨h, ?_, letterboxReads_of_length h⟩⟩
  show (rgbToGray rgb).length = width * height
  rw [length_rgbToGray, h]
  omega

section Whole

variable (image : ImageCrate) {stream : FrameStream} {camera settled : OpenCamera}
  {buf rgb : List UInt8}

theorem intact_rotateRgb {width height} :
    Intact (some ((rotateRgb image camera.rotation width height rgb).map fun frame =>
        ({ rgb := frame.1, gray := rgbToGray frame.1, width := frame.2.1, height := frame.2.2 },
          camera))) ↔
      Passes camera.rotation (3 * (width * height)) rgb.length := by
  unfold rotateRgb
  split_ifs with hzero hshort hquarter hhalf
  · rw [Except.map, intact_frame, Passes]
    simp [hzero]
  · refine iff_of_true trivial ⟨fun h => absurd h hzero, fun _ => hshort.le⟩
  · rw [Except.map, intact_frame, image.length_rotate, Nat.mul_comm width height]
    refine iff_of_true rfl ⟨fun h => absurd h hzero, fun h => ?_⟩
    rcases hquarter with h' | h' <;> simp [h'] at h
  · rw [Except.map, intact_frame, image.length_rotate]
    refine iff_of_true rfl ⟨fun h => absurd h hzero, fun h => ?_⟩
    simp [hhalf] at h
  · rw [Except.map, intact_frame, Passes]
    have hother : camera.rotation ∉ [0, 90, 180, 270] := by simp_all
    have hlong := Nat.not_lt.mp hshort
    exact ⟨fun h => ⟨fun _ => h, fun _ => h.le⟩, fun h => le_antisymm (h.2 hother) hlong⟩

theorem pinScale_ok {used} (h : pinScale stream camera = .ok (settled, used)) :
    Whole image camera = Whole image settled ∧
      (settled.format = "Y16" → settled.y16Shift ≠ none) := by
  unfold pinScale at h
  split_ifs at h with hscale
  · obtain ⟨calibrated, -, h⟩ := bind_eq_ok h
    obtain ⟨_, -, h⟩ := bind_eq_ok h
    cases h
    exact ⟨rfl, fun _ => Option.some_ne_none _⟩
  · cases h
    exact ⟨rfl, fun hformat hnone => hscale ⟨hformat, hnone⟩⟩

/-- What a conversion says about the buffer. -/
def ConvertedAs (image : ImageCrate) (camera : OpenCamera) (buf : List UInt8) :
    Option (Except String (List UInt8)) → Prop
  | none => ¬Whole image camera buf
  | some (.error _) => Whole image camera buf
  | some (.ok rgb) => Whole image camera buf ↔
      Passes camera.rotation (3 * (camera.width.toNat * camera.height.toNat)) rgb.length

/-- Each converter compares the size itself, or is one of the three that do
not. -/
theorem decode_spec (hbuf : buf.length < 2 ^ 63)
    (hscale : camera.format = "Y16" → camera.y16Shift ≠ none) :
    ConvertedAs image camera buf (decode image camera buf) := by
  have hwidth := camera.width.toNat_lt
  have hheight := camera.height.toNat_lt
  have hany : ∀ length, length = 3 * (camera.width.toNat * camera.height.toNat) →
      Passes camera.rotation (3 * (camera.width.toNat * camera.height.toNat)) length :=
    fun length h => ⟨fun _ => h, fun _ => h.le⟩
  unfold decode
  split_ifs with hgrey hy16 hyuyv hnv12 hmjpg
  · have hwhole : Whole image camera buf := by simp [Whole, unchecked, hgrey]
    show ConvertedAs image camera buf (some (greyToRgb buf _ _ _))
    cases h : greyToRgb buf camera.width.toNat camera.height.toNat camera.stride.toNat with
    | error e => exact hwhole
    | ok rgb => exact iff_of_true hwhole (hany _ (length_greyToRgb h))
  · obtain ⟨shift, hshift⟩ := Option.ne_none_iff_exists'.mp (hscale hy16)
    rw [hshift]
    show _ ↔ Passes _ _ (replicated (y16ToGray shift buf)).length
    rw [length_replicated, length_y16ToGray]
    simp [Whole, unchecked, hy16]
  · show _ ↔ Passes _ _ (yuyvToRgb buf).length
    rw [length_yuyvToRgb]
    simp [Whole, unchecked, hyuyv]
  · obtain ⟨hfits, hlength⟩ := nv12ToRgb_spec hbuf hwidth hheight
    have hwhole : Whole image camera buf ↔ _ := Iff.trans (by simp [Whole, unchecked, hnv12]) hfits
    cases h : nv12ToRgb buf camera.width.toNat camera.height.toNat with
    | none => exact fun hbuf => hwhole.mp hbuf h
    | some converted =>
      have hbuf := hwhole.mpr (by simp [h])
      cases converted with
      | error e => exact hbuf
      | ok rgb => exact iff_of_true hbuf (hany _ (hlength rgb h))
  · cases h : image.decodeJpeg buf with
    | error e => simp [ConvertedAs, Except.mapError, Whole, unchecked, hmjpg, h, Except.toOption]
    | ok rgb => simp [ConvertedAs, Except.mapError, Whole, unchecked, hmjpg, h, Except.toOption]
  · simp [ConvertedAs, Whole, unchecked, hy16, hyuyv, hnv12, hmjpg]

/-- A capture keeps to the size of the camera exactly if the buffer that it
converts is whole. -/
theorem capture_intact_iff (image : ImageCrate) (stream : FrameStream) (camera : OpenCamera) :
    Intact (capture image stream camera) ↔
      ∀ buf ∈ delivered stream camera, Whole image camera buf := by
  unfold capture captureRgb delivered
  cases hpin : pinScale stream camera with
  | error e => exact iff_of_true trivial (by simp [Except.toOption])
  | ok pinned =>
    obtain ⟨settled, used⟩ := pinned
    obtain ⟨hsettled, hscale⟩ := pinScale_ok image hpin
    cases hnext : stream.next used with
    | error e =>
      simp only [hnext]
      exact iff_of_true trivial (by simp [hnext, Except.toOption])
    | ok buf =>
      have hspec := decode_spec image (stream.length_lt used buf hnext) hscale
      simp only [hnext, Except.toOption, Option.bind_some, Option.mem_some_iff, forall_eq',
        hsettled]
      cases hdecode : decode image settled buf with
      | none =>
        rw [hdecode] at hspec
        exact iff_of_false id hspec
      | some converted =>
        rw [hdecode] at hspec
        cases converted with
        | error e => exact iff_of_true trivial hspec
        | ok rgb =>
          refine Iff.trans ?_ hspec.symm
          rw [← intact_rotateRgb image]
          show Intact (some (((rotateRgb image _ _ _ rgb).map _).map _)) ↔ _
          generalize rotateRgb image settled.rotation _ _ rgb = rotated
          cases rotated <;> rfl

/-- Rotations of packed RGB pixels, and no JPEG. -/
def plainImage : ImageCrate where
  decodeJpeg _ := .error "not a JPEG"
  rotate degrees width height rgb :=
    let pixel (x y : Nat) : List UInt8 :=
      (List.range 3).map fun channel => rgb.getD ((y * width + x) * 3 + channel) 0
    if degrees = 180 then
      (List.range height).flatMap fun y => (List.range width).flatMap fun x =>
        pixel (width - 1 - x) (height - 1 - y)
    else
      (List.range width).flatMap fun y => (List.range height).flatMap fun x =>
        if degrees = 90 then pixel y (height - 1 - x) else pixel (width - 1 - y) x
  length_rotate degrees width height rgb := by
    split_ifs <;> simp [length_flatMap] <;> ring

/-- A camera of two by two pixels that delivers these bytes. -/
def captureYuyv (buf : List UInt8) (hbuf : buf.length < 2 ^ 63) :
    Option (Except String (Frame × OpenCamera)) :=
  capture plainImage ⟨fun _ => .ok buf, fun _ => true, by simpa using hbuf⟩
    ⟨2, 2, "YUYV", 4, 0, "/dev/video0", ⟨⟨false, ⟨none, none, none⟩, .notY16⟩, []⟩, some 0, 5, 5⟩

/-- All rows of a YUYV frame. -/
theorem capture_intact_iff_yuyv : Intact (captureYuyv (List.replicate 8 0) (by decide)) :=
  (capture_intact_iff plainImage _ _).mpr fun buf hbuf => by
    cases hbuf
    refine ⟨fun hformat => absurd hformat (by decide), fun length hlength => ?_⟩
    cases hlength
    exact ⟨fun _ => rfl, fun _ => le_rfl⟩

/-- A YUYV buffer with half of the rows. -/
theorem capture_intact_iff_short_yuyv :
    checkStride "YUYV" ⟨2, 2, "YUYV", 4⟩ "/dev/video0" = .ok () ∧
      ¬Intact (captureYuyv [0, 0, 0, 0] (by decide)) := by
  refine ⟨by decide, fun h => ?_⟩
  have hlength : 6 = 12 := h.1
  omega

end Whole

end Facelock.Camera
