import Facelock.Templates.KeyFile
import Mathlib.Algebra.Group.Nat.Defs

/-!
# Sealed keys

`crates/facelock-tpm/src/sealing.rs` keeps an AES key in a file that only
the TPM can open.  The file is a blob of one of two layouts: a version byte
`0x01`, or a version byte `0x03` with the list of the PCR indices that the
object is bound to.  Both go on with the length of the public part, the
public part and the private part.

The TPM itself is a parameter.  `Tpm.create` stands for the sealed object
that `seal_bytes` has it build and serialise, and `Tpm.loadAndUnseal` for loading
and unsealing the parts of a blob.  Either call may fail, and what they
answer depends on the PCR values of the moment.

Every byte that `parseSealedBlob` reads is read inside the bounds of its
input: the accesses carry their proofs.  `parseOrPanic` has the panics of the
code instead, and `parseOrPanic_eq` says that there are none.  The parts of a
blob come back from it, and nothing else is parsed.
-/

namespace Facelock.Keys

open List

open Facelock.Templates (Blob)

abbrev Bytes := List UInt8

/-- An AES key, `[u8; 32]`. -/
abbrev AesKey := { bytes : Bytes // bytes.length = 32 }

def tpmError (text : String) : String :=
  "TPM error: " ++ text

/-! ## The layout -/

def toLeBytes (n : UInt32) : Bytes :=
  [UInt8.ofNat n.toNat, UInt8.ofNat (n.toNat / 256), UInt8.ofNat (n.toNat / 256 ^ 2),
    UInt8.ofNat (n.toNat / 256 ^ 3)]

def fromLeBytes (b0 b1 b2 b3 : UInt8) : UInt32 :=
  UInt32.ofNat (b0.toNat + 256 * b1.toNat + 256 ^ 2 * b2.toNat + 256 ^ 3 * b3.toNat)

/-- The blob that `seal_bytes` lays out.  The casts of the two lengths
wrap. -/
def sealedBlob (pcrIndices : Option (List UInt32)) (pubBytes privBytes : Bytes) : Bytes :=
  (match pcrIndices with
    | none => [Blob.sealedVersionByte]
    | some indices =>
      Blob.sealedPcrVersionByte :: UInt8.ofNat indices.length :: indices.flatMap toLeBytes) ++
    toLeBytes (UInt32.ofNat pubBytes.length) ++ pubBytes ++ privBytes

/-- `parse_sealed_blob`: the PCR indices, the public and the private part. -/
def parseSealedBlob (sealed : Bytes) : Except String (Option (List UInt32) × Bytes × Bytes) :=
  if _ : sealed.length < 5 then .error (tpmError "sealed blob too short")
  else if sealed[0] = Blob.sealedVersionByte then
    let pubLen := (fromLeBytes sealed[1] sealed[2] sealed[3] sealed[4]).toNat
    let body := sealed.drop 5
    if body.length < pubLen then .error (tpmError "sealed blob truncated (public)")
    else .ok (none, body.take pubLen, body.drop pubLen)
  else if sealed[0] = Blob.sealedPcrVersionByte then
    let count := sealed[1].toNat
    let idxEnd := 2 + count * 4
    let lenEnd := idxEnd + 4
    if _ : sealed.length < lenEnd then .error (tpmError "PCR-sealed blob truncated (header)")
    else
      let indices := ofFn fun i : Fin count =>
        fromLeBytes sealed[2 + i.val * 4] sealed[2 + i.val * 4 + 1] sealed[2 + i.val * 4 + 2]
          sealed[2 + i.val * 4 + 3]
      let pubLen := (fromLeBytes sealed[idxEnd] sealed[idxEnd + 1] sealed[idxEnd + 2]
        sealed[idxEnd + 3]).toNat
      let body := sealed.drop lenEnd
      if body.length < pubLen then .error (tpmError "PCR-sealed blob truncated (public)")
      else .ok (some indices, body.take pubLen, body.drop pubLen)
  else
    .error (tpmError ("unrecognized sealed blob version byte: " ++ Blob.hexByte sealed[0]))

/-- `&bytes[start..stop]`.  `none` is a panic. -/
def slice (bytes : Bytes) (start stop : Nat) : Option Bytes :=
  if start ≤ stop ∧ stop ≤ bytes.length then some ((bytes.take stop).drop start) else none

/-- `u32::from_le_bytes` of four bytes that are indexed one by one. -/
def readU32 (bytes : Bytes) (o : Nat) : Option UInt32 := do
  return fromLeBytes (← bytes[o]?) (← bytes[o + 1]?) (← bytes[o + 2]?) (← bytes[o + 3]?)

/-- `parse_sealed_blob` with the panics of its accesses. -/
def parseOrPanic (sealed : Bytes) :
    Option (Except String (Option (List UInt32) × Bytes × Bytes)) := do
  if sealed.length < 5 then return .error (tpmError "sealed blob too short")
  let version ← sealed[0]?
  if version = Blob.sealedVersionByte then
    let pubLen := (← readU32 sealed 1).toNat
    let body ← slice sealed 5 sealed.length
    if body.length < pubLen then return .error (tpmError "sealed blob truncated (public)")
    return .ok (none, ← slice body 0 pubLen, ← slice body pubLen body.length)
  else if version = Blob.sealedPcrVersionByte then
    let count := (← sealed[1]?).toNat
    let idxEnd := 2 + count * 4
    let lenEnd := idxEnd + 4
    if sealed.length < lenEnd then
      return .error (tpmError "PCR-sealed blob truncated (header)")
    let indices ← (finRange count).mapM fun i => readU32 sealed (2 + i.val * 4)
    let pubLen := (← readU32 sealed idxEnd).toNat
    let body ← slice sealed lenEnd sealed.length
    if body.length < pubLen then return .error (tpmError "PCR-sealed blob truncated (public)")
    return .ok (some indices, ← slice body 0 pubLen, ← slice body pubLen body.length)
  else
    return .error (tpmError ("unrecognized sealed blob version byte: " ++ Blob.hexByte version))

/-! ## The TPM -/

/-- The calls of a TPM, by the PCR values it holds. -/
structure Tpm (Pcrs : Type) where
  /-- Seal data, under the current values of the given PCRs if there are
  any.  The answer is the serialised public and private part. -/
  create : Pcrs → Option (List UInt32) → Bytes → Except String (Bytes × Bytes)
  /-- Load the two parts and unseal them, under the policy of the given
  PCRs if there are any. -/
  loadAndUnseal : Pcrs → Option (List UInt32) → Bytes → Bytes → Except String Bytes

variable {Pcrs : Type}

section

variable (tpm : Tpm Pcrs) (pcrs : Pcrs)

def sealBytes (pcrIndices : Option (List UInt32)) (data : Bytes) : Except String Bytes :=
  (tpm.create pcrs pcrIndices data).map fun parts => sealedBlob pcrIndices parts.1 parts.2

def unsealBytes (sealed : Bytes) : Except String Bytes := do
  let (pcrIndices, pubBytes, privBytes) ← parseSealedBlob sealed
  tpm.loadAndUnseal pcrs pcrIndices pubBytes privBytes

/-- `TpmSealer::unseal_key_from_file`, after the read. -/
def unsealKey (blob : Bytes) : Except String AesKey := do
  let unsealed ← unsealBytes tpm pcrs blob
  if h : unsealed.length = 32 then .ok ⟨unsealed, h⟩
  else .error (tpmError ("unsealed key is " ++ toString unsealed.length ++ " bytes, expected 32"))

theorem unsealKey_eq_ok {tpm} {pcrs : Pcrs} {blob key} :
    unsealKey tpm pcrs blob = .ok key ↔ unsealBytes tpm pcrs blob = .ok key.val := by
  unfold unsealKey
  cases hunseal : unsealBytes tpm pcrs blob with
  | error e => simp [bind, Except.bind]
  | ok unsealed =>
    by_cases hlength : unsealed.length = 32
    · simp [bind, Except.bind, hlength, Subtype.ext_iff]
    · have hne : unsealed ≠ key.val := by
        intro heq
        exact hlength (heq ▸ key.property)
      simp [bind, Except.bind, hlength, hne]

theorem unsealBytes_nil : unsealBytes tpm pcrs [] = .error (tpmError "sealed blob too short") := rfl

end

/-! ## Parsing inverts the layout -/

theorem toLeBytes_fromLeBytes (b0 b1 b2 b3 : UInt8) :
    toLeBytes (fromLeBytes b0 b1 b2 b3) = [b0, b1, b2, b3] := by
  have h0 := b0.toNat_lt
  have h1 := b1.toNat_lt
  have h2 := b2.toNat_lt
  have h3 := b3.toNat_lt
  simp only [toLeBytes, fromLeBytes, cons.injEq, and_true, ← UInt8.toNat_inj,
    UInt32.toNat_ofNat', UInt8.toNat_ofNat']
  omega

theorem toLeBytes_injective : Function.Injective toLeBytes := by
  intro m n h
  have hm := m.toNat_lt
  have hn := n.toNat_lt
  simp only [toLeBytes, cons.injEq, and_true, ← UInt8.toNat_inj, UInt8.toNat_ofNat'] at h
  apply UInt32.toNat_inj.mp
  omega

theorem drop_eq_toLeBytes {bytes : Bytes} (h : o + 3 < bytes.length) :
    bytes.drop o =
      toLeBytes (fromLeBytes bytes[o] bytes[o + 1] bytes[o + 2] bytes[o + 3]) ++
        bytes.drop (o + 4) := by
  rw [toLeBytes_fromLeBytes, drop_eq_getElem_cons (show o < bytes.length by omega),
    drop_eq_getElem_cons (show o + 1 < bytes.length by omega),
    drop_eq_getElem_cons (show o + 2 < bytes.length by omega), drop_eq_getElem_cons h]
  rfl

/-- A part of the bytes as a list of words. -/
theorem drop_eq_flatMap {bytes : Bytes} : ∀ n o (h : o + n * 4 ≤ bytes.length),
    bytes.drop o = (ofFn fun i : Fin n =>
      fromLeBytes bytes[o + i.val * 4] bytes[o + i.val * 4 + 1] bytes[o + i.val * 4 + 2]
        bytes[o + i.val * 4 + 3]).flatMap toLeBytes ++ bytes.drop (o + n * 4)
  | 0, o, _ => by simp
  | n + 1, o, h => by
    rw [drop_eq_toLeBytes (by omega), drop_eq_flatMap n (o + 4) (by omega), ofFn_succ]
    simp [Nat.add_mul, Nat.add_assoc, Nat.add_comm]

theorem flatMap_toLeBytes_inj : ∀ {xs ys : List UInt32}, xs.length = ys.length →
    xs.flatMap toLeBytes ++ rest = ys.flatMap toLeBytes ++ rest' → xs = ys ∧ rest = rest'
  | [], [], _, h => ⟨rfl, h⟩
  | x :: xs, y :: ys, hlength, h => by
    simp only [flatMap_cons, append_assoc] at h
    obtain ⟨hword, htail⟩ := append_inj h rfl
    obtain ⟨rfl, hrest⟩ := flatMap_toLeBytes_inj (Nat.succ.inj hlength) htail
    exact ⟨by rw [toLeBytes_injective hword], hrest⟩

theorem parts_eq {body : Bytes} {pubLen : UInt32} (h : ¬ body.length < pubLen.toNat)
    (hpub : body.take pubLen.toNat = pubBytes) (hpriv : body.drop pubLen.toNat = privBytes) :
    toLeBytes pubLen ++ body =
      toLeBytes (UInt32.ofNat pubBytes.length) ++ pubBytes ++ privBytes := by
  have hlength : pubBytes.length = pubLen.toNat := by
    rw [← hpub, length_take]
    omega
  rw [hlength, UInt32.ofNat_toNat, ← hpub, ← hpriv, append_assoc, take_append_drop]

/-- What is accepted is a blob of the parts. -/
theorem eq_sealedBlob_of_parse {sealed : Bytes}
    (h : parseSealedBlob sealed = .ok (pcrIndices, pubBytes, privBytes)) :
    sealed = sealedBlob pcrIndices pubBytes privBytes := by
  unfold parseSealedBlob at h
  split at h
  · cases h
  next hlong =>
  have hhead : sealed = sealed[0] :: sealed.drop 1 := by
    simpa using drop_eq_getElem_cons (show 0 < sealed.length by omega)
  split at h
  next hversion =>
    dsimp only at h
    split at h
    · cases h
    next hbody =>
      simp only [Except.ok.injEq, Prod.mk.injEq] at h
      obtain ⟨rfl, hpub, hpriv⟩ := h
      rw [hhead, drop_eq_toLeBytes (by omega), hversion, parts_eq hbody hpub hpriv]
      rfl
  split at h
  next hversion =>
    dsimp only at h
    split at h
    · cases h
    next hheader =>
      split at h
      · cases h
      next hbody =>
        simp only [Except.ok.injEq, Prod.mk.injEq] at h
        obtain ⟨rfl, hpub, hpriv⟩ := h
        conv_lhs =>
          rw [hhead, drop_eq_getElem_cons (show 1 < sealed.length by omega),
            drop_eq_flatMap sealed[1].toNat 2 (by omega), drop_eq_toLeBytes (by omega), hversion,
            parts_eq hbody hpub hpriv]
        simp [sealedBlob]
  · cases h

theorem parse_sealedBlob (hindices : ∀ indices ∈ pcrIndices, indices.length ≤ 255)
    (hpub : pubBytes.length < 2 ^ 32) :
    parseSealedBlob (sealedBlob pcrIndices pubBytes privBytes) =
      .ok (pcrIndices, pubBytes, privBytes) := by
  have hlength := UInt32.toNat_ofNat_of_lt' hpub
  generalize hsealed : sealedBlob pcrIndices pubBytes privBytes = sealed
  cases pcrIndices with
  | none =>
    have hlong : ¬ sealed.length < 5 := by
      simp [← hsealed, sealedBlob, toLeBytes]
    have hversion : sealed[0] = Blob.sealedVersionByte := by
      simp [← hsealed, sealedBlob]
    have hdrop : sealed.drop 1 =
        toLeBytes (UInt32.ofNat pubBytes.length) ++ (pubBytes ++ privBytes) := by
      simp [← hsealed, sealedBlob]
    rw [drop_eq_toLeBytes (by omega)] at hdrop
    obtain ⟨hword, hbody⟩ := append_inj hdrop rfl
    simp [parseSealedBlob, hlong, hversion, toLeBytes_injective hword, hlength, hbody]
  | some indices =>
    have hlong : 2 + indices.length * 4 + 4 ≤ sealed.length := by
      simp [← hsealed, sealedBlob, length_flatMap, toLeBytes]
      omega
    have hversion : sealed[0] = Blob.sealedPcrVersionByte := by
      simp [← hsealed, sealedBlob]
    have hcount : sealed[1].toNat = indices.length := by
      have := hindices indices rfl
      simp [← hsealed, sealedBlob]
      omega
    have hdrop : sealed.drop 2 = indices.flatMap toLeBytes ++
        (toLeBytes (UInt32.ofNat pubBytes.length) ++ (pubBytes ++ privBytes)) := by
      simp [← hsealed, sealedBlob]
    rw [drop_eq_flatMap sealed[1].toNat 2 (by omega)] at hdrop
    obtain ⟨hwords, hrest⟩ := flatMap_toLeBytes_inj (by simp [hcount]) hdrop
    rw [drop_eq_toLeBytes (by omega)] at hrest
    obtain ⟨hword, hbody⟩ := append_inj hrest rfl
    simp [parseSealedBlob, hversion, hwords, toLeBytes_injective hword, hlength, hbody,
      show ¬ sealed.length < 5 by omega,
      show ¬ sealed.length < 2 + sealed[1].toNat * 4 + 4 by omega,
      show Blob.sealedPcrVersionByte ≠ Blob.sealedVersionByte by decide]

/-! ## No panic -/

theorem readU32_eq {bytes : Bytes} (h : o + 3 < bytes.length) :
    readU32 bytes o = some (fromLeBytes bytes[o] bytes[o + 1] bytes[o + 2] bytes[o + 3]) := by
  simp [readU32, show o < bytes.length by omega, show o + 1 < bytes.length by omega,
    show o + 2 < bytes.length by omega, h]

theorem slice_to {bytes : Bytes} (h : n ≤ bytes.length) :
    slice bytes 0 n = some (bytes.take n) := by
  simp [slice, h]

theorem slice_from {bytes : Bytes} (h : n ≤ bytes.length) :
    slice bytes n bytes.length = some (bytes.drop n) := by
  simp [slice, h]

/-- No byte string makes the code panic. -/
theorem parseOrPanic_eq (sealed : Bytes) : parseOrPanic sealed = some (parseSealedBlob sealed) := by
  unfold parseOrPanic parseSealedBlob
  split
  · rfl
  next hlong =>
  rw [getElem?_eq_getElem (show 0 < sealed.length by omega), Option.bind_eq_bind, Option.bind_some]
  split
  · rw [readU32_eq (by omega), slice_from (by omega)]
    simp only [Option.bind_eq_bind, Option.bind_some]
    split
    · rfl
    next hbody =>
      rw [slice_to (Nat.not_lt.mp hbody), slice_from (Nat.not_lt.mp hbody)]
      rfl
  split
  · rw [getElem?_eq_getElem (show 1 < sealed.length by omega)]
    simp only [Option.bind_eq_bind, Option.bind_some]
    split
    · rfl
    next hheader =>
      have hread : (fun i : Fin sealed[1].toNat => readU32 sealed (2 + i.val * 4)) = fun i => pure
        (fromLeBytes sealed[2 + i.val * 4] sealed[2 + i.val * 4 + 1] sealed[2 + i.val * 4 + 2]
          sealed[2 + i.val * 4 + 3]) := funext fun i => readU32_eq (by omega)
      rw [hread, mapM_pure, readU32_eq (by omega), slice_from (by omega), finRange, map_ofFn]
      simp only [pure, Option.bind_some]
      split
      · rfl
      next hbody =>
        rw [slice_to (Nat.not_lt.mp hbody), slice_from (Nat.not_lt.mp hbody)]
        rfl
  · rfl

/-- The parts come back from their blob.  Every byte string is refused or is
the blob of the parts that are returned, and none makes the code panic. -/
theorem parseSealedBlob_exact :
    (∀ (pcrIndices : Option (List UInt32)) (pubBytes privBytes : Bytes),
      (∀ indices ∈ pcrIndices, indices.length ≤ 255) → pubBytes.length < 2 ^ 32 →
        parseSealedBlob (sealedBlob pcrIndices pubBytes privBytes) =
          .ok (pcrIndices, pubBytes, privBytes)) ∧
      ∀ sealed : Bytes, parseOrPanic sealed = some (parseSealedBlob sealed) ∧
        ∀ pcrIndices pubBytes privBytes,
          parseSealedBlob sealed = .ok (pcrIndices, pubBytes, privBytes) →
            sealed = sealedBlob pcrIndices pubBytes privBytes :=
  ⟨fun _ _ _ => parse_sealedBlob,
    fun sealed => ⟨parseOrPanic_eq sealed, fun _ _ _ => eq_sealedBlob_of_parse⟩⟩

end Facelock.Keys
