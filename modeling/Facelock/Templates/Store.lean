import Facelock.Lib.Results
import Mathlib.Data.List.Nodup
import Mathlib.Data.Set.Function

/-!
# The template store

The tables `face_models` and `face_embeddings` of
`crates/facelock-store/src/db.rs`, and the way a template is read back:
`decrypt_rows_into` and `decrypt_software_row` of
`crates/facelock-daemon/src/embeddings.rs` with the keyring of
`keyring.rs`.

A blob is what a column holds.  AES-GCM is taken to be correct, so a
sealed blob is known by the key and the content it was made from, and it
opens under that key only.  A blob that no sealer made is a row of bytes.
What a blob *looks like* is a different question: the code decides that by
the first byte and the length.

The columns `id` are primary keys, and the structure carries that.  Hard
device binding is off throughout, so no blob has associated data.
-/

namespace Facelock.Templates

open List

/-- The 32 bytes of an AES key. -/
abbrev Key := BitVec 256

inductive Blob where
  | raw (bytes : List UInt8)
  | software (key : Key) (content : Blob)
  deriving DecidableEq, Repr

variable {key : Key} {blob embedding : Blob}

namespace Blob

def rawEmbeddingSize : Nat := 512 * 4

def softwareEncryptedVersionByte : UInt8 := 2

def sealedVersionByte : UInt8 := 1

def sealedPcrVersionByte : UInt8 := 3

def first : Blob → Option UInt8
  | raw bytes => bytes.head?
  | software _ _ => some softwareEncryptedVersionByte

/-- A sealed blob has the version byte, a nonce of 12 bytes and a tag of 16
bytes beside its content. -/
def length : Blob → Nat
  | raw bytes => bytes.length
  | software _ content => 1 + 12 + content.length + 16

def isSoftwareEncryptedShape (first : Option UInt8) (length : Nat) : Bool :=
  first == some softwareEncryptedVersionByte && length != rawEmbeddingSize

def isSealedShape (first : Option UInt8) (length : Nat) : Bool :=
  (first == some sealedVersionByte || first == some sealedPcrVersionByte) &&
    length != rawEmbeddingSize

def isSoftwareEncrypted (blob : Blob) : Bool :=
  isSoftwareEncryptedShape blob.first blob.length

def isSealed (blob : Blob) : Bool :=
  isSealedShape blob.first blob.length

def hexByte (byte : UInt8) : String :=
  "0x" ++ String.ofList [Nat.digitChar (byte.toNat / 16), Nat.digitChar (byte.toNat % 16)]

/-- The error of a failed tag check. -/
def decryptionFailed : String :=
  "encryption error: AES-GCM decryption failed (wrong key, AAD, or corrupted data): aead::Error"

/-- `SoftwareSealer::unseal_bytes`.  Bytes that no sealer made fail the tag
check under every key. -/
def unsealBytes (key : Key) : Blob → Except String Blob
  | software sealed content => if sealed = key then .ok content else .error decryptionFailed
  | raw bytes =>
    if bytes.length < 1 + 12 + 16 then .error "encryption error: encrypted blob too short"
    else
      match bytes.head? with
      | some byte =>
        if byte = softwareEncryptedVersionByte then .error decryptionFailed
        else
          .error ("encryption error: expected software encryption version byte " ++
            hexByte softwareEncryptedVersionByte ++ ", got " ++ hexByte byte)
      | none => .error "encryption error: encrypted blob too short"

/-- `bytes_to_embedding`, up to the decoding of the floats. -/
def toEmbedding (blob : Blob) : Except String Blob :=
  if blob.length = rawEmbeddingSize then .ok blob
  else
    .error ("storage error: invalid embedding data size: expected " ++ toString rawEmbeddingSize ++
      ", got " ++ toString blob.length)

/-- The blob was sealed under `key`. -/
def OpensUnder (key : Key) (blob : Blob) : Prop :=
  ∃ content, blob = software key content

theorem unsealBytes_eq_ok {content} :
    unsealBytes key blob = .ok content ↔ blob = software key content := by
  cases blob with
  | raw bytes =>
    simp only [unsealBytes]
    split_ifs
    · simp
    · split
      · split_ifs <;> simp
      · simp
  | software sealed content' =>
    simp only [unsealBytes, software.injEq]
    split_ifs with hkey
    · simp [hkey]
    · simp [hkey]

theorem toEmbedding_eq_ok :
    toEmbedding blob = .ok embedding ↔ blob.length = rawEmbeddingSize ∧ embedding = blob := by
  unfold toEmbedding
  split_ifs with hlength
  · simp [hlength, eq_comm]
  · simp [hlength]

theorem length_ne_of_isSoftwareEncrypted (h : blob.isSoftwareEncrypted = true) :
    blob.length ≠ rawEmbeddingSize := by
  simp only [isSoftwareEncrypted, isSoftwareEncryptedShape, Bool.and_eq_true, bne_iff_ne] at h
  exact h.2

theorem length_ne_of_isSealed (h : blob.isSealed = true) : blob.length ≠ rawEmbeddingSize := by
  simp only [isSealed, isSealedShape, Bool.and_eq_true, bne_iff_ne] at h
  exact h.2

theorem not_isSoftwareEncrypted_of_isSealed (h : blob.isSealed = true) :
    blob.isSoftwareEncrypted = false := by
  simp only [isSealed, isSealedShape, Bool.and_eq_true, Bool.or_eq_true, beq_iff_eq] at h
  simp only [isSoftwareEncrypted, isSoftwareEncryptedShape]
  rcases h.1 with hfirst | hfirst <;> rw [hfirst] <;> rfl

theorem isSoftwareEncrypted_seal (key : Key) (h : blob.length = rawEmbeddingSize) :
    (software key blob).isSoftwareEncrypted = true := by
  simp [isSoftwareEncrypted, isSoftwareEncryptedShape, first, length, h, rawEmbeddingSize]

end Blob

/-! ## The tables -/

structure FaceModel where
  id : Nat
  user : String
  label : String
  deviceId : Option String
  keyId : Option String
  deriving DecidableEq, Repr

structure EmbeddingRow where
  id : Nat
  modelId : Nat
  blob : Blob
  sealed : Bool
  deriving DecidableEq, Repr

/-- The two tables, and the next ids, which `AUTOINCREMENT` never gives out
twice. -/
structure FaceStore where
  models : List FaceModel
  embeddings : List EmbeddingRow
  nextModelId : Nat
  nextEmbeddingId : Nat
  models_nodup : (models.map FaceModel.id).Nodup
  embeddings_nodup : (embeddings.map EmbeddingRow.id).Nodup
  models_lt : ∀ model ∈ models, model.id < nextModelId
  embeddings_lt : ∀ row ∈ embeddings, row.id < nextEmbeddingId

variable {model : FaceModel}

namespace FaceStore

variable {store : FaceStore}

def model? (store : FaceStore) (id : Nat) : Option FaceModel :=
  store.models.find? fun model => model.id = id

theorem model?_eq_some {id} :
    store.model? id = some model ↔ model ∈ store.models ∧ model.id = id := by
  constructor
  · intro h
    exact ⟨mem_of_find?_eq_some h, by simpa using find?_some h⟩
  · rintro ⟨hmem, rfl⟩
    unfold model?
    rw [find?_eq_some_iff_append]
    obtain ⟨before, after, hsplit⟩ := append_of_mem hmem
    refine ⟨by simp, before, after, hsplit, ?_⟩
    intro other hother
    have hnodup := store.models_nodup
    rw [hsplit, map_append, map_cons, nodup_append] at hnodup
    have hne := hnodup.2.2 other.id (mem_map_of_mem hother) model.id mem_cons_self
    simpa using hne

theorem row_unique {row other} (hrow : row ∈ store.embeddings) (hother : other ∈ store.embeddings)
    (hid : row.id = other.id) : row = other :=
  inj_on_of_nodup_map store.embeddings_nodup hrow hother hid

def mapModels (store : FaceStore) (f : FaceModel → FaceModel)
    (hid : ∀ model, (f model).id = model.id) : FaceStore where
  models := store.models.map f
  embeddings := store.embeddings
  nextModelId := store.nextModelId
  nextEmbeddingId := store.nextEmbeddingId
  models_nodup := by
    have hsame : FaceModel.id ∘ f = FaceModel.id := funext hid
    rw [map_map, hsame]
    exact store.models_nodup
  embeddings_nodup := store.embeddings_nodup
  models_lt := by
    intro model hmodel
    obtain ⟨old, hold, rfl⟩ := mem_map.mp hmodel
    rw [hid]
    exact store.models_lt old hold
  embeddings_lt := store.embeddings_lt

def mapEmbeddings (store : FaceStore) (f : EmbeddingRow → EmbeddingRow)
    (hid : ∀ row, (f row).id = row.id) : FaceStore where
  models := store.models
  embeddings := store.embeddings.map f
  nextModelId := store.nextModelId
  nextEmbeddingId := store.nextEmbeddingId
  models_nodup := store.models_nodup
  embeddings_nodup := by
    have hsame : EmbeddingRow.id ∘ f = EmbeddingRow.id := funext hid
    rw [map_map, hsame]
    exact store.embeddings_nodup
  models_lt := store.models_lt
  embeddings_lt := by
    intro row hrow
    obtain ⟨old, hold, rfl⟩ := mem_map.mp hrow
    rw [hid]
    exact store.embeddings_lt old hold

def withKeyId (modelId : Nat) (keyId : Option String) (model : FaceModel) : FaceModel :=
  if model.id = modelId then { model with keyId } else model

def withBlob (id : Nat) (blob : Blob) (sealed : Bool) (row : EmbeddingRow) : EmbeddingRow :=
  if row.id = id then { row with blob, sealed } else row

theorem withKeyId_id (modelId : Nat) (keyId : Option String) (model : FaceModel) :
    (withKeyId modelId keyId model).id = model.id := by
  unfold withKeyId
  split <;> rfl

theorem withBlob_id (id : Nat) (blob : Blob) (sealed : Bool) (row : EmbeddingRow) :
    (withBlob id blob sealed row).id = row.id := by
  unfold withBlob
  split <;> rfl

def updateEmbeddingSealed (id : Nat) (blob : Blob) (sealed : Bool) (store : FaceStore) :
    Except String FaceStore :=
  if store.embeddings.any fun row => row.id = id then
    .ok (store.mapEmbeddings (withBlob id blob sealed) (withBlob_id id blob sealed))
  else .error ("embedding ID " ++ toString id ++ " not found")

def setModelKeyId (modelId : Nat) (keyId : Option String) (store : FaceStore) :
    Except String FaceStore :=
  if store.models.any fun model => model.id = modelId then
    .ok (store.mapModels (withKeyId modelId keyId) (withKeyId_id modelId keyId))
  else .error ("model ID " ++ toString modelId ++ " not found")

def minEmbeddingsPerModel : Nat := 3

def newRows (store : FaceStore) (blobs : List Blob) (sealed : Bool) : List EmbeddingRow :=
  (blobs.zip (List.range' store.nextEmbeddingId blobs.length)).map fun (blob, id) =>
    { id, modelId := store.nextModelId, blob, sealed }

theorem map_id_newRows (blobs : List Blob) (sealed : Bool) :
    (store.newRows blobs sealed).map EmbeddingRow.id =
      List.range' store.nextEmbeddingId blobs.length := by
  have hids : (store.newRows blobs sealed).map EmbeddingRow.id =
      (blobs.zip (List.range' store.nextEmbeddingId blobs.length)).map Prod.snd := by
    rw [newRows, map_map]
    rfl
  rw [hids, map_snd_zip (by simp)]

theorem id_of_mem_newRows {blobs sealed row} (h : row ∈ store.newRows blobs sealed) :
    store.nextEmbeddingId ≤ row.id ∧ row.id < store.nextEmbeddingId + blobs.length := by
  have hid : row.id ∈ (store.newRows blobs sealed).map EmbeddingRow.id := mem_map_of_mem h
  rw [map_id_newRows, mem_range'_1] at hid
  exact hid

/-- A model without the user's old one of that label. -/
def isKept (user label : String) (model : FaceModel) : Bool :=
  !(model.user = user && model.label = label)

/-- The rows that a deletion of the user's model of that label leaves: it
cascades to the rows of the model. -/
def keptRows (store : FaceStore) (user label : String) : List EmbeddingRow :=
  store.embeddings.filter fun row =>
    store.models.all fun model => model.id ≠ row.modelId || isKept user label model

/-- The transaction of `replace_model_with_embeddings`. -/
def replaceModel (store : FaceStore) (user label : String) (blobs : List Blob) (sealed : Bool)
    (deviceId keyId : Option String) : FaceStore where
  models := store.models.filter (isKept user label) ++
    [{ id := store.nextModelId, user, label, deviceId, keyId }]
  embeddings := store.keptRows user label ++ store.newRows blobs sealed
  nextModelId := store.nextModelId + 1
  nextEmbeddingId := store.nextEmbeddingId + blobs.length
  models_nodup := by
    rw [map_append, nodup_append]
    refine ⟨store.models_nodup.sublist (filter_sublist.map _), by simp, ?_⟩
    rintro id hid _ hnew rfl
    obtain ⟨model, hmodel, rfl⟩ := mem_map.mp hid
    have hlt := store.models_lt model (mem_of_mem_filter hmodel)
    simp only [map_cons, map_nil, mem_singleton] at hnew
    omega
  embeddings_nodup := by
    rw [map_append, nodup_append, map_id_newRows]
    refine ⟨store.embeddings_nodup.sublist (filter_sublist.map _), nodup_range', ?_⟩
    rintro id hid _ hnew rfl
    obtain ⟨row, hrow, rfl⟩ := mem_map.mp hid
    have hlt := store.embeddings_lt row (mem_of_mem_filter hrow)
    rw [mem_range'_1] at hnew
    omega
  models_lt := by
    intro model hmodel
    rcases mem_append.mp hmodel with hold | hnew
    · exact Nat.lt_succ_of_lt (store.models_lt model (mem_of_mem_filter hold))
    · rw [mem_singleton.mp hnew]
      exact Nat.lt_succ_self _
  embeddings_lt := by
    intro row hrow
    rcases mem_append.mp hrow with hold | hnew
    · have hlt := store.embeddings_lt row (mem_of_mem_filter hold)
      omega
    · exact (id_of_mem_newRows hnew).2

def replaceModelWithEmbeddings (store : FaceStore) (user label : String) (blobs : List Blob)
    (sealed : Bool) (deviceId keyId : Option String) : Except String FaceStore :=
  if blobs.length < minEmbeddingsPerModel then
    .error ("refusing to store a model for " ++ user ++ "/" ++ label ++ " with " ++
      toString blobs.length ++ " embeddings (minimum " ++ toString minEmbeddingsPerModel ++ ")")
  else .ok (store.replaceModel user label blobs sealed deviceId keyId)

/-- `get_all_embeddings_raw`: the rows that have a model. -/
def getAllEmbeddingsRaw (store : FaceStore) : List EmbeddingRow :=
  store.embeddings.filter fun row => (store.model? row.modelId).isSome

theorem model?_mapModels (f : FaceModel → FaceModel) (hid : ∀ model, (f model).id = model.id)
    (id : Nat) : (store.mapModels f hid).model? id = (store.model? id).map f := by
  simp only [model?, mapModels, find?_map]
  congr 2
  funext model
  simp [hid]

theorem mem_withBlob {row next} (hrow : row ∈ store.embeddings) {sealed}
    (hnext : next ∈ store.embeddings.map (withBlob row.id blob sealed)) :
    next = { row with blob, sealed } ∨ (next ∈ store.embeddings ∧ next.id ≠ row.id) := by
  obtain ⟨old, hold, rfl⟩ := mem_map.mp hnext
  unfold withBlob
  split_ifs with hid
  · exact .inl (by rw [row_unique hold hrow hid])
  · exact .inr ⟨hold, hid⟩

end FaceStore

/-! ## Reading a template -/

/-- The loaded keys of a `SealingKeys`: the primary one in front. -/
abbrev Keyring := List Key

section Reading

variable (keyIdOf : Key → String)

def byKeyId (keys : Keyring) (id : String) : Option Key :=
  keys.find? fun key => keyIdOf key = id

/-- `software_decrypt_error` without associated data. -/
def softwareDecryptError (id : Nat) (cause : String) (deviceId : Option String) : String :=
  let message := "software decryption failed for embedding " ++ toString id ++ ": " ++ cause
  if deviceId.any fun device => device ≠ "" then
    message ++ "; if this template was sealed under security.bind_device_aad, re-enable it or " ++
      "re-enroll"
  else message

/-- `unseal_embedding` of a `SoftwareSealer`. -/
def unsealEmbedding (key : Key) (blob : Blob) : Except String Blob :=
  (Blob.unsealBytes key blob).bind Blob.toEmbedding

/-- The trial of a row that names no key: the first key that opens it, or the
last error. -/
def tryKeys (blob : Blob) : Keyring → Option String → Except (Option String) Blob
  | [], lastError => .error lastError
  | key :: keys, _ =>
    match unsealEmbedding key blob with
    | .ok embedding => .ok embedding
    | .error e => tryKeys blob keys (some e)

variable (otherKeyArtifact : String)

def decryptSoftwareRow (keys : Keyring) (model : FaceModel) (blob : Blob) : Except String Blob :=
  match model.keyId with
  | some wanted =>
    match byKeyId keyIdOf keys wanted with
    | none =>
      .error ("embedding " ++ toString model.id ++ " was sealed under key " ++ wanted ++
        ", which is not loadable: restore " ++ otherKeyArtifact ++
        " (the artifact for the other encryption method) or re-enroll")
    | some key =>
      (unsealEmbedding key blob).mapError fun e => softwareDecryptError model.id e model.deviceId
  | none =>
    if keys.isEmpty then
      .error ("embedding " ++ toString model.id ++
        " is software-encrypted but no key is configured")
    else
      (tryKeys blob keys none).mapError fun e =>
        softwareDecryptError model.id (e.getD "no loadable key could open it") model.deviceId ++
          "; or sealed under a key that is no longer loadable"

variable (tpm : Blob → Except String Blob)

/-- `unseal_embedding` of a `TpmSealer`.  `tpm` is its `unseal_bytes`. -/
def tpmUnsealEmbedding (blob : Blob) : Except String Blob :=
  match blob.first with
  | none => .error "TPM error: empty sealed blob"
  | some byte =>
    if (byte = Blob.sealedVersionByte || byte = Blob.sealedPcrVersionByte) && 5 < blob.length then
      (tpm blob).bind Blob.toEmbedding
    else if blob.length = Blob.rawEmbeddingSize then .ok blob
    else
      .error ("TPM error: unrecognized sealed blob format: size=" ++ toString blob.length ++
        ", first_byte=" ++ Blob.hexByte byte)

variable {keyIdOf}

theorem unsealEmbedding_eq_ok :
    unsealEmbedding key blob = .ok embedding ↔
      blob = .software key embedding ∧ embedding.length = Blob.rawEmbeddingSize := by
  unfold unsealEmbedding
  constructor
  · intro h
    cases hbytes : Blob.unsealBytes key blob with
    | error e => simp [hbytes, Except.bind] at h
    | ok content =>
      rw [hbytes] at h
      obtain ⟨hlength, rfl⟩ := Blob.toEmbedding_eq_ok.mp h
      exact ⟨Blob.unsealBytes_eq_ok.mp hbytes, hlength⟩
  · rintro ⟨hblob, hlength⟩
    rw [Blob.unsealBytes_eq_ok.mpr hblob]
    exact Blob.toEmbedding_eq_ok.mpr ⟨hlength, rfl⟩

variable {keys : Keyring}

theorem tryKeys_eq_ok {lastError} :
    tryKeys blob keys lastError = .ok embedding ↔
      ∃ key ∈ keys, blob = .software key embedding ∧
        embedding.length = Blob.rawEmbeddingSize := by
  induction keys generalizing lastError with
  | nil => simp [tryKeys]
  | cons key keys ih =>
    rw [tryKeys]
    split
    · rename_i found hfound
      obtain ⟨rfl, hlength⟩ := unsealEmbedding_eq_ok.mp hfound
      simp only [Except.ok.injEq, mem_cons, Blob.software.injEq]
      constructor
      · rintro rfl
        exact ⟨key, .inl rfl, ⟨rfl, rfl⟩, hlength⟩
      · rintro ⟨-, -, ⟨-, rfl⟩, -⟩
        rfl
    · rename_i e herror
      rw [ih]
      constructor
      · rintro ⟨other, hother, hopens⟩
        exact ⟨other, mem_cons_of_mem _ hother, hopens⟩
      · rintro ⟨other, hother, hopens⟩
        rcases mem_cons.mp hother with rfl | hrest
        · rw [unsealEmbedding_eq_ok.mpr hopens] at herror
          cases herror
        · exact ⟨other, hrest, hopens⟩

theorem byKeyId_mem {id} (h : byKeyId keyIdOf keys id = some key) : key ∈ keys :=
  mem_of_find?_eq_some h

/-- No two of the loaded keys have one id. -/
def IdsDiffer (keyIdOf : Key → String) (keys : Keyring) : Prop :=
  Set.InjOn keyIdOf {key | key ∈ keys}

theorem idsDiffer_singleton (key : Key) : IdsDiffer keyIdOf [key] := by
  simp [IdsDiffer]

theorem byKeyId_self (hids : IdsDiffer keyIdOf keys) (hkey : key ∈ keys) :
    byKeyId keyIdOf keys (keyIdOf key) = some key := by
  cases hfind : byKeyId keyIdOf keys (keyIdOf key) with
  | none =>
    have hnone := find?_eq_none.mp hfind key hkey
    simp at hnone
  | some found =>
    have hid : keyIdOf found = keyIdOf key := by simpa using find?_some hfind
    rw [hids (byKeyId_mem hfind) hkey hid]

theorem software_of_decryptSoftwareRow {artifact}
    (h : decryptSoftwareRow keyIdOf artifact keys model blob = .ok embedding) :
    ∃ key ∈ keys, blob = .software key embedding ∧
      embedding.length = Blob.rawEmbeddingSize := by
  unfold decryptSoftwareRow at h
  split at h
  · split at h
    · cases h
    · rename_i key hkey
      exact ⟨key, byKeyId_mem hkey, unsealEmbedding_eq_ok.mp (mapError_eq_ok h)⟩
  · split_ifs at h
    exact tryKeys_eq_ok.mp (mapError_eq_ok h)

theorem decryptSoftwareRow_software (hids : IdsDiffer keyIdOf keys) (artifact : String)
    (hkey : key ∈ keys) (hlength : embedding.length = Blob.rawEmbeddingSize)
    (hnames : model.keyId = none ∨ model.keyId = some (keyIdOf key)) :
    decryptSoftwareRow keyIdOf artifact keys model (.software key embedding) = .ok embedding := by
  unfold decryptSoftwareRow
  rcases hnames with hnone | hsome
  · have hkeys : keys.isEmpty = false := by
      cases keys with
      | nil => cases hkey
      | cons _ _ => rfl
    have htry : tryKeys (.software key embedding) keys none = .ok embedding :=
      tryKeys_eq_ok.mpr ⟨key, hkey, rfl, hlength⟩
    simp only [hnone, hkeys, htry]
    rfl
  · have hopen : unsealEmbedding key (.software key embedding) = .ok embedding :=
      unsealEmbedding_eq_ok.mpr ⟨rfl, hlength⟩
    simp only [hsome, byKeyId_self hids hkey, hopen]
    rfl

variable (keyIdOf)

/-- The reading of one row, `decrypt_rows_into` for a single row. -/
def decryptRow (keys : Keyring) (model : FaceModel) (row : EmbeddingRow) : Except String Blob :=
  if row.sealed && row.blob.isSoftwareEncrypted then
    decryptSoftwareRow keyIdOf otherKeyArtifact keys model row.blob
  else if row.sealed then
    (tpmUnsealEmbedding tpm row.blob).mapError fun e =>
      "TPM unseal failed for embedding " ++ toString model.id ++ ": " ++ e
  else if row.blob.length ≠ 512 * 4 then
    .error ("invalid raw embedding size for id " ++ toString model.id ++ ": expected " ++
      toString (512 * 4) ++ " bytes, got " ++ toString row.blob.length)
  else .ok row.blob

/-- The reading of a row of the store, joined with its model.  A row without
a model is not selected. -/
def readRow (keys : Keyring) (store : FaceStore) (row : EmbeddingRow) : Except String Blob :=
  match store.model? row.modelId with
  | some model => decryptRow keyIdOf otherKeyArtifact tpm keys model row
  | none => .error "not selected"

end Reading

end Facelock.Templates
