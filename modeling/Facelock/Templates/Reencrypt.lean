import Facelock.Lib.Crash
import Facelock.Lib.Transition
import Facelock.Templates.Store

/-!
# Sealing and opening the stored templates in place

`run_encrypt` and `run_decrypt` of
`crates/facelock-cli/src/commands/encrypt.rs`, as programs on the store
that can be cut short after any of their updates.

A model names one key for all of its rows, and the rows are sealed one at
a time.  `run_encrypt` names its own key for a model before it seals the
first row of it, and it does not look at the rows of the model that are
sealed already.  If one of those is sealed under another key, the model
names the wrong key for it from then on (`resealed_under_other_key`).

`Unmixed` is what a run has to find: no model with a row left to seal has a
row that is sealed under another key.  In every sequence of runs that find
this, each cut short or not, every sealed row opens under the key that its
model names, and no row that could be read before is lost
(`reencrypt_keeps_rows`).
-/

namespace Facelock.Templates

open Facelock.Crash List
open Facelock.Transition

/-! ## The commands -/

section Commands

variable (keyIdOf : Key → String)

/-- A row that `run_encrypt` seals. -/
def EmbeddingRow.isUnencrypted (row : EmbeddingRow) : Bool :=
  !row.sealed && !row.blob.isSoftwareEncrypted

/-- An error with the context of the command. -/
def withContext {α : Type} (context : String) (result : Except String α) : Except String α :=
  result.mapError fun e => context ++ ": " ++ e

/-- The loop of `run_encrypt`.  `sealedModels` are the models that name the
key already. -/
def encryptRows (key : Key) : List Nat → List EmbeddingRow → Prog FaceStore String Unit
  | _, [] => pure ()
  | sealedModels, row :: rows => do
    -- the model names its key before its first row is sealed
    if row.modelId ∈ sealedModels then pure ()
    else
      Prog.act fun store =>
        withContext ("failed to record the sealing key for model " ++ toString row.modelId)
          (store.setModelKeyId row.modelId (some (keyIdOf key)))
    Prog.act fun store =>
      withContext ("failed to update embedding " ++ toString row.id)
        (store.updateEmbeddingSealed row.id (.software key row.blob) true)
    encryptRows key (row.modelId :: sealedModels) rows

/-- `run_encrypt` with the key that the configuration names. -/
def runEncrypt (key : Key) : Prog FaceStore String Unit := do
  let all ← Prog.read fun store => .ok store.getAllEmbeddingsRaw
  encryptRows keyIdOf key [] (all.filter EmbeddingRow.isUnencrypted)

/-- The loops of `run_decrypt` over the rows that `openBlob` opens. -/
def decryptRows (failure : String) (openBlob : Blob → Except String Blob) :
    List EmbeddingRow → Prog FaceStore String Unit
  | [] => pure ()
  | row :: rows => do
    let raw ← Prog.ofResult (withContext (failure ++ toString row.id) (openBlob row.blob))
    Prog.act fun store =>
      withContext ("failed to update embedding " ++ toString row.id)
        (store.updateEmbeddingSealed row.id raw false)
    decryptRows failure openBlob rows

/-- The models that lose their key at the end of `run_decrypt`. -/
def clearKeys : List Nat → Prog FaceStore String Unit
  | [] => pure ()
  | modelId :: modelIds => do
    Prog.act fun store =>
      withContext ("failed to clear the sealing key for model " ++ toString modelId)
        (store.setModelKeyId modelId none)
    clearKeys modelIds

/-- `run_decrypt`.  `tpm` opens the rows that are sealed by the TPM. -/
def runDecrypt (tpm : Blob → Except String Blob) (key : Key) : Prog FaceStore String Unit := do
  let all ← Prog.read fun store => .ok store.getAllEmbeddingsRaw
  let swEncrypted := all.filter fun row => row.blob.isSoftwareEncrypted
  let tpmSealed := all.filter fun row => row.blob.isSealed
  decryptRows "failed to decrypt software-encrypted embedding " (Blob.unsealBytes key) swEncrypted
  decryptRows "failed to unseal TPM embedding " tpm tpmSealed
  clearKeys (((swEncrypted ++ tpmSealed).map EmbeddingRow.modelId).dedup.mergeSort)

end Commands

/-! ## What a store keeps -/

section Keeps

variable (keyIdOf : Key → String)

/-- Every sealed row opens under the key that its model names, if it names
one. -/
def Named (store : FaceStore) : Prop :=
  ∀ row ∈ store.embeddings, row.blob.isSoftwareEncrypted = true →
    ∀ model, store.model? row.modelId = some model → ∀ id, model.keyId = some id →
      ∃ key, keyIdOf key = id ∧ row.blob.OpensUnder key

/-- Every row that could be read in `before` can be read in `after`, with the
same template. -/
def ReadsStill (artifact : String) (tpm : Blob → Except String Blob) (keys : Keyring)
    (before after : FaceStore) : Prop :=
  ∀ row ∈ before.embeddings, ∀ embedding,
    readRow keyIdOf artifact tpm keys before row = .ok embedding →
      ∃ next ∈ after.embeddings, next.id = row.id ∧
        readRow keyIdOf artifact tpm keys after next = .ok embedding

variable {keyIdOf} {artifact : String} {tpm : Blob → Except String Blob} {keys : Keyring}

theorem ReadsStill.refl (store : FaceStore) : ReadsStill keyIdOf artifact tpm keys store store :=
  fun row hrow _ hread => ⟨row, hrow, rfl, hread⟩

theorem ReadsStill.trans {first second third}
    (h : ReadsStill keyIdOf artifact tpm keys first second)
    (h' : ReadsStill keyIdOf artifact tpm keys second third) :
    ReadsStill keyIdOf artifact tpm keys first third := by
  intro row hrow embedding hread
  obtain ⟨next, hnext, hid, hread⟩ := h row hrow embedding hread
  obtain ⟨last, hlast, hid', hread⟩ := h' next hnext embedding hread
  exact ⟨last, hlast, hid'.trans hid, hread⟩

variable {store : FaceStore} {row : EmbeddingRow} {embedding : Blob}

theorem decryptRow_of_readRow (h : readRow keyIdOf artifact tpm keys store row = .ok embedding) :
    ∃ model, store.model? row.modelId = some model ∧
      decryptRow keyIdOf artifact tpm keys model row = .ok embedding := by
  unfold readRow at h
  split at h
  · exact ⟨_, ‹_›, h⟩
  · cases h

theorem software_of_readRow (hsealed : row.sealed = true)
    (hsoft : row.blob.isSoftwareEncrypted = true)
    (h : readRow keyIdOf artifact tpm keys store row = .ok embedding) :
    ∃ key ∈ keys, row.blob = .software key embedding ∧
      embedding.length = Blob.rawEmbeddingSize := by
  obtain ⟨model, -, h⟩ := decryptRow_of_readRow h
  rw [decryptRow, if_pos (by simp [hsealed, hsoft])] at h
  exact software_of_decryptSoftwareRow h

theorem plain_of_readRow (hsealed : row.sealed = false)
    (h : readRow keyIdOf artifact tpm keys store row = .ok embedding) :
    row.blob.length = Blob.rawEmbeddingSize ∧ embedding = row.blob := by
  obtain ⟨model, -, h⟩ := decryptRow_of_readRow h
  rw [decryptRow, if_neg (by simp [hsealed]), if_neg (by simp [hsealed])] at h
  split_ifs at h with hlength
  cases h
  exact ⟨not_not.mp hlength, rfl⟩

theorem tpm_of_readRow {content} (hkind : row.blob.isSealed = true)
    (hopen : tpm row.blob = .ok content)
    (h : readRow keyIdOf artifact tpm keys store row = .ok embedding) :
    content.length = Blob.rawEmbeddingSize ∧ embedding = content := by
  cases hsealed : row.sealed with
  | false => exact absurd (plain_of_readRow hsealed h).1 (Blob.length_ne_of_isSealed hkind)
  | true =>
    have hsoft := Blob.not_isSoftwareEncrypted_of_isSealed hkind
    obtain ⟨model, -, h⟩ := decryptRow_of_readRow h
    rw [decryptRow, if_neg (by simp [hsoft]), if_pos hsealed] at h
    replace h := mapError_eq_ok h
    unfold tpmUnsealEmbedding at h
    split at h
    · cases h
    · rw [if_neg (Blob.length_ne_of_isSealed hkind), hopen] at h
      split_ifs at h
      exact Blob.toEmbedding_eq_ok.mp h

/-! ## Updates -/

variable {modelId : Nat} {keyId : Option String}

/-- The store after a model got the key id `keyId`. -/
def afterSetKey (store : FaceStore) (modelId : Nat) (keyId : Option String) : FaceStore :=
  store.mapModels (FaceStore.withKeyId modelId keyId) (FaceStore.withKeyId_id modelId keyId)

variable {model : FaceModel}

theorem model?_afterSetKey {id} (h : store.model? id = some model) :
    (afterSetKey store modelId keyId).model? id =
      some (FaceStore.withKeyId modelId keyId model) := by
  rw [afterSetKey, FaceStore.model?_mapModels, h, Option.map_some]

/-- Whether and how a row is read depends on its model only if it is sealed
in software. -/
theorem readRow_setKey
    (hsoft : row.sealed = true → row.blob.isSoftwareEncrypted = true → row.modelId ≠ modelId)
    (h : readRow keyIdOf artifact tpm keys store row = .ok embedding) :
    readRow keyIdOf artifact tpm keys (afterSetKey store modelId keyId) row = .ok embedding := by
  obtain ⟨model, hmodel, h⟩ := decryptRow_of_readRow h
  have hid := (FaceStore.model?_eq_some.mp hmodel).2
  simp only [readRow, model?_afterSetKey hmodel]
  by_cases hkind : row.sealed = true ∧ row.blob.isSoftwareEncrypted = true
  · have hne : model.id ≠ modelId := hid ▸ hsoft hkind.1 hkind.2
    rwa [FaceStore.withKeyId, if_neg hne]
  · have hcond : ¬ (row.sealed && row.blob.isSoftwareEncrypted) = true := by
      simpa using hkind
    rw [decryptRow, if_neg hcond] at h ⊢
    rw [FaceStore.withKeyId_id]
    exact h

/-- All sealed rows of a model open under `key`. -/
def SealedUnder (key : Key) (store : FaceStore) (modelId : Nat) : Prop :=
  ∀ row ∈ store.embeddings, row.modelId = modelId → row.blob.isSoftwareEncrypted = true →
    row.blob.OpensUnder key

/-- The store after a row got the content `blob`. -/
def afterUpdate (store : FaceStore) (id : Nat) (blob : Blob) (sealed : Bool) : FaceStore :=
  store.mapEmbeddings (FaceStore.withBlob id blob sealed) (FaceStore.withBlob_id id blob sealed)

theorem keyId_afterSetKey {id} (h : (afterSetKey store modelId keyId).model? id = some model) :
    ∃ old, store.model? id = some old ∧
      model.keyId = if id = modelId then keyId else old.keyId := by
  rw [afterSetKey, FaceStore.model?_mapModels, Option.map_eq_some_iff] at h
  obtain ⟨old, hold, rfl⟩ := h
  refine ⟨old, hold, ?_⟩
  have hid := (FaceStore.model?_eq_some.mp hold).2
  rw [FaceStore.withKeyId, hid]
  split <;> rfl

theorem Named.setKey (h : Named keyIdOf store) {key} (hsealed : SealedUnder key store modelId) :
    Named keyIdOf (afterSetKey store modelId (some (keyIdOf key))) := by
  intro row hrow hsoft model hmodel id hid
  obtain ⟨old, hold, hkey⟩ := keyId_afterSetKey hmodel
  rw [hkey] at hid
  split_ifs at hid with hsame
  · cases hid
    exact ⟨key, rfl, hsealed row hrow hsame hsoft⟩
  · exact h row hrow hsoft old hold id hid

theorem Named.clearKey (h : Named keyIdOf store) (modelId : Nat) :
    Named keyIdOf (afterSetKey store modelId none) := by
  intro row hrow hsoft model hmodel id hid
  obtain ⟨old, hold, hkey⟩ := keyId_afterSetKey hmodel
  rw [hkey] at hid
  split_ifs at hid
  exact h row hrow hsoft old hold id hid

variable {blob : Blob} {sealed : Bool}

/-- A row may get a content that its model names the key of. -/
theorem Named.update (h : Named keyIdOf store) (hrow : row ∈ store.embeddings)
    (hblob : blob.isSoftwareEncrypted = true → ∀ model,
      store.model? row.modelId = some model → ∀ id, model.keyId = some id →
        ∃ key, keyIdOf key = id ∧ blob.OpensUnder key) :
    Named keyIdOf (afterUpdate store row.id blob sealed) := by
  intro next hnext hsoft model hmodel id hid
  rcases FaceStore.mem_withBlob hrow hnext with rfl | ⟨hold, -⟩
  · exact hblob hsoft model hmodel id hid
  · exact h next hold hsoft model hmodel id hid

theorem readRow_software (hids : IdsDiffer keyIdOf keys) {key}
    (hmodel : store.model? row.modelId = some model) (hflag : row.sealed = true)
    (hsoft : row.blob.isSoftwareEncrypted = true) (hblob : row.blob = .software key embedding)
    (hkey : key ∈ keys) (hlength : embedding.length = Blob.rawEmbeddingSize)
    (hnames : model.keyId = none ∨ model.keyId = some (keyIdOf key)) :
    readRow keyIdOf artifact tpm keys store row = .ok embedding := by
  have hkind : (row.sealed && row.blob.isSoftwareEncrypted) = true := by simp [hflag, hsoft]
  simp only [readRow, hmodel, decryptRow, if_pos hkind]
  rw [hblob]
  exact decryptSoftwareRow_software hids artifact hkey hlength hnames

theorem readRow_plain (hmodel : store.model? row.modelId = some model)
    (hflag : row.sealed = false) (hlength : row.blob.length = Blob.rawEmbeddingSize) :
    readRow keyIdOf artifact tpm keys store row = .ok row.blob := by
  have hsize : ¬ row.blob.length ≠ 512 * 4 := not_not.mpr hlength
  simp only [readRow, hmodel, decryptRow, hflag, Bool.false_and, Bool.false_eq_true, if_false,
    if_neg hsize]

/-- A model may get a key id that fits its sealed rows: no row is lost. -/
theorem readsStill_setKey (hids : IdsDiffer keyIdOf keys)
    (hfits : ∀ row ∈ store.embeddings, row.modelId = modelId →
      row.blob.isSoftwareEncrypted = true → ∀ key, row.blob.OpensUnder key →
        keyId = none ∨ keyId = some (keyIdOf key)) :
    ReadsStill keyIdOf artifact tpm keys store (afterSetKey store modelId keyId) := by
  intro row hrow embedding hread
  refine ⟨row, hrow, rfl, ?_⟩
  by_cases hkind : row.sealed = true ∧ row.blob.isSoftwareEncrypted = true ∧ row.modelId = modelId
  · obtain ⟨hflag, hsoft, hsame⟩ := hkind
    obtain ⟨key, hkey, hblob, hlength⟩ := software_of_readRow hflag hsoft hread
    obtain ⟨model, hmodel, -⟩ := decryptRow_of_readRow hread
    have hnames : (FaceStore.withKeyId modelId keyId model).keyId = keyId := by
      rw [FaceStore.withKeyId, if_pos ((FaceStore.model?_eq_some.mp hmodel).2.trans hsame)]
    refine readRow_software hids (model?_afterSetKey hmodel) hflag hsoft hblob hkey hlength ?_
    rw [hnames]
    exact hfits row hrow hsame hsoft key ⟨embedding, hblob⟩
  · exact readRow_setKey (fun hflag hsoft hsame => hkind ⟨hflag, hsoft, hsame⟩) hread

theorem mem_afterUpdate_of_ne {other} (hother : other ∈ store.embeddings) (hne : other.id ≠ row.id)
    (blob : Blob) (sealed : Bool) : other ∈ (afterUpdate store row.id blob sealed).embeddings := by
  refine mem_map.mpr ⟨other, hother, ?_⟩
  rw [FaceStore.withBlob, if_neg hne]

/-- A row may get a content that reads as before: no row is lost. -/
theorem readsStill_update (hrow : row ∈ store.embeddings)
    (hreads : ∀ embedding, readRow keyIdOf artifact tpm keys store row = .ok embedding →
      readRow keyIdOf artifact tpm keys store { row with blob, sealed } = .ok embedding) :
    ReadsStill keyIdOf artifact tpm keys store (afterUpdate store row.id blob sealed) := by
  intro other hother embedding hread
  by_cases hid : other.id = row.id
  · have hsame := FaceStore.row_unique hother hrow hid
    subst hsame
    refine ⟨{ other with blob, sealed }, ?_, rfl, hreads embedding hread⟩
    refine mem_map.mpr ⟨other, hother, ?_⟩
    rw [FaceStore.withBlob, if_pos rfl]
  · exact ⟨other, mem_afterUpdate_of_ne hother hid blob sealed, rfl, hread⟩

/-! ## The loops -/

section Loops

variable {inv : FaceStore → Prop} {post : Except String Unit → FaceStore → Prop}

theorem meets_setModelKeyId {context} (hinv : inv store)
    (hok : post (.ok ()) (afterSetKey store modelId keyId)) (herror : ∀ e, post (.error e) store) :
    ((Prog.act fun store => withContext context (FaceStore.setModelKeyId modelId keyId store)).run
      store).Meets inv post := by
  by_cases hany : store.models.any fun model => model.id = modelId
  · rw [run_act_ok (by rw [FaceStore.setModelKeyId, if_pos hany]; rfl)]
    exact ⟨hinv, hok⟩
  · rw [run_act_error (by rw [FaceStore.setModelKeyId, if_neg hany]; rfl)]
    exact herror _

theorem meets_updateEmbeddingSealed {context id} (hinv : inv store)
    (hok : post (.ok ()) (afterUpdate store id blob sealed)) (herror : ∀ e, post (.error e) store) :
    ((Prog.act fun store =>
      withContext context (FaceStore.updateEmbeddingSealed id blob sealed store)).run store).Meets
        inv post := by
  by_cases hany : store.embeddings.any fun row => row.id = id
  · rw [run_act_ok (by rw [FaceStore.updateEmbeddingSealed, if_pos hany]; rfl)]
    exact ⟨hinv, hok⟩
  · rw [run_act_error (by rw [FaceStore.updateEmbeddingSealed, if_neg hany]; rfl)]
    exact herror _

end Loops

/-- What a crash of a run that began in `start` leaves. -/
def Kept (keyIdOf : Key → String) (artifact : String) (tpm : Blob → Except String Blob)
    (keys : Keyring) (start store : FaceStore) : Prop :=
  Named keyIdOf store ∧ ReadsStill keyIdOf artifact tpm keys start store

/-- The invariant of the loop of `run_encrypt`.  `rows` are left to seal. -/
structure Sealing (keyIdOf : Key → String) (key : Key) (sealedModels : List Nat)
    (rows : List EmbeddingRow) (store : FaceStore) : Prop where
  named : Named keyIdOf store
  unmixed : ∀ row ∈ rows, SealedUnder key store row.modelId
  naming : ∀ id ∈ sealedModels, ∀ model, store.model? id = some model →
    model.keyId = some (keyIdOf key)
  pending : ∀ row ∈ rows, row ∈ store.embeddings
  unencrypted : ∀ row ∈ rows, row.isUnencrypted = true
  nodup : (rows.map EmbeddingRow.id).Nodup

section Encrypt

variable {key : Key} {sealedModels : List Nat} {rows : List EmbeddingRow}

theorem Sealing.setKey (h : Sealing keyIdOf key sealedModels (row :: rows) store) :
    Sealing keyIdOf key (row.modelId :: sealedModels) (row :: rows)
      (afterSetKey store row.modelId (some (keyIdOf key))) := by
  refine { h with named := h.named.setKey (h.unmixed row mem_cons_self), naming := ?_ }
  intro id hid model hmodel
  obtain ⟨old, hold, hkey⟩ := keyId_afterSetKey hmodel
  rw [hkey]
  split_ifs with hsame
  · rfl
  · exact h.naming id (mem_of_ne_of_mem hsame hid) old hold

theorem Sealing.seal (h : Sealing keyIdOf key sealedModels (row :: rows) store)
    (hseen : row.modelId ∈ sealedModels) :
    Sealing keyIdOf key sealedModels rows
      (afterUpdate store row.id (.software key row.blob) true) where
  named := by
    refine h.named.update (h.pending row mem_cons_self) ?_
    intro _ model hmodel id hid
    rw [h.naming row.modelId hseen model hmodel] at hid
    cases hid
    exact ⟨key, rfl, row.blob, rfl⟩
  unmixed := by
    intro other hother next hnext hmodel hsoft
    rcases FaceStore.mem_withBlob (h.pending row mem_cons_self) hnext with rfl | ⟨hold, -⟩
    · exact ⟨row.blob, rfl⟩
    · exact h.unmixed other (mem_cons_of_mem _ hother) next hold hmodel hsoft
  naming := h.naming
  pending := by
    intro other hother
    apply mem_afterUpdate_of_ne (h.pending other (mem_cons_of_mem _ hother))
    exact fun hid => (nodup_cons.mp h.nodup).1 (hid ▸ mem_map_of_mem hother)
  unencrypted other hother := h.unencrypted other (mem_cons_of_mem _ hother)
  nodup := (nodup_cons.mp h.nodup).2

theorem Sealing.readsStill (hids : IdsDiffer keyIdOf keys) (hkey : key ∈ keys)
    (h : Sealing keyIdOf key sealedModels (row :: rows) store)
    (hseen : row.modelId ∈ sealedModels) :
    ReadsStill keyIdOf artifact tpm keys store
      (afterUpdate store row.id (.software key row.blob) true) := by
  apply readsStill_update (h.pending row mem_cons_self)
  intro embedding hread
  have hplain : row.sealed = false ∧ row.blob.isSoftwareEncrypted = false := by
    simpa [EmbeddingRow.isUnencrypted] using h.unencrypted row mem_cons_self
  obtain ⟨hlength, rfl⟩ := plain_of_readRow hplain.1 hread
  obtain ⟨model, hmodel, -⟩ := decryptRow_of_readRow hread
  exact readRow_software hids hmodel rfl (Blob.isSoftwareEncrypted_seal key hlength) rfl hkey
    hlength (.inr (h.naming row.modelId hseen model hmodel))

theorem meets_encryptRows (hids : IdsDiffer keyIdOf keys) (hkey : key ∈ keys) {start}
    (h : Sealing keyIdOf key sealedModels rows store)
    (hstart : ReadsStill keyIdOf artifact tpm keys start store) :
    ((encryptRows keyIdOf key sealedModels rows).run store).Meets
      (Kept keyIdOf artifact tpm keys start)
      fun _ => Kept keyIdOf artifact tpm keys start := by
  induction rows generalizing sealedModels store with
  | nil => exact ⟨h.named, hstart⟩
  | cons row rows ih =>
    unfold encryptRows
    split_ifs with hseen
    · rw [meets_bind]
      have hnext : Sealing keyIdOf key (row.modelId :: sealedModels) rows
          (afterUpdate store row.id (.software key row.blob) true) := by
        refine { h.seal hseen with naming := ?_ }
        exact forall_mem_cons.mpr ⟨h.naming row.modelId hseen, h.naming⟩
      exact meets_updateEmbeddingSealed ⟨h.named, hstart⟩
        (ih hnext (hstart.trans (h.readsStill hids hkey hseen))) fun _ => ⟨h.named, hstart⟩
    · rw [meets_bind]
      have hset := h.setKey
      have hsetReads : ReadsStill keyIdOf artifact tpm keys start
          (afterSetKey store row.modelId (some (keyIdOf key))) := by
        refine hstart.trans (readsStill_setKey hids ?_)
        intro other hother hsame hsoft found hfound
        obtain ⟨content, hcontent⟩ := h.unmixed row mem_cons_self other hother hsame hsoft
        obtain ⟨_, hfound⟩ := hfound
        cases hcontent.symm.trans hfound
        exact .inr rfl
      refine meets_setModelKeyId ⟨h.named, hstart⟩ ?_ fun _ => ⟨h.named, hstart⟩
      rw [afterwards_ok, meets_bind]
      exact meets_updateEmbeddingSealed ⟨hset.named, hsetReads⟩
        (ih (hset.seal mem_cons_self)
          (hsetReads.trans (hset.readsStill hids hkey mem_cons_self)))
        fun _ => ⟨hset.named, hsetReads⟩

end Encrypt

section Decrypt

/-- What comes out of an opened blob is not sealed itself. -/
def PlainInside (result : Except String Blob) : Prop :=
  ∀ content, result = .ok content → content.isSoftwareEncrypted = false

/-- Every opened row reads as what was found in it. -/
def OpensAs (keyIdOf : Key → String) (artifact : String) (tpm : Blob → Except String Blob)
    (keys : Keyring) (openBlob : Blob → Except String Blob) (row : EmbeddingRow) : Prop :=
  ∀ content, openBlob row.blob = .ok content → ∀ store embedding,
    readRow keyIdOf artifact tpm keys store row = .ok embedding →
      content.length = Blob.rawEmbeddingSize ∧ embedding = content

theorem opensAs_unsealBytes (key : Key) {row} (hsoft : row.blob.isSoftwareEncrypted = true) :
    OpensAs keyIdOf artifact tpm keys (Blob.unsealBytes key) row := by
  intro content hopen store embedding hread
  cases hflag : row.sealed with
  | false =>
    exact absurd (plain_of_readRow hflag hread).1 (Blob.length_ne_of_isSoftwareEncrypted hsoft)
  | true =>
    obtain ⟨found, -, hblob, hlength⟩ := software_of_readRow hflag hsoft hread
    rw [Blob.unsealBytes_eq_ok.mp hopen] at hblob
    cases hblob
    exact ⟨hlength, rfl⟩

theorem opensAs_tpm {row} (hsealed : row.blob.isSealed = true) :
    OpensAs keyIdOf artifact tpm keys tpm row :=
  fun _ hopen _ _ hread => tpm_of_readRow hsealed hopen hread

variable {start : FaceStore} {rows : List EmbeddingRow}

/-- A loop of `run_decrypt` keeps the rows it has not come to. -/
theorem meets_decryptRows {failure openBlob}
    (hplain : ∀ row ∈ rows, PlainInside (openBlob row.blob))
    (hopens : ∀ row ∈ rows, OpensAs keyIdOf artifact tpm keys openBlob row)
    (hnodup : (rows.map EmbeddingRow.id).Nodup) (hpending : ∀ row ∈ rows, row ∈ store.embeddings)
    (hkept : Kept keyIdOf artifact tpm keys start store) :
    ((decryptRows failure openBlob rows).run store).Meets (Kept keyIdOf artifact tpm keys start)
      fun _ final => Kept keyIdOf artifact tpm keys start final ∧
        ∀ other ∈ store.embeddings, other.id ∉ rows.map EmbeddingRow.id →
          other ∈ final.embeddings := by
  induction rows generalizing store with
  | nil => exact ⟨hkept, fun other hother _ => hother⟩
  | cons row rows ih =>
    obtain ⟨hrow, hpending⟩ := forall_mem_cons.mp hpending
    obtain ⟨hplainRow, hplain⟩ := forall_mem_cons.mp hplain
    obtain ⟨hopensRow, hopens⟩ := forall_mem_cons.mp hopens
    unfold decryptRows
    cases hopen : openBlob row.blob with
    | error e => exact ⟨hkept, fun other hother _ => hother⟩
    | ok content =>
      have hnext : Kept keyIdOf artifact tpm keys start
          (afterUpdate store row.id content false) := by
        refine ⟨hkept.1.update hrow fun hsoft => ?_, hkept.2.trans (readsStill_update hrow ?_)⟩
        · rw [hplainRow content hopen] at hsoft
          cases hsoft
        · intro embedding hread
          obtain ⟨hlength, rfl⟩ := hopensRow content hopen store embedding hread
          obtain ⟨model, hmodel, -⟩ := decryptRow_of_readRow hread
          exact readRow_plain hmodel rfl hlength
      have hothers : ∀ other ∈ store.embeddings, other.id ≠ row.id →
          other ∈ (afterUpdate store row.id content false).embeddings :=
        fun other hother hne => mem_afterUpdate_of_ne hother hne content false
      obtain ⟨hfresh, hrest⟩ := nodup_cons.mp hnodup
      have hpendingNext : ∀ other ∈ rows,
          other ∈ (afterUpdate store row.id content false).embeddings := by
        intro other hother
        apply hothers other (hpending other hother)
        exact fun hid => hfresh (hid ▸ mem_map_of_mem hother)
      show ((Prog.act _ >>= fun _ => decryptRows failure openBlob rows).run store).Meets _ _
      rw [meets_bind]
      refine meets_updateEmbeddingSealed hkept ?_ fun _ => ⟨hkept, fun other hother _ => hother⟩
      refine (ih hplain hopens hrest hpendingNext hnext).mono (fun _ h => h) ?_
      intro _ final hfinal
      refine ⟨hfinal.1, fun other hother hid => ?_⟩
      rw [map_cons, mem_cons, not_or] at hid
      exact hfinal.2 other (hothers other hother hid.1) hid.2

theorem meets_clearKeys (hids : IdsDiffer keyIdOf keys) {modelIds}
    (hkept : Kept keyIdOf artifact tpm keys start store) :
    ((clearKeys modelIds).run store).Meets (Kept keyIdOf artifact tpm keys start)
      fun _ => Kept keyIdOf artifact tpm keys start := by
  induction modelIds generalizing store with
  | nil => exact hkept
  | cons modelId modelIds ih =>
    have hnext : Kept keyIdOf artifact tpm keys start (afterSetKey store modelId none) :=
      ⟨hkept.1.clearKey modelId,
        hkept.2.trans (readsStill_setKey hids fun _ _ _ _ _ _ => .inl rfl)⟩
    unfold clearKeys
    rw [meets_bind]
    exact meets_setModelKeyId hkept (ih hnext) fun _ => hkept

end Decrypt

/-! ## Runs -/

/-- One invocation, stopped after so many of its updates or run to its
end. -/
inductive Invocation where
  | encrypt (key : Key) (updates : Nat)
  | decrypt (key : Key) (updates : Nat)
  deriving DecidableEq, Repr

/-- What is left of the store after an invocation. -/
def invoke (keyIdOf : Key → String) (tpm : Blob → Except String Blob) (invocation : Invocation)
    (store : FaceStore) : Option FaceStore :=
  match invocation with
  | .encrypt key updates => some (((runEncrypt keyIdOf key).run store).cut updates)
  | .decrypt key updates => some (((runDecrypt tpm key).run store).cut updates)

/-- What an invocation has to find.  A model with a row left to seal has no
row that is sealed under another key, and no sealed row holds another sealed
blob. -/
def Unmixed (tpm : Blob → Except String Blob) : Invocation → FaceStore → Prop
  | .encrypt key _, store => ∀ row ∈ store.getAllEmbeddingsRaw, row.isUnencrypted = true →
      SealedUnder key store row.modelId
  | .decrypt key _, store => ∀ row ∈ store.getAllEmbeddingsRaw,
      (row.blob.isSoftwareEncrypted = true → PlainInside (Blob.unsealBytes key row.blob)) ∧
        (row.blob.isSealed = true → PlainInside (tpm row.blob))

theorem nodup_filter (p : EmbeddingRow → Bool) :
    ((store.getAllEmbeddingsRaw.filter p).map EmbeddingRow.id).Nodup := by
  have hsublist : (store.getAllEmbeddingsRaw.filter p).Sublist store.embeddings :=
    filter_sublist.trans filter_sublist
  exact store.embeddings_nodup.sublist (hsublist.map _)

theorem mem_embeddings_of_mem_raw (h : row ∈ store.getAllEmbeddingsRaw) : row ∈ store.embeddings :=
  mem_of_mem_filter h

theorem meets_runEncrypt (hids : IdsDiffer keyIdOf keys) {key} (hkey : key ∈ keys) {updates}
    (hnamed : Named keyIdOf store) (hunmixed : Unmixed tpm (.encrypt key updates) store) :
    ((runEncrypt keyIdOf key).run store).Meets (Kept keyIdOf artifact tpm keys store)
      fun _ => Kept keyIdOf artifact tpm keys store := by
  unfold runEncrypt
  refine meets_encryptRows hids hkey ?_ (ReadsStill.refl store)
  refine ⟨hnamed, ?_, by simp, ?_, ?_, nodup_filter _⟩
  · intro row hrow
    obtain ⟨hmem, hrow⟩ := mem_filter.mp hrow
    exact hunmixed row hmem hrow
  · exact fun row hrow => mem_embeddings_of_mem_raw (mem_of_mem_filter hrow)
  · exact fun row hrow => (mem_filter.mp hrow).2

theorem meets_runDecrypt (hids : IdsDiffer keyIdOf keys) {key updates}
    (hnamed : Named keyIdOf store) (hunmixed : Unmixed tpm (.decrypt key updates) store) :
    ((runDecrypt tpm key).run store).Meets (Kept keyIdOf artifact tpm keys store)
      fun _ => Kept keyIdOf artifact tpm keys store := by
  unfold runDecrypt
  refine (meets_decryptRows ?_ ?_ (nodup_filter _) ?_ ⟨hnamed, ReadsStill.refl store⟩).bind
    (fun _ h => h) (fun _ _ h => h.1) ?_
  · intro row hrow
    obtain ⟨hmem, hsoft⟩ := mem_filter.mp hrow
    exact (hunmixed row hmem).1 hsoft
  · exact fun row hrow => opensAs_unsealBytes key (mem_filter.mp hrow).2
  · exact fun row hrow => mem_embeddings_of_mem_raw (mem_of_mem_filter hrow)
  · intro _ middle hmiddle
    refine (meets_decryptRows ?_ ?_ (nodup_filter _) ?_ hmiddle.1).bind (fun _ h => h)
      (fun _ _ h => h.1) fun _ _ h => meets_clearKeys hids h.1
    · intro row hrow
      obtain ⟨hmem, hsealed⟩ := mem_filter.mp hrow
      exact (hunmixed row hmem).2 hsealed
    · exact fun row hrow => opensAs_tpm (mem_filter.mp hrow).2
    · intro row hrow
      obtain ⟨hmem, hsealed⟩ := mem_filter.mp hrow
      -- a row that the TPM sealed is not among the rows of the first loop
      refine hmiddle.2 row (mem_embeddings_of_mem_raw hmem) ?_
      intro hid
      obtain ⟨other, hother, hid⟩ := mem_map.mp hid
      obtain ⟨hmem', hsoft⟩ := mem_filter.mp hother
      rw [FaceStore.row_unique (mem_embeddings_of_mem_raw hmem')
        (mem_embeddings_of_mem_raw hmem) hid,
        Blob.not_isSoftwareEncrypted_of_isSealed hsealed] at hsoft
      cases hsoft

/-- One invocation that finds what it has to find. -/
theorem invoke_keeps (hids : IdsDiffer keyIdOf keys) {invocation next}
    (hnamed : Named keyIdOf store) (hunmixed : Unmixed tpm invocation store)
    (hnext : invoke keyIdOf tpm invocation store = some next)
    (hkeys : ∀ key updates, invocation = .encrypt key updates → key ∈ keys) :
    Kept keyIdOf artifact tpm keys store next := by
  cases invocation with
  | encrypt key updates =>
    cases hnext
    exact (meets_runEncrypt hids (hkeys key updates rfl) hnamed hunmixed).cut updates
  | decrypt key updates =>
    cases hnext
    exact (meets_runDecrypt hids hnamed hunmixed).cut updates

/-- Runs of the two commands, each cut short or not, that find no model with
rows under two keys: every sealed row opens under the key that its model
names, and with all keys that were used no row is lost if no two of them
have one id. -/
theorem reencrypt_keeps_rows (tpm : Blob → Except String Blob) {invocations : List Invocation}
    {store final : FaceStore} (hnamed : Named keyIdOf store)
    (hunmixed : Obeys (invoke keyIdOf tpm) (Unmixed tpm) invocations store)
    (hrun : run (invoke keyIdOf tpm) invocations store = some final) :
    Named keyIdOf final ∧ ∀ artifact keys, IdsDiffer keyIdOf keys →
      (∀ key updates, .encrypt key updates ∈ invocations → key ∈ keys) →
        ReadsStill keyIdOf artifact tpm keys store final := by
  induction invocations generalizing store with
  | nil =>
    cases hrun
    exact ⟨hnamed, fun _ _ _ _ => ReadsStill.refl _⟩
  | cons invocation invocations ih =>
    obtain ⟨next, hnext, hrest⟩ := run_cons_eq_some.mp hrun
    have hkept : ∀ artifact keys, IdsDiffer keyIdOf keys →
        (∀ key updates, invocation = .encrypt key updates → key ∈ keys) →
          Kept keyIdOf artifact tpm keys store next :=
      fun _ _ hids => invoke_keeps hids hnamed hunmixed.1 hnext
    -- a single key has no other key to share its id with
    have hnamedNext : Named keyIdOf next := by
      cases invocation with
      | encrypt key updates =>
        refine (hkept "" [key] (idsDiffer_singleton key) ?_).1
        intro other _ hsame
        cases hsame
        exact mem_cons_self
      | decrypt key updates => exact (hkept "" [] (by simp [IdsDiffer]) (by simp)).1
    obtain ⟨hnamedFinal, hreads⟩ := ih hnamedNext (hunmixed.2 next hnext) hrest
    refine ⟨hnamedFinal, fun artifact keys hids hkeys => ?_⟩
    refine (hkept artifact keys hids ?_).2.trans (hreads artifact keys hids ?_)
    · rintro key updates rfl
      exact hkeys key updates mem_cons_self
    · exact fun key updates hmem => hkeys key updates (mem_cons_of_mem _ hmem)

end Keeps

/-! ## One model, two keys -/

instance (key : Key) : ∀ blob : Blob, Decidable (blob.OpensUnder key)
  | .raw _ => isFalse (by rintro ⟨_, h⟩; cases h)
  | .software sealed content =>
    decidable_of_iff (sealed = key) (by simp [Blob.OpensUnder])

instance (key : Key) (store : FaceStore) (modelId : Nat) :
    Decidable (SealedUnder key store modelId) :=
  inferInstanceAs (Decidable (∀ row ∈ store.embeddings, _))

instance : ∀ result : Except String Blob, Decidable (PlainInside result)
  | .ok content =>
    decidable_of_iff (content.isSoftwareEncrypted = false) (by simp [PlainInside])
  | .error _ => isTrue (by simp [PlainInside])

instance (tpm : Blob → Except String Blob) :
    ∀ invocation store, Decidable (Unmixed tpm invocation store)
  | .encrypt _ _, store => inferInstanceAs (Decidable (∀ row ∈ store.getAllEmbeddingsRaw, _))
  | .decrypt _ _, store => inferInstanceAs (Decidable (∀ row ∈ store.getAllEmbeddingsRaw, _))

/-- A stand-in for the fingerprint of a key. -/
def tally (key : Key) : String :=
  String.ofList (List.replicate key.toNat '|')

def plainTemplate : Blob :=
  .raw (replicate Blob.rawEmbeddingSize 0)

/-- A model with two rows in the clear. -/
def twoRows : FaceStore where
  models := [{ id := 1, user := "alice", label := "front", deviceId := none, keyId := none }]
  embeddings := [{ id := 1, modelId := 1, blob := plainTemplate, sealed := false },
    { id := 2, modelId := 1, blob := plainTemplate, sealed := false }]
  nextModelId := 2
  nextEmbeddingId := 3
  models_nodup := by decide
  embeddings_nodup := by decide
  models_lt := by decide
  embeddings_lt := by decide

def noTpm (_ : Blob) : Except String Blob :=
  .error "TPM error: cannot unseal TPM-sealed data without TPM support"

theorem named_twoRows : Named tally twoRows := by
  intro row hrow hsoft
  exfalso
  revert row
  decide

/-- Three runs under one key, of which the first and the last are cut
short. -/
theorem reencrypt_keeps_twoRows :
    ∃ final, run (invoke tally noTpm) [.encrypt 1 2, .encrypt 1 9, .decrypt 1 1] twoRows =
      some final ∧ Named tally final ∧ ReadsStill tally "" noTpm [1] twoRows final := by
  have hunmixed : Obeys (invoke tally noTpm) (Unmixed noTpm)
      [.encrypt 1 2, .encrypt 1 9, .decrypt 1 1] twoRows := by decide +kernel
  obtain ⟨final, hrun⟩ : ∃ final, run (invoke tally noTpm)
      [.encrypt 1 2, .encrypt 1 9, .decrypt 1 1] twoRows = some final := ⟨_, rfl⟩
  obtain ⟨hnamed, hreads⟩ := reencrypt_keeps_rows noTpm named_twoRows hunmixed hrun
  have hkeys : ∀ key updates, Invocation.encrypt key updates ∈
      [Invocation.encrypt 1 2, .encrypt 1 9, .decrypt 1 1] → key ∈ ([1] : Keyring) := by
    intro key updates hmem
    simp only [mem_cons, Invocation.encrypt.injEq] at hmem
    grind
  exact ⟨final, hrun, hnamed, hreads "" [1] (idsDiffer_singleton 1) hkeys⟩

/-- A run that is cut short and a run under another key: the first row is
sealed under the first key, and its model names the second. -/
theorem resealed_under_other_key :
    ∃ final, run (invoke tally noTpm) [.encrypt 1 2, .encrypt 2 9] twoRows = some final ∧
      ¬ Named tally final := by
  refine ⟨_, rfl, ?_⟩
  intro hnamed
  obtain ⟨key, hkey, hopens⟩ := hnamed
    { id := 1, modelId := 1, blob := .software 1 plainTemplate, sealed := true }
    (by decide +kernel) (by decide +kernel)
    { id := 1, user := "alice", label := "front", deviceId := none, keyId := some (tally 2) }
    (by decide) (tally 2) rfl
  obtain ⟨content, hcontent⟩ := hopens
  cases hcontent
  exact absurd hkey (by decide)

end Facelock.Templates
