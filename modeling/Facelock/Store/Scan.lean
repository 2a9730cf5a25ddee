import Facelock.Store.Shape

/-!
# What the scans find

The scans of the state directory, read over the shape of one operation.
`Settled` is a state in which a scan finds no work: no intent, no
binding, no temporary file of the store, and no pair that is still
prepared.  Over a settled base a scan finds the files of the operation
and nothing else, in whatever order the directory is read.
-/

namespace Facelock.Store

open Facelock.Crash List

/-- Files in which recovery finds nothing to do.  Entries that no scan
accepts, and committed pairs, may be there. -/
structure Settled (P : Platform) (base : Files) : Prop where
  intent : ∀ name, validIntentAt P base name = none
  publication : ∀ name, validPublicationAt P base name = none
  temp : ∀ name, ownedTempAt P base name = none
  pair : ∀ backup pair, recordPairAt P base (.record backup) = some pair →
    pair.provenance.state = .committed

variable {P : Platform} {dirs : PamDirs} {base files : Files} {op : BackupName} {own : OpFiles}

/-! ## One entry -/

variable {file : File} {pair : PreparedBackup} {backup : BackupName}

section Entry

variable {files' : Files} {name : StateName}

theorem ownedContentAt_congr (h : files.get (.state name) = files'.get (.state name))
    (limit : Nat) : ownedContentAt P name limit files = ownedContentAt P name limit files' := by
  simp [ownedContentAt, openRegularAt, h]

theorem ownedContentAt_of_none (h : files.get (.state name) = none) (limit : Nat) :
    ownedContentAt P name limit files = none := by
  simp [ownedContentAt, openRegularAt_of_none h]

theorem ownedContentAt_eq_some {limit content} :
    ownedContentAt P name limit files = some (file, content) ↔
      (files.get (.state name) = some (.regular file) ∧ file.links = 1) ∧
        ownedStateFile P file = true ∧ file.content.fits limit = true ∧ file.content = content := by
  rw [← openRegularAt_eq_ok, ← readOpenBounded_eq_ok]
  unfold ownedContentAt
  grind

theorem ownedContentAt_of_state {content limit} (h : files.get (.state name) = some (.regular file))
    (hstate : IsState P content file) (hfits : content.fits limit = true) :
    ownedContentAt P name limit files = some (file, content) :=
  ownedContentAt_eq_some.mpr
    ⟨⟨h, hstate.links⟩, hstate.owned, hstate.content ▸ hfits, hstate.content⟩

theorem validIntentAt_congr (h : files.get (.state name) = files'.get (.state name)) :
    validIntentAt P files name = validIntentAt P files' name := by
  simp [validIntentAt, ownedContentAt_congr h]

theorem validPublicationAt_congr (h : files.get (.state name) = files'.get (.state name)) :
    validPublicationAt P files name = validPublicationAt P files' name := by
  simp [validPublicationAt, ownedContentAt_congr h]

theorem validIntentAt_of_none (h : files.get (.state name) = none) :
    validIntentAt P files name = none := by
  cases name <;> simp [validIntentAt, ownedContentAt_of_none h]

theorem validPublicationAt_of_none (h : files.get (.state name) = none) :
    validPublicationAt P files name = none := by
  cases name <;> simp [validPublicationAt, ownedContentAt_of_none h]

/-- What the scan has checked of a pair: the record file, the name that the
record gives it, and the backup with the digest that the record names. -/
theorem recordPairAt_eq_some : recordPairAt P files name = some pair ↔ name.isJson = true ∧
    ∃ record copy original,
      ownedContentAt P name maxRecordBytes files = some (record, .record pair.provenance) ∧
      validProvenanceRecord name pair.provenance = true ∧
      ownedContentAt P (.backup pair.provenance.backup) maxBackupBytes files =
        some (copy, original) ∧
      P.sha256 original = pair.provenance.originalSha256 ∧
      pair = { pair with
        backup := pair.provenance.backup
        backupIdentity := some (copy.identity P)
        recordIdentity := some (record.identity P) } := by
  unfold recordPairAt
  constructor
  · grind
  · rintro ⟨hjson, record, copy, original, hrecord, hvalid, hcopy, hdigest, hpair⟩
    simp only [hjson, hrecord, hvalid, hcopy, hdigest, if_true]
    rw [hpair]

theorem backup_of_valid {provenance}
    (h : validProvenanceRecord (.record backup) provenance = true) :
    provenance.backup = backup := by
  simp only [validProvenanceRecord, Bool.and_eq_true, decide_eq_true_eq] at h
  exact (StateName.record.inj h.1.2).symm

theorem recordPairAt_some (h : recordPairAt P files name = some pair) :
    name = .record pair.backup ∧ pair.provenance.backup = pair.backup ∧
      pair.provenance.service = pair.backup.service ∧ files.get (.state name) ≠ none := by
  obtain ⟨-, record, _, _, hrecord, hvalid, -, -, hpair⟩ := recordPairAt_eq_some.mp h
  have hbackup : pair.provenance.backup = pair.backup :=
    (congrArg PreparedBackup.backup hpair).symm
  simp only [validProvenanceRecord, validBackupName, Bool.and_eq_true, decide_eq_true_eq,
    hbackup] at hvalid
  refine ⟨hvalid.1.2, hbackup, hvalid.2.1.1.symm, ?_⟩
  rw [(ownedContentAt_eq_some.mp hrecord).1.1]
  nofun

theorem recordPairAt_congr
    (hrecord : files.get (.state (.record backup)) = files'.get (.state (.record backup)))
    (hbackup : files.get (.state (.backup backup)) = files'.get (.state (.backup backup))) :
    recordPairAt P files (.record backup) = recordPairAt P files' (.record backup) := by
  unfold recordPairAt
  grind [ownedContentAt_congr, backup_of_valid]

end Entry

/-! ## Whole scans -/

theorem filterMap_readDir_eq_singleton {β : Type} {f name} {found : β}
    (hname : files.get (.state name) ≠ none) (hfound : f name = some found)
    (hother : ∀ other, other ≠ name → f other = none) :
    (P.readDir files).filterMap f = [found] := by
  obtain ⟨before, after, hsplit⟩ := append_of_mem ((P.mem_readDir files name).mpr hname)
  have hnodup := P.nodup_readDir files
  rw [hsplit, nodup_middle, nodup_cons, mem_append, not_or] at hnodup
  have hskip : ∀ names : List StateName, name ∉ names → names.filterMap f = [] := by
    intro names hnames
    rw [filterMap_eq_nil_iff]
    intro other hmem
    exact hother other fun heq => hnames (heq ▸ hmem)
  rw [hsplit, filterMap_append, filterMap_cons_some hfound, hskip before hnodup.1.1,
    hskip after hnodup.1.2]
  rfl

theorem filterMap_readDir_eq_nil {β : Type} {f : StateName → Option β}
    (h : ∀ name, f name = none) : (P.readDir files).filterMap f = [] := by
  rw [filterMap_eq_nil_iff]
  intro name _
  exact h name

theorem mem_scannedRecordPairs :
    pair ∈ scannedRecordPairs P files ↔ recordPairAt P files (.record pair.backup) = some pair := by
  rw [scannedRecordPairs, mem_filterMap]
  constructor
  · rintro ⟨name, -, h⟩
    rw [← (recordPairAt_some h).1]
    exact h
  · intro h
    exact ⟨_, (P.mem_readDir _ _).mpr (recordPairAt_some h).2.2.2, h⟩

theorem nodup_scannedRecordPairs : (scannedRecordPairs P files).Nodup := by
  refine (P.nodup_readDir files).filterMap ?_
  intro name name' pair h h'
  rw [(recordPairAt_some h).1, (recordPairAt_some h').1]

/-- In a list without repetitions, a sequence number that occurs once
belongs to one pair. -/
theorem countP_sequence_eq_one {records : List PreparedBackup} (hnodup : records.Nodup)
    (hpair : pair ∈ records) :
    records.countP (fun other =>
        decide (other.provenance.sequence = pair.provenance.sequence)) = 1 ↔
      ∀ other ∈ records, other.provenance.sequence = pair.provenance.sequence → other = pair := by
  have hmem : pair ∈ records.filter fun other =>
      decide (other.provenance.sequence = pair.provenance.sequence) :=
    mem_filter.mpr ⟨hpair, by simp⟩
  rw [countP_eq_length_filter]
  constructor
  · intro hcount other hother hsequence
    obtain ⟨only, hfilter⟩ := length_eq_one_iff.mp hcount
    have hfound : other ∈ [only] := by
      rw [← hfilter]
      exact mem_filter.mpr ⟨hother, decide_eq_true hsequence⟩
    rw [hfilter, mem_singleton] at hmem
    rw [mem_singleton.mp hfound, hmem]
  · intro hunique
    have hcopies := eq_replicate_of_mem fun other hother =>
      hunique other (mem_filter.mp hother).1 (of_decide_eq_true (mem_filter.mp hother).2)
    have hle := nodup_replicate.mp (hcopies ▸ hnodup.filter _)
    have hpos := length_pos_of_mem hmem
    omega

variable {service : String}

theorem mem_validatedRecords : pair ∈ validatedRecords P service files ↔
      pair ∈ scannedRecordPairs P files ∧ pair.provenance.service = service ∧
        ∀ other ∈ scannedRecordPairs P files,
          other.provenance.sequence = pair.provenance.sequence → other = pair := by
  simp only [validatedRecords, mem_insertionSort, mem_filter, Bool.and_eq_true, decide_eq_true_eq]
  constructor
  · rintro ⟨hmem, hservice, hcount⟩
    exact ⟨hmem, hservice, (countP_sequence_eq_one nodup_scannedRecordPairs hmem).mp hcount⟩
  · rintro ⟨hmem, hservice, hunique⟩
    exact ⟨hmem, hservice, (countP_sequence_eq_one nodup_scannedRecordPairs hmem).mpr hunique⟩

theorem nodup_validatedRecords (service : String) : (validatedRecords P service files).Nodup := by
  have hperm := perm_insertionSort
    (fun a b : PreparedBackup => b.provenance.sequence ≤ a.provenance.sequence)
  exact (hperm _).nodup_iff.mpr (nodup_scannedRecordPairs.filter _)

/-! ## Scans over a shape -/

/-- A name of the state directory is a slot's name or one of the base. -/
theorem Shape.slot_or_rest (h : Shape base op own files) (name : StateName) :
    (∃ k : Slot, .state name = k.name op) ∨
      (∀ k : Slot, Name.state name ≠ k.name op) ∧
        files.get (.state name) = base.get (.state name) := by
  by_cases hslot : ∃ k : Slot, Name.state name = k.name op
  · exact .inl hslot
  · refine .inr ⟨fun k heq => hslot ⟨k, heq⟩, h.rest _ fun k heq => hslot ⟨k, heq⟩⟩

def Slot.isIntent : Slot → Bool
  | .prepareIntent | .commitIntent | .cleanupIntent | .replaceIntent => true
  | _ => false

def Slot.isBinding : Slot → Bool
  | .commitBinding | .replaceBinding => true
  | _ => false

variable {k : Slot}

section

variable (h : Shape base op own files)

include h

theorem validIntentAt_of_slot {name} (hname : .state name = k.name op)
    (hempty : k.isIntent = true → own.get k = none) : validIntentAt P files name = none := by
  by_cases hk : k.isIntent = true
  · apply validIntentAt_of_none
    exact h.get_none k hname.symm (hempty hk)
  · cases k <;> simp [Slot.isIntent] at hk <;>
      simp only [Slot.name, Name.state.injEq, reduceCtorEq] at hname <;> subst hname <;> rfl

theorem validPublicationAt_of_slot {name} (hname : .state name = k.name op)
    (hempty : k.isBinding = true → own.get k = none) : validPublicationAt P files name = none := by
  by_cases hk : k.isBinding = true
  · apply validPublicationAt_of_none
    exact h.get_none k hname.symm (hempty hk)
  · cases k <;> simp [Slot.isBinding] at hk <;>
      simp only [Slot.name, Name.state.injEq, reduceCtorEq] at hname <;> subst hname <;> rfl

theorem Shape.validatedIntents_eq_nil (hbase : Settled P base)
    (hempty : ∀ k : Slot, k.isIntent = true → own.get k = none) :
    validatedIntents P files = [] := by
  apply filterMap_readDir_eq_nil
  intro name
  rcases h.slot_or_rest name with ⟨k, hname⟩ | ⟨-, hrest⟩
  · exact validIntentAt_of_slot h hname (hempty k)
  · rw [validIntentAt_congr hrest, hbase.intent]

theorem Shape.validatedPublications_eq_nil
    (hbase : Settled P base) (hempty : ∀ k : Slot, k.isBinding = true → own.get k = none) :
    validatedPublications P files = [] := by
  apply filterMap_readDir_eq_nil
  intro name
  rcases h.slot_or_rest name with ⟨k, hname⟩ | ⟨-, hrest⟩
  · exact validPublicationAt_of_slot h hname (hempty k)
  · rw [validPublicationAt_congr hrest, hbase.publication]

theorem Shape.validatedIntents_eq_singleton (hbase : Settled P base) {role intent}
    (hname : k.name op = .state (.intent role op)) (hfile : own.get k = some file)
    (hstate : IsState P (.intent intent) file) (hrole : intent.role = role)
    (hbackup : intent.backup = op) (hvalid : validStateIntent intent = true)
    (hempty : ∀ k' : Slot, k'.isIntent = true → k' ≠ k → own.get k' = none) :
    validatedIntents P files =
      [{ name := .intent role op, intent, identity := file.identity P }] := by
  have hget := h.get_file k hname hfile
  have hpresent : files.get (.state (.intent role op)) ≠ none := by simp [hget]
  refine filterMap_readDir_eq_singleton hpresent ?_ ?_
  · simp [validIntentAt, ownedContentAt_of_state hget hstate rfl, hrole, hbackup, hvalid]
  · intro other hne
    rcases h.slot_or_rest other with ⟨k', hother⟩ | ⟨-, hrest⟩
    · refine validIntentAt_of_slot h hother fun hk' => hempty k' hk' ?_
      rintro rfl
      exact hne (Name.state.inj (hother.trans hname))
    · rw [validIntentAt_congr hrest, hbase.intent]

end

variable {binding : PublicationBinding}

theorem Shape.validatedPublications_eq_singleton (h : Shape base op own files)
    (hbase : Settled P base) {role : PublicationRole}
    (hname : k.name op = .state (.publication role op)) (hfile : own.get k = some file)
    (hstate : IsState P (.binding binding) file) (hrole : binding.role = role)
    (hbackup : binding.backup = op) (hvalid : validPublicationBinding binding = true)
    (hempty : ∀ k' : Slot, k'.isBinding = true → k' ≠ k → own.get k' = none) :
    validatedPublications P files =
      [{ name := .publication role op, binding, identity := file.identity P }] := by
  have hget := h.get_file k hname hfile
  have hpresent : files.get (.state (.publication role op)) ≠ none := by simp [hget]
  refine filterMap_readDir_eq_singleton hpresent ?_ ?_
  · simp [validPublicationAt, ownedContentAt_of_state hget hstate rfl, hrole, hbackup, hvalid]
  · intro other hne
    rcases h.slot_or_rest other with ⟨k', hother⟩ | ⟨-, hrest⟩
    · refine validPublicationAt_of_slot h hother fun hk' => hempty k' hk' ?_
      rintro rfl
      exact hne (Name.state.inj (hother.trans hname))
    · rw [validPublicationAt_congr hrest, hbase.publication]

/-! ## The intent of a binding -/

variable {valid : ValidIntent}

section

variable {post : Except IoError Unit → Files → Prop} {name : StateName}
  (found services : List String)

theorem validIntentAt_some (h : validIntentAt P files name = some valid) :
    valid.name = name ∧ name = .intent valid.intent.role valid.intent.backup := by
  unfold validIntentAt at h
  split at h
  next =>
    split at h
    next =>
      split at h
      next hname =>
        obtain rfl := Option.some.inj h
        exact ⟨rfl, hname.1⟩
      next => cases h
    next => cases h
  next => cases h

/-- An intent that the scan returned is where its content says. -/
theorem validIntentAt_of_mem (h : valid ∈ validatedIntents P files) :
    validIntentAt P files (.intent valid.intent.role valid.intent.backup) = some valid := by
  obtain ⟨name, -, hname⟩ := mem_filterMap.mp h
  rw [← (validIntentAt_some hname).2]
  exact hname

theorem publicationMatchesIntent_name (h : publicationMatchesIntent binding valid = true) :
    valid.intent.role = binding.role.intentRole ∧ valid.intent.backup = binding.backup := by
  simp only [publicationMatchesIntent, Bool.and_eq_true, decide_eq_true_eq] at h
  exact ⟨h.1.1.1.1.1.symm, h.1.1.2.symm⟩

theorem find_intent_eq_none
    (h : files.get (.state (.intent binding.role.intentRole binding.backup)) = none) :
    (validatedIntents P files).find? (publicationMatchesIntent binding) = none := by
  rw [find?_eq_none]
  intro valid hvalid hmatch
  obtain ⟨hrole, hbackup⟩ := publicationMatchesIntent_name hmatch
  have hat := validIntentAt_of_mem hvalid
  rw [hrole, hbackup, validIntentAt_of_none h] at hat
  cases hat

theorem find_intent_eq_some (hvalid : valid ∈ validatedIntents P files)
    (hmatch : publicationMatchesIntent binding valid = true) :
    (validatedIntents P files).find? (publicationMatchesIntent binding) = some valid := by
  cases hfind : (validatedIntents P files).find? (publicationMatchesIntent binding) with
  | none => exact absurd hmatch (find?_eq_none.mp hfind valid hvalid)
  | some found =>
    obtain ⟨hrole, hbackup⟩ := publicationMatchesIntent_name hmatch
    obtain ⟨hrole', hbackup'⟩ := publicationMatchesIntent_name (find?_some hfind)
    have hat := validIntentAt_of_mem hvalid
    have hat' := validIntentAt_of_mem (mem_of_find?_eq_some hfind)
    rw [hrole, hbackup] at hat
    rw [hrole', hbackup', hat] at hat'
    exact hat'.symm

theorem Shape.mem_validatedIntents (h : Shape base op own files) {role intent}
    (hname : k.name op = .state (.intent role op)) (hfile : own.get k = some file)
    (hstate : IsState P (.intent intent) file) (hrole : intent.role = role)
    (hbackup : intent.backup = op) (hvalid : validStateIntent intent = true) :
    { name := .intent role op, intent, identity := file.identity P } ∈
      validatedIntents P files := by
  have hget := h.get_file k hname hfile
  refine mem_filterMap.mpr ⟨.intent role op, (P.mem_readDir _ _).mpr (by simp [hget]), ?_⟩
  simp [validIntentAt, ownedContentAt_of_state hget hstate rfl, hrole, hbackup, hvalid]

/-- The pass over bindings, where the scan finds one binding. -/
theorem run_recoverPublications_one {publication intent}
    (hpublications : validatedPublications P files = [publication])
    (hintent : (validatedIntents P files).find?
      (publicationMatchesIntent publication.binding) = intent)
    (hunblocked : intent = none → entryExistsAt (.state
      (.intent publication.binding.role.intentRole publication.binding.backup)) files = false) :
    (recoverPublications P dirs).run files =
      (recoverByRole P dirs publication intent).run files := by
  have hproceeds : (intent.isNone && entryExistsAt (.state
      (.intent publication.binding.role.intentRole publication.binding.backup)) files) =
      false := by
    cases intent with
    | none => simp [hunblocked rfl]
    | some valid => rfl
  simp only [recoverPublications, run_bind, run_read, bind_ok, hpublications, run_forM_singleton,
    recoverPublication, hintent, hproceeds, Bool.false_eq_true, if_false]

/-! ## Pairs over a shape -/

theorem Shape.recordPairAt_of_ne (h : Shape base op own files) (hne : backup ≠ op) :
    recordPairAt P files (.record backup) = recordPairAt P base (.record backup) := by
  apply recordPairAt_congr
  · refine h.rest _ fun k => ?_
    cases k <;> simp [Slot.name, hne]
  · refine h.rest _ fun k => ?_
    cases k <;> simp [Slot.name, hne]

theorem Shape.committed_of_ne (h : Shape base op own files) (hbase : Settled P base)
    (hpair : pair ∈ scannedRecordPairs P files) (hne : pair.backup ≠ op) :
    pair.provenance.state = .committed := by
  rw [mem_scannedRecordPairs, h.recordPairAt_of_ne hne] at hpair
  exact hbase.pair _ _ hpair

/-! ## Temporary files -/

theorem ownedTempAt_congr {files'} (h : files.get (.state name) = files'.get (.state name)) :
    ownedTempAt P files name = ownedTempAt P files' name := by
  simp [ownedTempAt, ownedContentAt_congr h]

theorem Shape.ownedTempAt_eq_none (h : Shape base op own files) (hbase : Settled P base)
    (name : StateName) : ownedTempAt P files name = none := by
  rcases h.slot_or_rest name with ⟨k, hname⟩ | ⟨-, hrest⟩
  · cases k <;> simp only [Slot.name, Name.state.injEq, reduceCtorEq] at hname <;>
      subst hname <;> rfl
  · rw [ownedTempAt_congr hrest, hbase.temp]

theorem run_recoverOwnedTemp_of_none (h : ownedTempAt P files name = none) :
    (recoverOwnedTemp P name).run files = .done files (.ok ()) := by
  simp [recoverOwnedTemp, run_bind, run_read, bind_ok, h, run_pure]

/-- Nothing is removed over a settled base. -/
theorem Shape.run_recoverOwnedTemps (h : Shape base op own files) (hbase : Settled P base) :
    (recoverOwnedTemps P).run files = .done files (.ok ()) := by
  simp only [recoverOwnedTemps, run_bind, run_read, bind_ok]
  exact run_forM_idle fun name _ => run_recoverOwnedTemp_of_none (h.ownedTempAt_eq_none hbase name)

/-- A base with temporary files that recovery does not own.  Cut commits
leave them, one after the other. -/
inductive Littered (P : Platform) (base : Files) : Files → Prop where
  | refl : Littered P base base
  | temp {litter : Files} {destination : StateName} {content : Content} {file : File} (stamp : Nat)
      (before : Littered P base litter) (state : IsState P content file)
      (disowned : validOwnedTempDestination destination content = false) :
      Littered P base
        (litter.set (.state (.temp destination (P.sha256 content) stamp)) (.regular file))

namespace Littered

variable {litter litter' : Files}

theorem trans (h : Littered P base litter) (h' : Littered P litter litter') :
    Littered P base litter' := by
  induction h' with
  | refl => exact h
  | temp stamp _ hstate hdisowned ih => exact .temp stamp ih hstate hdisowned

theorem get_eq (h : Littered P base litter) {name}
    (hname : ∀ destination digest stamp, name ≠ .state (.temp destination digest stamp)) :
    litter.get name = base.get name := by
  induction h with
  | refl => rfl
  | temp _ _ _ _ ih => rw [Dir.get_set_of_ne _ _ (hname _ _ _), ih]

theorem recordPairAt_eq (h : Littered P base litter) (backup : BackupName) :
    recordPairAt P litter (.record backup) = recordPairAt P base (.record backup) :=
  recordPairAt_congr (h.get_eq (by simp)) (h.get_eq (by simp))

theorem settled (h : Littered P base litter) (hbase : Settled P base) : Settled P litter := by
  induction h with
  | refl => exact hbase
  | @temp litter destination content file stamp before hstate hdisowned ih =>
    have hsame : ∀ name, name ≠ .temp destination (P.sha256 content) stamp →
        (litter.set (.state (.temp destination (P.sha256 content) stamp)) (.regular file)).get
          (.state name) = litter.get (.state name) :=
      fun name hname => Dir.get_set_of_ne _ _ (by simpa using hname)
    refine ⟨fun name => ?_, fun name => ?_, fun name => ?_, fun backup pair hpair => ?_⟩
    · by_cases hname : name = .temp destination (P.sha256 content) stamp
      · subst hname
        rfl
      · rw [validIntentAt_congr (hsame name hname), ih.intent]
    · by_cases hname : name = .temp destination (P.sha256 content) stamp
      · subst hname
        rfl
      · rw [validPublicationAt_congr (hsame name hname), ih.publication]
    · by_cases hname : name = .temp destination (P.sha256 content) stamp
      · subst hname
        rw [ownedTempAt]
        cases howned : ownedContentAt P (.temp destination (P.sha256 content) stamp) maxBackupBytes
            (litter.set (.state (.temp destination (P.sha256 content) stamp)) (.regular file)) with
        | none => rfl
        | some found =>
          obtain ⟨found, content'⟩ := found
          obtain ⟨⟨hget, -⟩, -, -, hcontent⟩ := ownedContentAt_eq_some.mp howned
          rw [Dir.get_set_self, Option.some.injEq, Entry.regular.injEq] at hget
          obtain rfl : content = content' := by rw [← hstate.content, hget, hcontent]
          simp [hdisowned]
      · rw [ownedTempAt_congr (hsame name hname), ih.temp]
    · rw [(Littered.temp stamp .refl hstate hdisowned).recordPairAt_eq] at hpair
      exact ih.pair backup pair hpair

end Littered

theorem Shape.meets_recoverOwnedTemps_owned {inv} {destination : StateName} {content : Content}
    {stamp : Nat}
    (hfree : base.get (.state (.temp destination (P.sha256 content) stamp)) = none)
    (hstate : IsState P content file) (hfits : content.fits maxBackupBytes = true)
    (hvalid : validOwnedTempDestination destination content = true)
    (h : Shape (base.set (.state (.temp destination (P.sha256 content) stamp)) (.regular file)) op
      own files) (hbase : Settled P base) (hinv : inv files)
    (hpost : ∀ files', Shape base op own files' → post (.ok ()) files') :
    ((recoverOwnedTemps P).run files).Meets inv post := by
  simp only [recoverOwnedTemps, meets_bind, run_read, meets_done, afterwards_ok]
  set temp := StateName.temp destination (P.sha256 content) stamp with htemp
  have hnotSlot : ∀ k : Slot, Name.state temp ≠ k.name op :=
    fun k => Slot.name_ne_temp op k _ _ _
  have hget : files.get (.state temp) = some (.regular file) := by
    rw [h.rest _ hnotSlot, Dir.get_set_self]
  have howned : ownedTempAt P files temp = some file := by
    have hcontent := ownedContentAt_of_state hget hstate hfits
    rw [htemp] at hcontent ⊢
    simp [ownedTempAt, hcontent, hvalid]
  have hremoved : Shape base op own (files.remove (.state temp)) := by
    have hshape := h.remove_base hnotSlot
    rwa [Dir.remove_set _ _ hfree] at hshape
  have hunlink : (unlink (.state temp)).run files =
      .step files (.done (files.remove (.state temp)) (.ok ())) :=
    run_act_ok (by simp [hget])
  have hfitsFile : file.content.fits maxBackupBytes = true := by rw [hstate.content, hfits]
  have hlimit : (if temp.isJson = true then maxRecordBytes else maxBackupBytes) =
      maxBackupBytes := rfl
  have hmem : temp ∈ P.readDir files := (P.mem_readDir _ _).mpr (by simp [hget])
  refine meets_forM_only hmem (P.nodup_readDir files) ?_ ?_
  · intro other _ hne
    apply run_recoverOwnedTemp_of_none
    have hother : files.get (.state other) =
        (files.remove (.state temp)).get (.state other) := by
      rw [Dir.get_remove_of_ne _ (by simpa using hne)]
    rw [ownedTempAt_congr hother]
    exact hremoved.ownedTempAt_eq_none hbase other
  · simp only [recoverOwnedTemp, meets_bind, run_read, meets_done, afterwards_ok, howned,
      unlinkStateIfIdentityMatches, hlimit, unlinkAtIfIdentityMatches,
      openRegularAt_of_get hget hstate.links, run_ofResult,
      identityOfOpenBounded_of_fits hfitsFile, identityMatches, decide_true, Bool.not_true,
      Bool.false_eq_true, if_false, hunlink, meets_step]
    refine ⟨hinv, hpost _ hremoved, ?_⟩
    intro other _ _
    exact run_recoverOwnedTemp_of_none (hremoved.ownedTempAt_eq_none hbase other)

/-- The first pass of recovery removes a temporary file that a crash left,
if it owns it, and nothing else. -/
theorem Shape.meets_recoverOwnedTemps {inv base'} (hstaged : Staged P base base')
    (h : Shape base' op own files) (hbase : Settled P base) (hinv : inv files)
    (hpost : ∀ litter files', Littered P base litter → Shape litter op own files' →
      post (.ok ()) files') : ((recoverOwnedTemps P).run files).Meets inv post := by
  cases hstaged with
  | bare =>
    rw [h.run_recoverOwnedTemps hbase]
    exact hpost base files .refl h
  | @temp destination content file stamp hfree hstate hfits =>
    cases hvalid : validOwnedTempDestination destination content with
    | true =>
      exact h.meets_recoverOwnedTemps_owned hfree hstate hfits hvalid hbase hinv
        fun files' => hpost base files' .refl
    | false =>
      have hlitter : Littered P base (base.set _ (.regular file)) :=
        .temp stamp .refl hstate hvalid
      rw [h.run_recoverOwnedTemps (hlitter.settled hbase)]
      exact hpost _ files hlitter h

/-! ## Prepared pairs -/

theorem nodup_foldl_pushNew (h : found.Nodup) : (services.foldl pushNew found).Nodup := by
  induction services generalizing found with
  | nil => exact h
  | cons service services ih =>
    apply ih
    unfold pushNew
    split
    next => exact h
    next hnew =>
      rw [nodup_append]
      refine ⟨h, nodup_singleton _, ?_⟩
      intro a ha b hb heq
      rw [mem_singleton.mp hb] at heq
      exact hnew (heq ▸ ha)

theorem mem_foldl_pushNew (wanted : String) (h : wanted ∈ found ∨ wanted ∈ services) :
    wanted ∈ services.foldl pushNew found := by
  induction services generalizing found with
  | nil => simpa using h
  | cons service services ih =>
    apply ih
    unfold pushNew
    rcases h with hfound | hservices
    · left
      split
      · exact hfound
      · exact mem_append_left _ hfound
    · rcases mem_cons.mp hservices with rfl | hrest
      · left
        split
        · assumption
        · exact mem_append_right _ mem_cons_self
      · exact .inr hrest

theorem nodup_hintedServices : (hintedServices P files).Nodup :=
  nodup_foldl_pushNew _ _ nodup_nil

theorem mem_hintedServices (h : recordPairAt P files (.record backup) = some pair) :
    pair.provenance.service ∈ hintedServices P files := by
  apply mem_foldl_pushNew
  right
  rw [mem_filterMap]
  refine ⟨_, (P.mem_readDir _ _).mpr (recordPairAt_some h).2.2.2, ?_⟩
  obtain ⟨-, record, -, -, hrecord, hvalid, -⟩ := recordPairAt_eq_some.mp h
  obtain ⟨hopen, -, hread⟩ := ownedContentAt_eq_some.mp hrecord
  simp [hintAt, StateName.isJson, openRegularAt_eq_ok.mpr hopen, readOpenBounded_eq_ok.mpr hread,
    hvalid]

theorem run_recoverRecord_of_committed (h : pair.provenance.state = .committed) :
    (recoverRecord P service pair).run files = .done files (.ok ()) := by
  simp [recoverRecord, h]

theorem run_recoverService_idle (h : ∀ pair ∈ validatedRecords P service files,
      (recoverRecord P service pair).run files = .done files (.ok ())) :
    (recoverService P service).run files = .done files (.ok ()) := by
  exact run_forM_idle h

theorem run_recoverRecords_idle (h : ∀ service, ∀ pair ∈ validatedRecords P service files,
      (recoverRecord P service pair).run files = .done files (.ok ())) :
    (recoverRecords P).run files = .done files (.ok ()) := by
  exact run_forM_idle fun service _ => run_recoverService_idle (h service)

/-- The services of other operations need nothing. -/
theorem Shape.run_recoverService_of_ne (h : Shape base op own files) (hbase : Settled P base)
    (hne : service ≠ op.service) : (recoverService P service).run files = .done files (.ok ()) := by
  apply run_recoverService_idle
  intro pair hpair
  obtain ⟨hscanned, hservice, -⟩ := mem_validatedRecords.mp hpair
  apply run_recoverRecord_of_committed
  refine h.committed_of_ne hbase hscanned ?_
  rintro rfl
  have hbackup := (recordPairAt_some (mem_scannedRecordPairs.mp hscanned)).2.2.1
  exact hne (hservice.symm.trans hbackup)

/-- The last pass of recovery comes down to the operation's own pair. -/
theorem Shape.meets_recoverRecords {inv}
    (h : Shape base op own files) (hbase : Settled P base)
    (hpair : recordPairAt P files (.record op) = some pair)
    (hsequence : ∀ backup other, recordPairAt P base (.record backup) = some other →
      other.provenance.sequence ≠ pair.provenance.sequence)
    (hrun : ((recoverRecord P op.service pair).run files).Meets inv fun result final =>
      match result with
      | .ok _ => post (.ok ()) final ∧ ∃ own', Shape base op own' final
      | .error e => post (.error e) final) : ((recoverRecords P).run files).Meets inv post := by
  obtain ⟨hname, -, hservice, -⟩ := recordPairAt_some hpair
  have hbackup : pair.backup = op := (StateName.record.inj hname).symm
  rw [hbackup] at hservice
  have hscanned : pair ∈ scannedRecordPairs P files := by
    rw [mem_scannedRecordPairs, hbackup]
    exact hpair
  have hown : ∀ other ∈ scannedRecordPairs P files, other.backup = op → other = pair := by
    intro other hother heq
    rw [mem_scannedRecordPairs, heq, hpair] at hother
    exact (Option.some.inj hother).symm
  have hmem : pair ∈ validatedRecords P op.service files := by
    refine mem_validatedRecords.mpr ⟨hscanned, hservice, ?_⟩
    intro other hother hequal
    by_contra hne
    have hotherBackup : other.backup ≠ op := fun heq => hne (hown other hother heq)
    rw [mem_scannedRecordPairs, h.recordPairAt_of_ne hotherBackup] at hother
    exact hsequence _ _ hother hequal
  have hcommitted : ∀ other ∈ validatedRecords P op.service files, other ≠ pair →
      other.provenance.state = .committed := by
    intro other hother hne
    have hother' := (mem_validatedRecords.mp hother).1
    exact h.committed_of_ne hbase hother' fun heq => hne (hown other hother' heq)
  refine meets_forM_only (hservice ▸ mem_hintedServices hpair) nodup_hintedServices ?_ ?_
  · intro service _ hne
    exact h.run_recoverService_of_ne hbase hne
  · refine meets_forM_only hmem (nodup_validatedRecords _) ?_ ?_
    · intro other hother hne
      exact run_recoverRecord_of_committed (hcommitted other hother hne)
    · refine hrun.mono (fun _ hs => hs) ?_
      intro result final hresult
      cases result with
      | error e => exact hresult
      | ok value =>
        obtain ⟨hpost, own', hshape⟩ := hresult
        refine ⟨⟨hpost, ?_⟩, ?_⟩
        · intro service _ hne
          exact hshape.run_recoverService_of_ne hbase hne
        · intro other hother hne
          exact run_recoverRecord_of_committed (hcommitted other hother hne)

end

end Facelock.Store
