import Facelock.Camera.Quirks
import Facelock.Lib.Text

/-!
# Which capture nodes are infrared

The verdicts of `crates/facelock-camera/src/device.rs`.  First every node
gets a verdict of its own, from its quirk or from the formats it
enumerates.  Then the nodes that share USB ids with a node found by its
quirk are compared: if one of them has an infrared format, the others
without one fall back to their formats.

The second pass is a loop over the nodes that rewrites verdicts.  A step
of it (`disambiguate_keeps`) only touches nodes with USB ids, so for all
others the first pass decides.  What it can decide there is
`irSourceWithQuirksAndIdentity_cases`.

The source indexes three slices by one counter.  An index out of range
ends the program and is `none` here.  With slices of one length it does not
happen (`classifyIrSourcesWithIdentity_isSome`).
-/

namespace Facelock.Camera

open List

/-! ## Formats -/

def irTypicalFourccs : List String := ["GREY", "Y16", "Y12", "Y10", "Y8"]

def isIrTypicalFourcc (fourcc : String) : Bool :=
  irTypicalFourccs.contains (Text.trim fourcc)

section

variable (device : DeviceInfo)

def hasNativeIrFormat : Bool :=
  device.formats.any fun format => isIrTypicalFourcc format.fourcc

def hasMonoOnlyFormats : Bool :=
  !device.formats.isEmpty && device.formats.all fun format => isIrTypicalFourcc format.fourcc

def hasQueriedIrEvidence : Bool := hasMonoOnlyFormats device

/-! ## One node -/

inductive IrSource where
  | quirk
  | format
  | none
  deriving DecidableEq, Repr

def heuristicIrSource : IrSource :=
  if hasQueriedIrEvidence device then .format else .none

/-- Whether `force_ir = true` is trusted for this kind of match. -/
def corroborated (usbIds : Option (String × String)) : QuirkMatchKind → Bool
  | .usbId => true
  | .platformId => true
  | .nameOnly => usbIds.isSome || hasQueriedIrEvidence device

end

variable (toLowercase : List Char → List Char)

def irSourceWithQuirksAndIdentity (device : DeviceInfo)
    (quirks : Option QuirksDb) (usbIds : Option (String × String))
    (platform : Option PlatformIdentity) : IrSource :=
  match quirks.bind fun db => db.findMatchWithKind toLowercase device usbIds platform with
  | some (quirk, kind) =>
    match quirk.forceIr with
    | some false => .none
    | some true => if corroborated device usbIds kind then .quirk else heuristicIrSource device
    | none => heuristicIrSource device
  | none => heuristicIrSource device

/-! ## Siblings -/

/-- `node_has_ir_format`, for the `format_preference` of the quirk. -/
def nodeHasIrFormat (pref : Option String) (device : DeviceInfo) : Bool :=
  hasNativeIrFormat device ||
    pref.any fun p => isIrTypicalFourcc p &&
      device.formats.any fun format => Text.trim format.fourcc == Text.trim p

/-- The state of the loop. -/
structure Siblings where
  sources : List IrSource
  seen : List (String × String)

/-- The nodes found by a quirk that have these USB ids. -/
def siblingGroup (count : Nat) (usbIds : List (Option (String × String)))
    (sources : List IrSource) (ids : String × String) : List Nat :=
  (range count).filter fun j => sources[j]? == some .quirk && usbIds[j]? == some (some ids)

variable (devices : List DeviceInfo)

/-- One turn of the loop over a group. -/
def demote (pref : Option String) (sources : List IrSource) (j : Nat) : List IrSource :=
  match devices[j]? with
  | some device =>
    if nodeHasIrFormat pref device then sources else sources.set j (heuristicIrSource device)
  | none => sources

variable (quirks : Option QuirksDb) (usbIds : List (Option (String × String)))

/-- The body of the loop for a node found by a quirk, with USB ids that were
not seen before. -/
def demoteGroup
    (sources : List IrSource) (device : DeviceInfo) (ids : String × String) : List IrSource :=
  let group := siblingGroup devices.length usbIds sources ids
  if group.length < 2 then sources
  else
    let pref := (quirks.bind fun db => db.findMatchWithIds toLowercase device (some ids)).bind
      Quirk.formatPreference
    if group.any fun j => devices[j]?.any (nodeHasIrFormat pref) then
      group.foldl (demote devices pref) sources
    else sources

/-- One turn of the loop over the nodes. -/
def disambiguate (state : Siblings) (i : Nat) : Option Siblings :=
  match state.sources[i]?, devices[i]? with
  | some source, some device =>
    if source ≠ .quirk then some state
    else
      match usbIds[i]? with
      | some (some ids) =>
        if state.seen.contains ids then some state
        else some
          { sources := demoteGroup toLowercase devices quirks usbIds state.sources device ids
            seen := state.seen ++ [ids] }
      | some none => some state
      | none => none
  | _, _ => none

variable (platform : List (Option PlatformIdentity))

/-- The verdict of each node for itself. -/
def nodeSources : List IrSource :=
  ((devices.zip usbIds).zip platform).map fun ((device, ids), id) =>
    irSourceWithQuirksAndIdentity toLowercase device quirks ids id

def classifyIrSourcesWithIdentity : Option (List IrSource) :=
  ((range devices.length).foldlM (disambiguate toLowercase devices quirks usbIds)
    { sources := nodeSources toLowercase devices quirks usbIds platform
      seen := [] }).map Siblings.sources

/-! ## The first pass -/

variable {device : DeviceInfo}

theorem hasMonoOnlyFormats_eq_true : hasMonoOnlyFormats device = true ↔ device.formats ≠ [] ∧
      ∀ format ∈ device.formats, isIrTypicalFourcc format.fourcc = true := by
  simp [hasMonoOnlyFormats]

theorem heuristicIrSource_ne_none (h : heuristicIrSource device ≠ .none) :
    hasMonoOnlyFormats device = true := by
  by_contra hmono
  apply h
  simp [heuristicIrSource, hasQueriedIrEvidence, hmono]

/-- What stands behind a verdict other than `none`. -/
theorem irSourceWithQuirksAndIdentity_cases {toLowercase quirks usbIds platform}
    (h : irSourceWithQuirksAndIdentity toLowercase device quirks usbIds platform ≠ .none) :
    hasMonoOnlyFormats device = true ∨
      ∃ db quirk kind, quirks = some db ∧ quirk ∈ db.quirks ∧ quirk.forceIr = some true ∧
        QuirkMatchKind.Shares toLowercase device usbIds platform quirk kind ∧
        corroborated device usbIds kind = true := by
  unfold irSourceWithQuirksAndIdentity at h
  split at h
  · rename_i quirk kind hmatch
    obtain ⟨db, hdb, hfind⟩ := Option.bind_eq_some_iff.mp hmatch
    obtain ⟨hmem, hshares⟩ := QuirksDb.findMatchWithKind_eq_some hfind
    split at h
    · exact absurd rfl h
    · rename_i hforce
      split at h
      · rename_i htrust
        exact .inr ⟨db, quirk, kind, hdb, hmem, hforce, hshares, htrust⟩
      · exact .inl (heuristicIrSource_ne_none h)
    · exact .inl (heuristicIrSource_ne_none h)
  · exact .inl (heuristicIrSource_ne_none h)

theorem length_nodeSources : (nodeSources toLowercase devices quirks usbIds platform).length =
      min (min devices.length usbIds.length) platform.length := by
  simp [nodeSources]

variable {i : Nat}

theorem nodeSources_getElem? {toLowercase devices quirks usbIds platform ids id}
    (hdevice : devices[i]? = some device) (hids : usbIds[i]? = some ids)
    (hid : platform[i]? = some id) :
    (nodeSources toLowercase devices quirks usbIds platform)[i]? =
      some (irSourceWithQuirksAndIdentity toLowercase device quirks ids id) := by
  have hfirst : (devices.zip usbIds)[i]? = some (device, ids) :=
    getElem?_zip_eq_some.mpr ⟨hdevice, hids⟩
  have hall : ((devices.zip usbIds).zip platform)[i]? = some ((device, ids), id) :=
    getElem?_zip_eq_some.mpr ⟨hfirst, hid⟩
  rw [nodeSources, getElem?_map, hall]
  rfl

/-! ## The second pass -/

theorem demote_getElem?_ne (pref : Option String) (sources : List IrSource) {j} (h : j ≠ i) :
    (demote devices pref sources j)[i]? = sources[i]? := by
  unfold demote
  split
  · split
    · rfl
    · exact getElem?_set_ne h
  · rfl

theorem foldl_demote_keeps (pref : Option String) (group : List Nat)
    (sources : List IrSource) (hi : i ∉ group) :
    (group.foldl (demote devices pref) sources)[i]? = sources[i]? := by
  induction group generalizing sources with
  | nil => rfl
  | cons j group ih =>
    rw [mem_cons, not_or] at hi
    rw [foldl_cons, ih _ hi.2, demote_getElem?_ne devices pref sources (Ne.symm hi.1)]

theorem demoteGroup_keeps (sources : List IrSource)
    (device : DeviceInfo) (ids : String × String) (hi : usbIds[i]? ≠ some (some ids)) :
    (demoteGroup toLowercase devices quirks usbIds sources device ids)[i]? = sources[i]? := by
  unfold demoteGroup
  dsimp only
  split
  · rfl
  · split
    · apply foldl_demote_keeps
      intro hmem
      rw [siblingGroup, mem_filter, Bool.and_eq_true] at hmem
      exact hi (eq_of_beq hmem.2.2)
    · rfl

section Pass

variable {toLowercase : List Char → List Char} {devices : List DeviceInfo}
  {quirks : Option QuirksDb} {usbIds : List (Option (String × String))}

theorem disambiguate_keeps {state state'} {k : Nat}
    (h : disambiguate toLowercase devices quirks usbIds state i = some state')
    (hk : usbIds[k]? = some none) : state'.sources[k]? = state.sources[k]? := by
  unfold disambiguate at h
  split at h
  · split at h
    · cases h
      rfl
    · split at h
      · split at h
        · cases h
          rfl
        · cases h
          apply demoteGroup_keeps
          rw [hk]
          simp
      · cases h
        rfl
      · cases h
  · cases h

theorem foldlM_disambiguate_keeps {state final} {nodes : List Nat}
    (h : nodes.foldlM (disambiguate toLowercase devices quirks usbIds) state = some final) :
    ∀ k : Nat, usbIds[k]? = some none → final.sources[k]? = state.sources[k]? := by
  induction nodes generalizing state with
  | nil =>
    cases h
    exact fun _ _ => rfl
  | cons i nodes ih =>
    obtain ⟨next, hnext, hrest⟩ := Option.bind_eq_some_iff.mp h
    intro k hk
    rw [ih hrest k hk, disambiguate_keeps hnext hk]

end Pass

/-! ## Nodes without USB ids -/

/-- A node without USB ids is infrared by formats that are all infrared, or
by an entry that names its platform identity.  So a virtual colour device
is not, under any name. -/
theorem classify_without_usbIds {toLowercase : List Char → List Char}
    {devices : List DeviceInfo} {quirks : Option QuirksDb}
    {usbIds : List (Option (String × String))} {platform : List (Option PlatformIdentity)}
    {sources : List IrSource}
    (h : classifyIrSourcesWithIdentity toLowercase devices quirks usbIds platform = some sources)
    {i : Nat} {device : DeviceInfo} {identity : Option PlatformIdentity} {verdict : IrSource}
    (hdevice : devices[i]? = some device) (hids : usbIds[i]? = some none)
    (hidentity : platform[i]? = some identity) (hverdict : sources[i]? = some verdict) :
    (verdict ≠ .none →
      (device.formats ≠ [] ∧
        ∀ format ∈ device.formats, isIrTypicalFourcc format.fourcc = true) ∨
      ∃ db quirk id, quirks = some db ∧ quirk ∈ db.quirks ∧ quirk.forceIr = some true ∧
        identity = some id ∧ quirk.modalias = some id.modalias ∧
        quirk.nodeName = some id.nodeName) ∧
    (identity = none → hasMonoOnlyFormats device = false → verdict = .none) := by
  obtain ⟨final, hfinal, rfl⟩ := Option.map_eq_some_iff.mp h
  rw [foldlM_disambiguate_keeps hfinal i hids,
    nodeSources_getElem? hdevice hids hidentity] at hverdict
  cases hverdict
  have hcases : irSourceWithQuirksAndIdentity toLowercase device quirks none identity ≠ .none →
      hasMonoOnlyFormats device = true ∨
      ∃ db quirk id, quirks = some db ∧ quirk ∈ db.quirks ∧ quirk.forceIr = some true ∧
        identity = some id ∧ quirk.modalias = some id.modalias ∧
        quirk.nodeName = some id.nodeName := by
    intro hne
    rcases irSourceWithQuirksAndIdentity_cases hne with
      hmono | ⟨db, quirk, kind, hdb, hmem, hforce, hshares, htrust⟩
    · exact .inl hmono
    · cases kind with
      | usbId =>
        obtain ⟨ids, hnone, -⟩ := hshares
        cases hnone
      | platformId =>
        obtain ⟨id, hid, hmodalias, hnode⟩ := hshares
        exact .inr ⟨db, quirk, id, hdb, hmem, hforce, hid, hmodalias, hnode⟩
      | nameOnly => exact .inl htrust
  refine ⟨fun hne => (hcases hne).imp_left hasMonoOnlyFormats_eq_true.mp,
    fun hvirtual hcolour => ?_⟩
  by_contra hne
  rcases hcases hne with hmono | ⟨-, -, id, -, -, -, hid, -⟩
  · rw [hcolour] at hmono
    cases hmono
  · rw [hvirtual] at hid
    cases hid

/-- A loopback device with a telling name, and a node of a sensor card. -/
theorem classify_without_usbIds_card : let colour (path name : String) : DeviceInfo :=
      { path := path, name := name, driver := "", capabilities := []
        formats := [{ fourcc := "YUYV", description := "", sizes := [] },
          { fourcc := "GREY", description := "", sizes := [] }] }
    let devices := [colour "/dev/video0" "Integrated IR Camera",
      colour "/dev/video1" "Intel IPU6 ISYS Capture 0"]
    let card : PlatformIdentity :=
      { modalias := "auxiliary:intel_ipu6.isys", nodeName := "Intel IPU6 ISYS Capture 0" }
    let db : QuirksDb :=
      { quirks := [{ modalias := some card.modalias, nodeName := some card.nodeName
                     forceIr := some true },
          { namePattern := some "(?i).*ir camera.*", forceIr := some true }] }
    classifyIrSourcesWithIdentity (map Char.toLower) devices (some db) [none, none]
        [none, some card] = some [.none, .quirk] ∧
      ∃ quirk ∈ db.quirks, quirk.forceIr = some true ∧ quirk.modalias = some card.modalias ∧
        quirk.nodeName = some card.nodeName := by
  intro colour devices card db
  have h : classifyIrSourcesWithIdentity (map Char.toLower) devices (some db) [none, none]
      [none, some card] = some [.none, .quirk] := by decide +kernel
  refine ⟨h, ?_⟩
  have hnode := classify_without_usbIds h (i := 1) rfl rfl rfl rfl
  rcases hnode.1 (by decide) with ⟨-, hmono⟩ | ⟨_, quirk, id, hdb, hmem, hforce, hid, hkeys⟩
  · exact absurd (hmono _ mem_cons_self) (by decide +kernel)
  · cases hdb
    cases hid
    exact ⟨quirk, hmem, hforce, hkeys⟩

end Facelock.Camera
