import Facelock.Camera.Classify
import Mathlib.Data.List.OfFn
import Mathlib.Logic.Equiv.Defs

/-!
# Nodes of one device

What the second pass of the classification comes to.  The pass visits the
nodes in order, rewrites verdicts as it goes, and takes the preferred format
of a group from the first node of it.  None of this shows in the result
(`classify_ofFn`): a node keeps the verdict it got for itself, unless a quirk
found it, it has no infrared format, and a node with the same USB ids has one
and was found by a quirk as well (`siblingVerdict`).

The preferred format adds nothing, since a preference that counts is an
infrared format already (`nodeHasIrFormat_eq`).  The invariant of the pass is
`Passed`: the groups that were seen are settled, and the others are as the
first pass left them.

It follows that the order of the nodes does not matter.  It also follows
that a group is formed by quirks only.  An entry that names the colour node
of a device and not its infrared node leaves the colour node alone in its
group.
-/

namespace Facelock.Camera

open List

/-- An infrared format that a quirk prefers is infrared without the quirk. -/
theorem nodeHasIrFormat_eq (pref : Option String) (device : DeviceInfo) :
    nodeHasIrFormat pref device = hasNativeIrFormat device := by
  unfold nodeHasIrFormat
  cases hnative : hasNativeIrFormat device with
  | true => rfl
  | false =>
    rw [Bool.false_or, Bool.eq_false_iff]
    intro hpref
    obtain ⟨p, -, hp⟩ := (Option.any_eq_true _ _).mp hpref
    obtain ⟨htypical, hany⟩ := Bool.and_eq_true_iff.mp hp
    obtain ⟨format, hmem, heq⟩ := any_eq_true.mp hany
    have hformat : isIrTypicalFourcc format.fourcc = true := by
      rw [isIrTypicalFourcc, eq_of_beq heq]
      exact htypical
    exact absurd hnative (by simpa [hasNativeIrFormat] using ⟨format, hmem, hformat⟩)

/-! ## One group -/

/-- What is left of a verdict in a group with an infrared format. -/
def demoted (device : DeviceInfo) (source : IrSource) : IrSource :=
  if hasNativeIrFormat device then source else heuristicIrSource device

section Group

variable {n : Nat} (devices : Fin n → DeviceInfo) (usbIds : Fin n → Option (String × String))

section

variable (ids : String × String) (current : Fin n → IrSource)

/-- A node with these ids is found by a quirk and has an infrared format. -/
def Told : Prop :=
  ∃ k, current k = .quirk ∧ usbIds k = some ids ∧ hasNativeIrFormat (devices k) = true

instance : Decidable (Told devices usbIds ids current) :=
  inferInstanceAs (Decidable (∃ _, _))

/-- The verdicts after a group was looked at. -/
def settle (i : Fin n) : IrSource :=
  if current i = .quirk ∧ usbIds i = some ids ∧ Told devices usbIds ids current then
    demoted (devices i) (current i)
  else current i

end

variable {devices usbIds} {current : Fin n → IrSource} {ids : String × String}

theorem demote_ofFn (pref : Option String) (j : Fin n) :
    demote (ofFn devices) pref (ofFn current) j =
      ofFn (Function.update current j (demoted (devices j) (current j))) := by
  unfold demote demoted
  rw [List.getElem?_ofFn, dif_pos j.isLt]
  simp only [nodeHasIrFormat_eq]
  split
  · rw [Function.update_eq_self]
  · apply ext_getElem?
    intro i
    by_cases hij : j.val = i
    · subst hij
      simp
    · rw [getElem?_set_ne hij, List.getElem?_ofFn, List.getElem?_ofFn]
      split
      next hi => rw [Function.update_of_ne fun heq => hij (congrArg Fin.val heq).symm]
      next => rfl

theorem foldl_demote_ofFn (pref : Option String) (group : List (Fin n)) (hnodup : group.Nodup) :
    (group.map Fin.val).foldl (demote (ofFn devices) pref) (ofFn current) =
      ofFn fun i => if i ∈ group then demoted (devices i) (current i) else current i := by
  induction group generalizing current with
  | nil => rfl
  | cons j group ih =>
    obtain ⟨hj, hnodup⟩ := nodup_cons.mp hnodup
    rw [map_cons, foldl_cons, demote_ofFn, ih hnodup]
    congr 1
    funext i
    by_cases hij : i = j
    · subst hij
      rw [if_neg hj, if_pos mem_cons_self, Function.update_self]
    · simp only [Function.update_of_ne hij, mem_cons, hij, false_or]

theorem siblingGroup_ofFn :
    siblingGroup (ofFn devices).length (ofFn usbIds) (ofFn current) ids =
      ((finRange n).filter fun k =>
        decide (current k = .quirk ∧ usbIds k = some ids)).map Fin.val := by
  unfold siblingGroup
  rw [length_ofFn, ← map_coe_finRange_eq_range, filter_map]
  congr 1
  apply filter_congr
  intro k _
  simp [Bool.beq_eq_decide_eq]

theorem demoteGroup_ofFn (toLowercase : List Char → List Char) (quirks : Option QuirksDb)
    (device : DeviceInfo) :
    demoteGroup toLowercase (ofFn devices) quirks (ofFn usbIds) (ofFn current)
      device ids = ofFn (settle devices usbIds ids current) := by
  unfold demoteGroup
  dsimp only
  rw [siblingGroup_ofFn]
  generalize hdef : (finRange n).filter (fun k =>
    decide (current k = .quirk ∧ usbIds k = some ids)) = group
  have hmem : ∀ k, k ∈ group ↔ current k = .quirk ∧ usbIds k = some ids := by
    intro k
    simp [← hdef]
  by_cases htold : Told devices usbIds ids current
  · have hsettle : ∀ i, settle devices usbIds ids current i =
        if i ∈ group then demoted (devices i) (current i) else current i := by
      intro i
      simp [settle, hmem, htold, and_true]
    obtain ⟨k, hquirk, hids, hnative⟩ := htold
    have hk : k ∈ group := (hmem k).mpr ⟨hquirk, hids⟩
    split
    next hlone =>
      -- The one node of the group has the format and keeps its verdict.
      have hall : ∀ i ∈ group, i = k := by
        obtain ⟨other, hone⟩ := length_eq_one_iff.mp
          (Nat.le_antisymm (by simpa using Nat.le_of_lt_succ hlone) (length_pos_of_mem hk))
        intro i hi
        rw [hone, mem_singleton] at hi hk
        exact hi.trans hk.symm
      congr 1
      funext i
      rw [hsettle]
      split
      next hi => rw [hall i hi, demoted, if_pos hnative]
      next => rfl
    next =>
      rw [if_pos (by simpa [nodeHasIrFormat_eq] using ⟨k, hk, hnative⟩),
        foldl_demote_ofFn _ _ (hdef ▸ (nodup_finRange n).filter _)]
      congr 1
      funext i
      rw [hsettle]
  · have hsettle : settle devices usbIds ids current = current := by
      funext i
      simp [settle, htold]
    rw [hsettle]
    split
    next => rfl
    next =>
      refine if_neg fun hany => htold ?_
      obtain ⟨k, hk, hnative⟩ : ∃ k ∈ group, hasNativeIrFormat (devices k) = true := by
        simpa [nodeHasIrFormat_eq] using hany
      exact ⟨k, ((hmem k).mp hk).1, ((hmem k).mp hk).2, hnative⟩

/-! ## The pass -/

/-- The verdicts once the groups with the given ids were looked at. -/
def Passed (devices : Fin n → DeviceInfo) (usbIds : Fin n → Option (String × String))
    (own : Fin n → IrSource) (seen : List (String × String)) (i : Fin n) : IrSource :=
  if own i = .quirk ∧ ∃ ids ∈ seen, usbIds i = some ids ∧ Told devices usbIds ids own then
    demoted (devices i) (own i)
  else own i

variable {own : Fin n → IrSource} {seen : List (String × String)}

theorem passed_of_not_mem (hseen : ids ∉ seen) {k} (hk : usbIds k = some ids) :
    Passed devices usbIds own seen k = own k := by
  refine if_neg ?_
  rintro ⟨-, other, hother, heq, -⟩
  obtain rfl := Option.some.inj (hk.symm.trans heq)
  exact hseen hother

theorem settle_passed (hseen : ids ∉ seen) :
    settle devices usbIds ids (Passed devices usbIds own seen) =
      Passed devices usbIds own (seen ++ [ids]) := by
  have htold : Told devices usbIds ids (Passed devices usbIds own seen) ↔
      Told devices usbIds ids own := by
    refine exists_congr fun k => ?_
    constructor
    · rintro ⟨hquirk, hk, hnative⟩
      exact ⟨(passed_of_not_mem hseen hk).symm.trans hquirk, hk, hnative⟩
    · rintro ⟨hquirk, hk, hnative⟩
      exact ⟨(passed_of_not_mem hseen hk).trans hquirk, hk, hnative⟩
  funext i
  unfold settle
  by_cases hi : usbIds i = some ids
  · rw [passed_of_not_mem hseen hi]
    simp [Passed, hi, htold, hseen]
  · have hother : Passed devices usbIds own (seen ++ [ids]) i =
        Passed devices usbIds own seen i := by
      refine if_congr (and_congr_right fun _ => exists_congr fun other => ?_) rfl rfl
      rw [mem_append, mem_singleton, or_and_right]
      refine or_iff_left ?_
      rintro ⟨rfl, heq, -⟩
      exact hi heq
    rw [if_neg fun h => hi h.2.1, hother]

variable (devices usbIds own seen)

/-- One turn of the loop: it is another group, or nothing. -/
theorem disambiguate_passed (toLowercase : List Char → List Char) (quirks : Option QuirksDb)
    (i : Fin n) :
    ∃ more, disambiguate toLowercase (ofFn devices) quirks (ofFn usbIds)
        { sources := ofFn (Passed devices usbIds own seen), seen } i =
      some { sources := ofFn (Passed devices usbIds own (seen ++ more))
             seen := seen ++ more } ∧
    ∀ ids, own i = .quirk → usbIds i = some ids → ids ∈ seen ++ more := by
  unfold disambiguate
  simp only [List.getElem?_ofFn, i.isLt, dite_true]
  cases hids : usbIds i with
  | none => exact ⟨[], by simp, by simp⟩
  | some ids =>
    by_cases hseen : ids ∈ seen
    · exact ⟨[], by simp [hseen], by simp [hseen]⟩
    · rw [passed_of_not_mem hseen hids]
      by_cases hquirk : own i = .quirk
      · refine ⟨[ids], ?_, by simp⟩
        simp [hquirk, hseen, demoteGroup_ofFn, settle_passed hseen]
      · exact ⟨[], by simp [hquirk], fun _ heq => absurd heq hquirk⟩

theorem foldlM_disambiguate_passed (toLowercase : List Char → List Char)
    (quirks : Option QuirksDb) (nodes : List (Fin n)) :
    ∃ all, (nodes.map Fin.val).foldlM
        (disambiguate toLowercase (ofFn devices) quirks (ofFn usbIds))
        { sources := ofFn (Passed devices usbIds own seen), seen } =
      some { sources := ofFn (Passed devices usbIds own all), seen := all } ∧ seen ⊆ all ∧
    ∀ i ∈ nodes, ∀ ids, own i = .quirk → usbIds i = some ids → ids ∈ all := by
  induction nodes generalizing seen with
  | nil => exact ⟨seen, rfl, fun _ h => h, by simp⟩
  | cons i nodes ih =>
    obtain ⟨more, hturn, hmore⟩ := disambiguate_passed devices usbIds own seen toLowercase quirks i
    obtain ⟨all, hrest, hsubset, hall⟩ := ih (seen ++ more)
    refine ⟨all, ?_, fun ids hids => hsubset (mem_append_left _ hids), ?_⟩
    · rw [map_cons, foldlM_cons, hturn]
      exact hrest
    · intro j hj ids hquirk hids
      rcases mem_cons.mp hj with rfl | hj
      · exact hsubset (hmore ids hquirk hids)
      · exact hall j hj ids hquirk hids

end Group

/-! ## Colour nodes -/

theorem heuristicIrSource_of_colour {device}
    (h : hasNativeIrFormat device = false) : heuristicIrSource device = .none := by
  by_contra hne
  obtain ⟨hsome, hall⟩ := hasMonoOnlyFormats_eq_true.mp (heuristicIrSource_ne_none hne)
  obtain ⟨format, hmem⟩ := exists_mem_of_ne_nil _ hsome
  have hnative : hasNativeIrFormat device = true :=
    any_eq_true.mpr ⟨format, hmem, hall format hmem⟩
  rw [h] at hnative
  cases hnative

/-- Only a quirk makes a colour node infrared. -/
theorem irSourceWithQuirksAndIdentity_of_colour (toLowercase : List Char → List Char) {device}
    (h : hasNativeIrFormat device = false) (quirks : Option QuirksDb)
    (usbIds : Option (String × String)) (platform : Option PlatformIdentity) :
    irSourceWithQuirksAndIdentity toLowercase device quirks usbIds platform = .quirk ∨
      irSourceWithQuirksAndIdentity toLowercase device quirks usbIds platform = .none := by
  have hcolour := heuristicIrSource_of_colour h
  unfold irSourceWithQuirksAndIdentity
  split
  · split
    · exact .inr rfl
    · split
      · exact .inl rfl
      · exact .inr hcolour
    · exact .inr hcolour
  · exact .inr hcolour

/-! ## The classification -/

section Classification

variable {n : Nat} (toLowercase : List Char → List Char) (quirks : Option QuirksDb)
  (devices : Fin n → DeviceInfo) (usbIds : Fin n → Option (String × String))
  (platform : Fin n → Option PlatformIdentity)

def ownVerdict (i : Fin n) : IrSource :=
  irSourceWithQuirksAndIdentity toLowercase (devices i) quirks (usbIds i) (platform i)

/-- The verdict of a node among its siblings. -/
def siblingVerdict (own : Fin n → IrSource) (i : Fin n) : IrSource :=
  if own i = .quirk ∧ ∃ ids, usbIds i = some ids ∧ Told devices usbIds ids own then
    demoted (devices i) (own i)
  else own i

theorem classify_ofFn :
    classifyIrSourcesWithIdentity toLowercase (ofFn devices) quirks (ofFn usbIds)
        (ofFn platform) =
      some (ofFn (siblingVerdict devices usbIds
        (ownVerdict toLowercase quirks devices usbIds platform))) := by
  set own := ownVerdict toLowercase quirks devices usbIds platform with hown
  have hfirst : nodeSources toLowercase (ofFn devices) quirks (ofFn usbIds)
      (ofFn platform) = ofFn (Passed devices usbIds own []) := by
    apply ext_getElem?
    intro i
    by_cases hi : i < n
    · have hnode {α : Type} (f : Fin n → α) : (ofFn f)[i]? = some (f ⟨i, hi⟩) := by
        simp [hi]
      rw [nodeSources_getElem? (hnode devices) (hnode usbIds) (hnode platform)]
      simp [Passed, hi, hown, ownVerdict]
    · rw [getElem?_eq_none (by simpa [length_nodeSources] using hi),
        getElem?_eq_none (by simpa using hi)]
  obtain ⟨all, hpass, -, hall⟩ :=
    foldlM_disambiguate_passed devices usbIds own [] toLowercase quirks (finRange n)
  rw [classifyIrSourcesWithIdentity, hfirst, length_ofFn, ← map_coe_finRange_eq_range,
    hpass, Option.map_some]
  refine congrArg some (congrArg ofFn (funext fun i => ?_))
  refine if_congr (and_congr_right fun hquirk => exists_congr fun ids => ?_) rfl rfl
  refine and_iff_right_of_imp fun h => ?_
  exact hall i (mem_finRange i) ids hquirk h.1

/-- Classifying a permuted list gives the permuted verdicts. -/
theorem classify_permuted (order : Equiv.Perm (Fin n)) : ∃ verdicts : Fin n → IrSource,
      classifyIrSourcesWithIdentity toLowercase (ofFn devices) quirks (ofFn usbIds)
          (ofFn platform) = some (ofFn verdicts) ∧
        classifyIrSourcesWithIdentity toLowercase (ofFn (devices ∘ order)) quirks
            (ofFn (usbIds ∘ order)) (ofFn (platform ∘ order)) =
          some (ofFn (verdicts ∘ order)) := by
  refine ⟨_, classify_ofFn toLowercase quirks devices usbIds platform, ?_⟩
  rw [classify_ofFn]
  congr 2
  funext i
  refine if_congr (and_congr_right fun _ => exists_congr fun ids => and_congr_right fun _ => ?_)
    rfl rfl
  exact (order.surjective.exists (p := fun k =>
    ownVerdict toLowercase quirks devices usbIds platform k = .quirk ∧ usbIds k = some ids ∧
      hasNativeIrFormat (devices k) = true)).symm

/-- A colour node is not infrared, exactly if no quirk says so of it, or a
quirk says so of a sibling with an infrared format. -/
theorem colour_sibling_iff {ids : String × String} {j : Fin n} (hj : usbIds j = some ids)
    (hcolour : hasNativeIrFormat (devices j) = false) :
    ∃ verdicts : Fin n → IrSource,
      classifyIrSourcesWithIdentity toLowercase (ofFn devices) quirks (ofFn usbIds)
          (ofFn platform) = some (ofFn verdicts) ∧
        (verdicts j = .none ↔
          (ownVerdict toLowercase quirks devices usbIds platform j = .quirk →
            ∃ i, ownVerdict toLowercase quirks devices usbIds platform i = .quirk ∧
              usbIds i = some ids ∧ hasNativeIrFormat (devices i) = true)) := by
  refine ⟨_, classify_ofFn toLowercase quirks devices usbIds platform, ?_⟩
  unfold siblingVerdict
  rcases irSourceWithQuirksAndIdentity_of_colour toLowercase hcolour quirks (usbIds j)
    (platform j) with hown | hown
  · have hdemoted : demoted (devices j) .quirk = .none := by
      rw [demoted, hcolour, if_neg Bool.false_ne_true, heuristicIrSource_of_colour hcolour]
    have hown : ownVerdict toLowercase quirks devices usbIds platform j = .quirk := hown
    simp [hown, hj, hdemoted, Told]
  · have hown : ownVerdict toLowercase quirks devices usbIds platform j = .none := hown
    simp [hown]

end Classification

theorem exists_eq_ofFn {α : Type} {n} (items : List α) (h : items.length = n) :
    ∃ f : Fin n → α, items = ofFn f := by
  subst h
  exact ⟨items.get, (ofFn_get items).symm⟩

/-- With slices of one length no index is out of range. -/
theorem classifyIrSourcesWithIdentity_isSome (toLowercase : List Char → List Char)
    (devices : List DeviceInfo) (quirks : Option QuirksDb)
    (usbIds : List (Option (String × String))) (platform : List (Option PlatformIdentity))
    (husb : usbIds.length = devices.length) (hplatform : platform.length = devices.length) :
    (classifyIrSourcesWithIdentity toLowercase devices quirks usbIds platform).isSome = true := by
  generalize hlength : devices.length = n at husb hplatform
  obtain ⟨nodes, rfl⟩ := exists_eq_ofFn devices hlength
  obtain ⟨ids, rfl⟩ := exists_eq_ofFn usbIds husb
  obtain ⟨identities, rfl⟩ := exists_eq_ofFn platform hplatform
  rw [classify_ofFn]
  rfl

/-! ## A device with two nodes -/

def twoNodes : Fin 2 → DeviceInfo
  | 0 => { path := "/dev/video2", name := "Laptop Sensor", driver := "", capabilities := []
           formats := [{ fourcc := "GREY", description := "", sizes := [] }] }
  | 1 => { path := "/dev/video0", name := "Laptop IR Camera", driver := "", capabilities := []
           formats := [{ fourcc := "YUYV", description := "", sizes := [] }] }

/-- Both nodes have the ids of one device. -/
def twoNodesIds : Fin 2 → Option (String × String) := fun _ => some ("046d", "085e")

/-- An entry for the USB device finds both nodes. -/
theorem colour_sibling_iff_device : let db : QuirksDb :=
      { quirks := [{ vendorId := some "046d", productId := some "085e", forceIr := some true }] }
    ∃ verdicts : Fin 2 → IrSource,
      classifyIrSourcesWithIdentity (map Char.toLower) (ofFn twoNodes) (some db)
          (ofFn twoNodesIds) (ofFn fun _ : Fin 2 => none) =
        some (ofFn verdicts) ∧ verdicts 1 = .none := by
  intro db
  obtain ⟨verdicts, hclassify, hcolour⟩ := colour_sibling_iff (map Char.toLower) (some db)
    twoNodes twoNodesIds (fun _ => none) (j := 1) rfl (by decide +kernel)
  exact ⟨verdicts, hclassify, hcolour.mpr fun _ => ⟨0, by decide +kernel⟩⟩

/-- An entry that finds the colour node by its name leaves it infrared beside
its sibling. -/
theorem colour_sibling_named :
    hasNativeIrFormat (twoNodes 0) = true ∧ hasNativeIrFormat (twoNodes 1) = false ∧
      classifyIrSourcesWithIdentity (map Char.toLower) (ofFn twoNodes)
          (some { quirks := [{ namePattern := some "(?i).*ir camera.*", forceIr := some true }] })
          (ofFn twoNodesIds) (ofFn fun _ : Fin 2 => none) =
        some [.format, .quirk] := by
  decide +kernel

end Facelock.Camera
