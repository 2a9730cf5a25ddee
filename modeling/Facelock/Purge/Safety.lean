import Facelock.Purge.Trace

/-!
# A pass among other processes

The invariant of `Purge.Trace` holds along every pass, whatever other
processes do between its calls, whichever calls fail and whatever the
directory streams list.

`Running` is what holds between two iterations of the traversal.  Every
directory on the stack was inspected and opened under its name and is still
held open, and none of them lies below the PAM rollback path once that was
found with an entry.  `ensures_iteration` is the step lemma,
`ensures_traverse` the run lemma.
-/

namespace Facelock.Purge

open Interference List

/-- What a whole step of the pass leaves of the state before it.  `pam` says
whether it may have found PAM rollback state. -/
structure Onward (pam : Prop) (a b : Machine) : Prop where
  next : a.fs.next ≤ b.fs.next
  attributes : ∀ node < a.fs.next, b.fs.attributes node = a.fs.attributes node
  trace : ∀ event ∈ a.trace, event ∈ b.trace
  rollback : RollbackFound b.trace → RollbackFound a.trace ∨ pam

/-- A step that has opened `nodes`. -/
structure Later (nodes : List Node) (pam : Prop) (a b : Machine) : Prop extends Onward pam a b where
  held : b.fs.held = nodes ++ a.fs.held

section

variable {S : Schedule Machine Errno Choice} {ctx : Ctx} {root : OpenedRoot}
  {nodes nodes' : List Node} {pam : Prop} {events : List Event}
  {touched : List (Node × Name)} {a b c : Machine}

theorem rollbackFound_append {trace} :
    RollbackFound (trace ++ events) ↔ RollbackFound trace ∨ RollbackFound events := by
  simp [RollbackFound, mem_append, exists_or]

theorem Since.later (hab : Since nodes events touched a b) (hpam : RollbackFound events → pam) :
    Later nodes pam a b where
  held := hab.held
  next := hab.next
  attributes := hab.attributes
  trace _ := hab.mem_trace
  rollback h := by
    rw [hab.trace, rollbackFound_append] at h
    exact h.imp_right hpam

theorem Safe.idle (hsafe : Safe ctx a) (hab : Since [] [] [] a b) : Safe ctx b ∧ Later [] pam a b :=
  ⟨hsafe.since hab (by simp), hab.later (by simp [RollbackFound])⟩

theorem Later.mono {pam' : Prop} (hab : Later nodes pam a b) (h : pam → pam') :
    Later nodes pam' a b :=
  { hab with rollback := fun hfound => (hab.rollback hfound).imp_right h }

theorem Later.trans (hab : Later nodes pam a b) (hbc : Later nodes' pam b c) :
    Later (nodes' ++ nodes) pam a c where
  held := by rw [hbc.held, hab.held, append_assoc]
  next := Nat.le_trans hab.next hbc.next
  attributes node hnode :=
    (hbc.attributes node (Nat.lt_of_lt_of_le hnode hab.next)).trans (hab.attributes node hnode)
  trace event h := hbc.trace event (hab.trace event h)
  rollback h := (hbc.rollback h).elim hab.rollback .inr

variable {node : Node}

theorem Onward.lt_next (hab : Onward pam a b) (hnode : node < a.fs.next) : node < b.fs.next :=
  Nat.lt_of_lt_of_le hnode hab.next

theorem Onward.numbered {dev ino mount} (hab : Onward pam a b)
    (hnode : Numbered a.fs node dev ino mount) : Numbered b.fs node dev ino mount :=
  hnode.mono hab.next hab.attributes

theorem Pinned.onward (h : Pinned root a.fs) (hab : Onward pam a b)
    (hheld : root.root ∈ b.fs.held) : Pinned root b.fs :=
  h.mono hab.next hab.attributes hheld

theorem Inside.onward (h : Inside root a) (hab : Onward pam a b) (hheld : root.root ∈ b.fs.held) :
    Inside root b :=
  ⟨h.pinned.onward hab hheld, hab.trace _ h.entered, h.logical⟩

theorem Inside.later (h : Inside root a) (hab : Later nodes pam a b) : Inside root b := by
  refine h.onward hab.toOnward ?_
  rw [hab.held]
  exact mem_append_right _ h.pinned.held

variable {logical : Path} {name : Name} {before : Stat}

theorem Target.onward {kind dir opened} (h : Target ctx root kind logical dir name opened before a)
    (hab : Onward pam a b) (hpam : pam → ¬ pamBackupsLogical <+: logical) :
    Target ctx root kind logical dir name opened before b where
  inspected := hab.trace _ h.inspected
  wasOpened := hab.trace _ h.wasOpened
  trusted := h.trusted
  below := h.below
  ne := h.ne
  rollback hfound := (hab.rollback hfound).elim h.rollback hpam
  number := hab.numbered h.number
  mount := by
    have hopened := hab.attributes opened h.number.lt_next
    exact ⟨by rw [hopened]; exact h.mount.dev, by rw [hopened]; exact h.mount.mount,
      h.mount.notMountpoint⟩

theorem Resolved.later {kind dir opened result}
    (h : Resolved ctx root kind logical dir name opened a result b) : Later [] False a b := by
  cases h with
  | untouched hab | deleted _ _ _ _ hab | restored _ _ _ hab | retained _ _ _ hab =>
    exact hab.later (by simp [RollbackFound])

/-! ## Regular files -/

theorem ensures_purgeOpened (hS : Polite S) {frame opened} (hsafe : Safe ctx a)
    (hinside : Inside root a)
    (hcandidate : Candidate ctx root .file logical frame.handle name opened before a)
    (hheld : opened ∈ a.fs.held) (hchain : ∀ link ∈ frame.pathChain, link.handle < a.fs.next) :
    Ensures S (Since [] [] [] a) (ctx.purgeOpened frame name logical before root opened)
      fun _ b => Safe ctx b ∧ Later [] False a b := by
  have hlt : opened < a.fs.next := Filesystem.lt_of_held hheld
  refine (ensures_fstat hS hlt).bind fun st hst => ?_
  split
  · exact ensures_refuse fun b hb _ => hsafe.idle hb
  · rename_i hany
    obtain ⟨seen, rfl, hsame⟩ := exists_of_not_any hany
    have hseen :=
      Stat.sameDirectoryIdentity_number (Stat.sameDirectoryIdentity_of_sameIdentity hsame)
    refine (ensures_openedOnRootMount hS hlt).bind fun mount hmount => ?_
    cases mount with
    | none => exact ensures_pure fun b hb => hsafe.idle hb
    | some id =>
      refine ensures_bind (ensures_lstatAt hS) fun current => ?_
      split
      · exact ensures_refuse fun b hb _ => hsafe.idle hb
      · refine (ensures_chainsAreCurrent hS hinside.pinned.base hinside.pinned.chain hchain).bind
          fun isCurrent _ => ?_
        cases isCurrent with
        | false => exact ensures_pure fun b hb => hsafe.idle hb
        | true =>
          have htarget : Target ctx root .file logical frame.handle name opened before a :=
            { hcandidate with
              number := numbered_of_seen hlt (hst seen rfl) hseen (hmount id rfl).mount
              mount := hmount id rfl }
          refine (ensures_quarantine_delete hS hinside.pinned hchain hheld
            htarget.number).weaken fun _ b hb => ?_
          exact ⟨hsafe.resolved hinside htarget hb, hb.later⟩

theorem Safe.close (h : Safe ctx b) (node : Node) : Safe ctx { b with fs := b.fs.close node } where
  deletions past rest logical kind dir qname other htrace := by
    obtain ⟨hq, hinspected, hbelow, hpoint, hrollback, hlt⟩ := h.deletions _ _ _ _ _ _ _ htrace
    exact ⟨hq, hinspected, hbelow, hpoint, hrollback, hlt⟩
  moves := h.moves
  rollback := h.rollback

theorem Later.close (hab : Later (node :: nodes) pam a b) :
    Later nodes pam a { b with fs := b.fs.close node } :=
  { hab with
    held := by
      show b.fs.held.erase node = _
      rw [hab.held, cons_append, erase_cons_head] }

theorem ensures_close_later :
    Ensures S (fun b => Safe ctx b ∧ Later (node :: nodes) pam a b) (close node)
      fun _ b => Safe ctx b ∧ Later nodes pam a b :=
  ensures_update fun _ hb => ⟨hb.1.close node, hb.2.close⟩

theorem ensures_closeHeld {opened more} :
    Ensures S (fun b => Safe ctx b ∧ b.fs.held = opened ++ more) (closeAll opened)
      fun _ b => Safe ctx b ∧ b.fs.held = more := by
  induction opened with
  | nil => exact ensures_pure fun _ hb => hb
  | cons node opened ih =>
    refine ensures_bind (ensures_update fun b hb => ?_) fun _ => ih
    refine ⟨hb.1.close node, ?_⟩
    show b.fs.held.erase node = _
    rw [hb.2, cons_append, erase_cons_head]

theorem ensures_purgeRegularEntry (hS : Polite S) {frame} (hsafe : Safe ctx a)
    (hinside : Inside root a) (hinspected : .inspected logical frame.handle name before ∈ a.trace)
    (hbelow : root.logical <+: logical) (hne : root.logical ≠ logical)
    (hrollback : RollbackFound a.trace → ¬ pamBackupsLogical <+: logical)
    (hchain : ∀ link ∈ frame.pathChain, link.handle < a.fs.next) :
    Ensures S (Since [] [] [] a) (ctx.purgeRegularEntry frame name logical before root)
      fun _ b => Safe ctx b ∧ Later [] False a b := by
  unfold Ctx.purgeRegularEntry
  split
  · exact ensures_refuse fun b hb _ => hsafe.idle hb
  · split
    · exact ensures_refuse fun b hb _ => hsafe.idle hb
    · rename_i htrusted
      refine ensures_bind (ensures_openFileAt hS) fun result => ?_
      cases result with
      | error e => exact ensures_refuse fun b hb _ => hsafe.idle hb
      | ok opened =>
        refine ensures_bind (ensures_record.strengthen fun b hb => hb.1) fun _ => ?_
        refine ensures_rebase fun c hac => ?_
        have hlater : Later [opened] False a c := hac.later (by simp [RollbackFound])
        have hcandidate : Candidate ctx root .file logical frame.handle name opened before c :=
          { inspected := hlater.trace _ hinspected
            wasOpened := by rw [hac.trace]; simp
            trusted := by simpa [Ctx.trusts] using htrusted
            below := hbelow
            ne := hne
            rollback := fun h => (hlater.rollback h).elim hrollback False.elim }
        have hheld : opened ∈ c.fs.held := by rw [hac.held]; exact mem_cons_self
        refine ensures_bind (ensures_purgeOpened hS (hsafe.since hac (by simp [Event.isPlain]))
          (hinside.later hlater) hcandidate hheld
          fun link hmem => hlater.lt_next (hchain link hmem)) fun removed => ?_
        refine ensures_bind (ensures_close_later.strengthen fun b hb =>
          ⟨hb.1, hlater.trans hb.2⟩) fun _ => ?_
        exact ensures_pure fun b hb => hb

/-! ## Directories -/

/-- A directory on the stack. -/
structure FrameSafe (ctx : Ctx) (root : OpenedRoot) (m : Machine) (frame : Frame) : Prop where
  place : ∀ dir name, frame.place = some (dir, name) →
    Target ctx root .directory frame.logical dir name frame.handle frame.before m
  below : root.logical <+: frame.logical
  rollback : RollbackFound m.trace → ¬ pamBackupsLogical <+: frame.logical
  chain : ∀ link ∈ frame.pathChain, link.handle < m.fs.next

theorem FrameSafe.onward {frame} (h : FrameSafe ctx root a frame) (hab : Onward pam a b)
    (hpam : pam → ¬ pamBackupsLogical <+: frame.logical) :
    FrameSafe ctx root b frame where
  place dir name hplace := (h.place dir name hplace).onward hab hpam
  below := h.below
  rollback hfound := (hab.rollback hfound).elim h.rollback hpam
  chain link hmem := hab.lt_next (h.chain link hmem)

variable {pending : List Name}

/-- The PAM rollback directory is read: with an entry its path is protected
from here on. -/
theorem ensures_inspectRollback (hS : Polite S) {handle} (hsafe : Safe ctx a) :
    Ensures S (Since [] [] [] a) (Ctx.inspectRollback handle pamBackupsLogical pending)
      fun result b => Safe ctx b ∧ match result with
        | none => Later [] True a b
        | some _ => Later [] False a b ∧ Since [] [] [] a b := by
  refine ensures_bind (ensures_nextEntry hS) fun result => ?_
  cases result with
  | error e =>
    exact ensures_refuse fun b hb _ => hsafe.idle hb
  | ok entry =>
    cases entry with
    | none =>
      refine ensures_bind (ensures_rewind hS) fun pending => ensures_pure fun b hb => ?_
      exact ⟨hsafe.since hb (by simp), hb.later (by simp [RollbackFound]), hb⟩
    | some entry =>
      refine ensures_bind ensures_record fun _ => ?_
      refine ensures_refuse fun b hab hprotected => ?_
      refine ⟨hsafe.extend hab ?_ ?_ ?_ fun _ => hprotected, hab.later (by simp)⟩
      · intro dir qname node hq hlink
        exact .inl ((hab.quarantined ⟨dir, qname, node⟩ hq (by simp)).mpr hlink)
      · simp [cons_eq_append_iff]
      · simp [cons_eq_append_iff]

theorem ensures_descendInto (hS : Polite S) {frame handle} (hsafe : Safe ctx a)
    (hcandidate : Candidate ctx root .directory logical frame.handle name handle before a)
    (hheld : handle ∈ a.fs.held) (hchain : ∀ link ∈ frame.pathChain, link.handle < a.fs.next) :
    Ensures S (Since [] [] [] a) (ctx.descendInto frame name logical before root handle)
      fun result b => Safe ctx b ∧ match result with
        | none => Later [] (logical = pamBackupsLogical) a b
        | some child => Later [] False a b ∧ FrameSafe ctx root b child ∧
          child.handle = handle ∧ child.logical = logical ∧ child.place.isSome := by
  have hlt : handle < a.fs.next := Filesystem.lt_of_held hheld
  refine (ensures_fstat hS hlt).bind fun st hst => ?_
  split
  · exact ensures_refuse fun b hb _ => hsafe.idle hb
  · rename_i hany
    obtain ⟨seen, rfl, hsame⟩ := exists_of_not_any hany
    have hseen := Stat.sameDirectoryIdentity_number hsame
    refine (ensures_openedOnRootMount hS hlt).bind fun mount hmount => ?_
    cases mount with
    | none => exact ensures_pure fun b hb => hsafe.idle hb
    | some id =>
      have htarget : Target ctx root .directory logical frame.handle name handle before a :=
        { hcandidate with
          number := numbered_of_seen hlt (hst seen rfl) hseen (hmount id rfl).mount
          mount := hmount id rfl }
      refine ensures_bind (ensures_openStream hS) fun listed => ?_
      cases listed with
      | error e =>
        exact ensures_refuse fun b hb _ => hsafe.idle hb
      | ok listed =>
        have hpending : Ensures S (Since [] [] [] a)
            (Ctx.pendingOf handle logical listed)
            fun result b => Safe ctx b ∧ match result with
              | none => Later [] (logical = pamBackupsLogical) a b
              | some _ => Later [] False a b := by
          unfold Ctx.pendingOf
          split
          · rename_i hpam
            subst hpam
            refine (ensures_inspectRollback hS hsafe).weaken fun result b hb => ⟨hb.1, ?_⟩
            cases result with
            | none => simpa using hb.2
            | some _ => exact hb.2.1
          · exact ensures_pure fun b hb => hsafe.idle hb
        refine ensures_bind hpending fun pending => ?_
        cases pending with
        | none => exact ensures_pure fun b hb => hb
        | some pending =>
          refine ensures_pure fun b hb => ⟨hb.1, hb.2, ?_, rfl, rfl, rfl⟩
          have htargetB := htarget.onward hb.2.toOnward False.elim
          refine ⟨?_, htarget.below, htargetB.rollback, ?_⟩
          · rintro dir name' hplace
            cases hplace
            exact htargetB
          · intro link hmem
            rcases mem_append.mp hmem with hmem | hmem
            · exact hb.2.lt_next (hchain link hmem)
            · obtain rfl := mem_singleton.mp hmem
              exact hb.2.lt_next hlt

/-- What the pass knows about a child that it is going to inspect. -/
structure ChildSafe (root : OpenedRoot) (a : Machine) (logical : Path) : Prop where
  below : root.logical <+: logical
  ne : root.logical ≠ logical
  rollback : RollbackFound a.trace → ¬ pamBackupsLogical <+: logical

/-- What is left of a child. -/
abbrev Processed (ctx : Ctx) (root : OpenedRoot) (logical : Path) (a : Machine)
    (outcome : ChildOutcome) (b : Machine) : Prop :=
  Safe ctx b ∧ match outcome with
    | .descend child => Later [child.handle] (logical = pamBackupsLogical) a b ∧
      FrameSafe ctx root b child ∧ child.logical = logical ∧ child.place.isSome
    | .abortRoot => False
    | _ => Later [] (logical = pamBackupsLogical) a b

theorem ensures_processChild (hS : Polite S) {frame} (hsafe : Safe ctx a) (hinside : Inside root a)
    (hchild : ChildSafe root a logical)
    (hchain : ∀ link ∈ frame.pathChain, link.handle < a.fs.next) :
    Ensures S (Since [] [] [] a) (ctx.processChild frame name logical root)
      (Processed ctx root logical a) := by
  refine ensures_bind (ensures_lstatAt hS) fun result => ?_
  cases result with
  | error e =>
    dsimp only
    split
    · exact ensures_pure fun b hb => hsafe.idle hb
    · exact ensures_refuse fun b hb _ => hsafe.idle hb
  | ok before =>
    refine ensures_bind ensures_record fun _ => ?_
    refine ensures_rebase fun c hac => ?_
    have hlater : Later [] False a c := hac.later (by simp [RollbackFound])
    have hsafeC : Safe ctx c := hsafe.since hac (by simp [Event.isPlain])
    have hinspected : .inspected logical frame.handle name before ∈ c.trace := by
      rw [hac.trace]
      simp
    have hweak : ∀ {nodes : List Node} {pam : Prop} {b : Machine}, Later nodes pam c b →
        (pam → logical = pamBackupsLogical) →
        Later nodes (logical = pamBackupsLogical) a b := by
      intro nodes pam b hcb hpam
      simpa using (hlater.mono False.elim).trans (hcb.mono hpam)
    have hrefuse : ∀ {kind : RemnantKind} {detail : String},
        Ensures S (Since [] [] [] c) (refuse ChildOutcome.refused logical kind detail)
          (Processed ctx root logical a) := by
      intro kind detail
      refine ensures_refuse fun b hcb _ => ?_
      exact ⟨hsafeC.since hcb (by simp), hweak (hcb.later (by simp [RollbackFound])) id⟩
    split
    · exact hrefuse
    split
    · exact hrefuse
    split
    · refine ensures_bind (ensures_purgeRegularEntry hS hsafeC (hinside.later hlater) hinspected
        hchild.below hchild.ne (fun h => (hlater.rollback h).elim hchild.rollback False.elim)
        fun link hmem => hlater.lt_next (hchain link hmem)) fun removed => ?_
      cases removed <;> exact ensures_pure fun b hb => ⟨hb.1, hweak hb.2 False.elim⟩
    split
    · exact hrefuse
    split
    · exact hrefuse
    split
    · exact hrefuse
    rename_i htrusted _
    refine ensures_bind (ensures_openDirAt hS) fun opened => ?_
    cases opened with
    | error e => exact hrefuse
    | ok handle =>
      refine ensures_bind (ensures_record.strengthen fun b hb => hb.1) fun _ => ?_
      refine ensures_rebase fun d hcd => ?_
      have hlaterD : Later [handle] False c d := hcd.later (by simp [RollbackFound])
      have hcandidate :
          Candidate ctx root .directory logical frame.handle name handle before d :=
        { inspected := hlaterD.trace _ hinspected
          wasOpened := by rw [hcd.trace]; simp
          trusted := by simpa [Ctx.trusts] using htrusted
          below := hchild.below
          ne := hchild.ne
          rollback := fun h => (hlaterD.rollback h).elim
            (fun h => (hlater.rollback h).elim hchild.rollback False.elim) False.elim }
      have hheld : handle ∈ d.fs.held := by rw [hcd.held]; exact mem_cons_self
      have hchainD : ∀ link ∈ frame.pathChain, link.handle < d.fs.next := fun link hmem =>
        hlaterD.lt_next (hlater.lt_next (hchain link hmem))
      have hback : ∀ {pam : Prop} {b : Machine}, Later [] pam d b →
          (pam → logical = pamBackupsLogical) →
          Later [handle] (logical = pamBackupsLogical) a b := by
        intro pam b hdb hpam
        exact hweak ((hlaterD.mono False.elim).trans hdb) hpam
      refine ensures_bind (ensures_descendInto hS (hsafeC.since hcd (by simp [Event.isPlain]))
        hcandidate hheld hchainD) fun child => ?_
      cases child with
      | none =>
        refine ensures_bind (ensures_close_later.strengthen fun b hb =>
          ⟨hb.1, hback hb.2 id⟩) fun _ => ?_
        exact ensures_pure fun b hb => hb
      | some child =>
        refine ensures_pure fun b hb => ?_
        obtain ⟨hsafeB, hdb, hframe, rfl, hlogical, hplace⟩ := hb
        exact ⟨hsafeB, hback hdb False.elim, hframe, hlogical, hplace⟩

theorem ensures_finishFrame (hS : Polite S) {frame} (hsafe : Safe ctx a) (hinside : Inside root a)
    (hframe : FrameSafe ctx root a frame) (hheld : frame.place.isSome → frame.handle ∈ a.fs.held) :
    Ensures S (Since [] [] [] a) (ctx.finishFrame frame root)
      fun _ b => Safe ctx b ∧ Later [] False a b := by
  have hpinned := hinside.pinned
  refine ensures_bind (ensures_finishStream hS) fun result => ?_
  cases result with
  | error e => exact ensures_refuse fun b hb _ => hsafe.idle hb
  | ok _ =>
    dsimp only
    split
    · exact (ensures_fixedRootIsCurrent hS hpinned.base hpinned.chain).weaken
        fun _ b hb => hsafe.idle hb.1
    split
    · exact ensures_pure fun b hb => hsafe.idle hb
    split
    · exact ensures_pure fun b hb => hsafe.idle hb
    rename_i parent name hplace
    have htarget := hframe.place parent name hplace
    have hopened : frame.handle ∈ a.fs.held := hheld (by simp [hplace])
    have hchain : ∀ link ∈ frame.pathChain.dropLast, link.handle < a.fs.next := fun link hmem =>
      hframe.chain link (dropLast_subset _ hmem)
    refine (ensures_fstat hS htarget.number.lt_next).bind fun opened _ => ?_
    refine ensures_bind (ensures_lstatAt hS) fun named => ?_
    split
    · exact ensures_refuse fun b hb _ => hsafe.idle hb
    refine (ensures_chainsAreCurrent hS hpinned.base hpinned.chain hchain).bind
      fun isCurrent _ => ?_
    cases isCurrent with
    | false => exact ensures_pure fun b hb => hsafe.idle hb
    | true =>
      refine (ensures_quarantine_delete hS hpinned hchain hopened htarget.number).weaken
        fun _ b hb => ?_
      exact ⟨hsafe.resolved hinside htarget hb, hb.later⟩

/-! ## The traversal -/

/-- What holds between two iterations.  `handles` are the descriptors of the
root and of what was opened before it. -/
structure Running (ctx : Ctx) (root : OpenedRoot) (handles : List Node) (stack : List Frame)
    (m : Machine) : Prop where
  safe : Safe ctx m
  inside : Inside root m
  held : m.fs.held = frameHandles stack ++ handles
  rootHeld : root.root ∈ handles
  frames : ∀ frame ∈ stack, FrameSafe ctx root m frame
  nested : stack.Pairwise fun upper lower => lower.logical.length ≤ upper.logical.length

variable {handles : List Node} {frame : Frame} {rest : List Frame}

theorem FrameSafe.of_eq {childrenRemoved} (h : FrameSafe ctx root a frame) :
    FrameSafe ctx root a { frame with pending, childrenRemoved } :=
  ⟨h.place, h.below, h.rollback, h.chain⟩

theorem Running.of_eq {childrenRemoved} (h : Running ctx root handles (frame :: rest) a) :
    Running ctx root handles ({ frame with pending, childrenRemoved } :: rest) a :=
  { h with
    held := by
      rw [h.held]
      simp only [frameHandles, filter_cons]
      split <;> rfl
    frames := by
      intro other hother
      rcases mem_cons.mp hother with rfl | hother
      · exact (h.frames frame mem_cons_self).of_eq
      · exact h.frames other (mem_cons_of_mem _ hother)
    nested := pairwise_cons.mpr (pairwise_cons.mp h.nested) }

theorem Running.keepTop {stack} (h : Running ctx root handles stack a) :
    Running ctx root handles (Purge.keepTop stack) a := by
  cases stack with
  | nil => exact h
  | cons frame rest => exact h.of_eq

section

variable (h : Running ctx root handles (frame :: rest) a)

include h

theorem Running.length_le {other}
    (hother : other ∈ frame :: rest) : other.logical.length ≤ frame.logical.length := by
  rcases mem_cons.mp hother with rfl | hother
  · exact Nat.le_refl _
  · exact (pairwise_cons.mp h.nested).1 other hother

/-- The directories on the stack stay good.  The PAM rollback directory can
only have been found below the innermost one. -/
theorem Running.frames_onward (hlonger : frame.logical.length < logical.length)
    (hab : Onward (logical = pamBackupsLogical) a b) :
    ∀ other ∈ frame :: rest, FrameSafe ctx root b other := by
  intro other hother
  refine (h.frames other hother).onward hab ?_
  rintro rfl hprefix
  have hle := h.length_le hother
  exact absurd hprefix.length_le (Nat.not_le.mpr (Nat.lt_of_le_of_lt hle hlonger))

theorem Running.later (hsafe : Safe ctx b) (hlonger : frame.logical.length < logical.length)
    (hab : Later [] (logical = pamBackupsLogical) a b) :
    Running ctx root handles (frame :: rest) b :=
  { h with
    safe := hsafe
    inside := h.inside.later hab
    held := hab.held.trans h.held
    frames := h.frames_onward hlonger hab.toOnward }

theorem Running.since (hab : Since [] [] [] a b) : Running ctx root handles (frame :: rest) b := by
  have hlonger : frame.logical.length < (frame.logical ++ [""]).length := by simp
  exact h.later (h.safe.since hab (by simp)) hlonger (hab.later (by simp [RollbackFound]))

theorem Running.push {child} (hsafe : Safe ctx b) (hlonger : frame.logical.length < logical.length)
    (hab : Later [child.handle] (logical = pamBackupsLogical) a b)
    (hchild : FrameSafe ctx root b child) (hlogical : child.logical = logical)
    (hplace : child.place.isSome) : Running ctx root handles (child :: frame :: rest) b := by
  refine
    { h with
      safe := hsafe
      inside := h.inside.later hab
      held := ?_
      frames := ?_
      nested := ?_ }
  · rw [hab.held, h.held]
    simp [frameHandles, filter_cons, hplace]
  · intro other hother
    rcases mem_cons.mp hother with rfl | hother
    · exact hchild
    · exact h.frames_onward hlonger hab.toOnward other hother
  · refine pairwise_cons.mpr ⟨fun other hother => ?_, h.nested⟩
    rw [hlogical]
    exact Nat.le_of_lt (Nat.lt_of_le_of_lt (h.length_le hother) hlonger)

end

theorem ensures_closeFrame :
    Ensures S (Running ctx root handles (frame :: rest)) (closeAll (frameHandles [frame]))
      fun _ => Running ctx root handles rest := by
  have hrest : ∀ b, Running ctx root handles (frame :: rest) b →
      (∀ other ∈ rest, FrameSafe ctx root b other) ∧
      rest.Pairwise fun upper lower => lower.logical.length ≤ upper.logical.length :=
    fun b hb => ⟨fun other hother => hb.frames other (mem_cons_of_mem _ hother),
      (pairwise_cons.mp hb.nested).2⟩
  by_cases hplace : frame.place.isSome
  · have hhandles : frameHandles [frame] = [frame.handle] := by simp [frameHandles, hplace]
    rw [hhandles]
    refine ensures_bind (ensures_update fun b hb => ?_) fun _ => ensures_pure fun _ hc => hc
    have honward : Onward False b { b with fs := b.fs.close frame.handle } :=
      ⟨Nat.le_refl _, fun _ _ => rfl, fun _ h => h, .inl⟩
    have hheld : (b.fs.close frame.handle).held = frameHandles rest ++ handles := by
      show b.fs.held.erase frame.handle = _
      rw [hb.held]
      simp [frameHandles, hplace]
    exact
      { safe := hb.safe.close _
        inside := hb.inside.onward honward
          (by rw [hheld]; exact mem_append_right _ hb.rootHeld)
        held := hheld
        rootHeld := hb.rootHeld
        frames := fun other hother => ((hrest b hb).1 other hother).onward honward False.elim
        nested := (hrest b hb).2 }
  · have hhandles : frameHandles [frame] = [] := by simp [frameHandles, hplace]
    rw [hhandles]
    refine ensures_pure fun b hb => ?_
    refine { hb with held := ?_, frames := (hrest b hb).1, nested := (hrest b hb).2 }
    rw [hb.held]
    simp [frameHandles, hplace]

/-- After an iteration the traversal goes on, or all its descriptors are
there to be closed. -/
abbrev Traversed (ctx : Ctx) (root : OpenedRoot) (handles : List Node) (stack : List Frame)
    (result : Option Traversal) (b : Machine) : Prop :=
  Safe ctx b ∧ match result with
    | none => b.fs.held = frameHandles stack ++ handles
    | some traversal => Running ctx root handles traversal.stack b

variable {nodesSeen : Nat}

section

variable (hS : Polite S) (h : Running ctx root handles (frame :: rest) a)

include hS h

theorem ensures_visitChild :
    Ensures S (Since [] [] [] a) (ctx.visitChild root frame rest nodesSeen name pending)
      (Traversed ctx root handles (frame :: rest)) := by
  refine ensures_bind ensures_isProtected fun isProtected => ?_
  cases isProtected with
  | true =>
    refine ensures_pure fun b hb => ?_
    have hb : Running ctx root handles ({ frame with pending } :: rest) b := (h.since hb.1).of_eq
    exact ⟨hb.safe, hb.keepTop⟩
  | false =>
    refine ensures_rebase fun b hb => ?_
    obtain ⟨hab, hfree⟩ := hb
    have hb : Running ctx root handles ({ frame with pending } :: rest) b := (h.since hab).of_eq
    have hframe := hb.frames _ mem_cons_self
    simp only [Bool.false_eq_true, if_false]
    split
    · refine ensures_refuse fun c hbc _ => ?_
      exact ⟨hb.safe.since hbc (by simp), (h.since (hab.trans hbc)).held⟩
    · have hlonger : frame.logical.length < (frame.logical ++ [ctx.lossyName name]).length := by
        simp
      have hchild : ChildSafe root b (frame.logical ++ [ctx.lossyName name]) := by
        refine ⟨hframe.below.trans (prefix_append _ _), ?_, ?_⟩
        · intro heq
          have hle := hframe.below.length_le
          rw [heq] at hle
          exact absurd hle (Nat.not_le.mpr hlonger)
        · intro hfound hprefix
          -- The child itself is not protected, so it is not the rollback path.
          rcases prefix_concat_iff.mp hprefix with heq | hprefix
          · have hprotected := hb.safe.rollback hfound
            rw [heq, hfree rfl] at hprotected
            contradiction
          · exact hframe.rollback hfound hprefix
      refine ensures_bind (ensures_processChild hS hb.safe hb.inside hchild hframe.chain)
        fun outcome => ?_
      cases outcome with
      | kept =>
        refine ensures_pure fun c hc => ⟨hc.1, ?_⟩
        exact hb.later hc.1 hlonger hc.2
      | refused =>
        refine ensures_pure fun c hc => ⟨hc.1, ?_⟩
        exact (hb.later hc.1 hlonger hc.2).keepTop
      | descend child =>
        refine ensures_pure fun c hc => ?_
        obtain ⟨hsafe, hbc, hchildFrame, hlogical, hplace⟩ := hc
        exact ⟨hsafe, hb.push hsafe hlonger hbc hchildFrame hlogical hplace⟩
      | abortRoot => exact ensures_pure fun c hc => hc.2.elim

theorem ensures_popFrame :
    Ensures S (Since [] [] [] a) (ctx.popFrame root frame rest nodesSeen)
      (Traversed ctx root handles (frame :: rest)) := by
  have hheld : frame.place.isSome → frame.handle ∈ a.fs.held := by
    intro hplace
    rw [h.held]
    simp [frameHandles, hplace]
  refine ensures_bind (ensures_finishFrame hS h.safe h.inside (h.frames _ mem_cons_self)
    hheld) fun removed => ?_
  have hrunning : ∀ b, Safe ctx b ∧ Later [] False a b →
      Running ctx root handles (frame :: rest) b := by
    intro b hb
    have hlonger : frame.logical.length < (frame.logical ++ [""]).length := by simp
    exact h.later hb.1 hlonger (hb.2.mono False.elim)
  refine ensures_bind (ensures_closeFrame.strengthen hrunning) fun _ => ?_
  refine ensures_pure fun b hb => ?_
  cases removed with
  | true => exact ⟨hb.safe, hb⟩
  | false => exact ⟨hb.safe, hb.keepTop⟩

theorem ensures_iteration :
    Ensures S (Since [] [] [] a) (ctx.iteration root frame rest nodesSeen)
      (Traversed ctx root handles (frame :: rest)) := by
  have hrefuse : ∀ {logical : Path} {kind : RemnantKind} {detail : String},
      Ensures S (Since [] [] [] a) (refuse (none : Option Traversal) logical kind detail)
        (Traversed ctx root handles (frame :: rest)) := by
    intro logical kind detail
    refine ensures_refuse fun b hab _ => ?_
    exact ⟨(h.since hab).safe, (h.since hab).held⟩
  refine ensures_bind (ensures_interrupted hS) fun isInterrupted => ?_
  cases isInterrupted with
  | true => exact hrefuse
  | false =>
    refine ensures_bind (ensures_nextEntry hS) fun entry => ?_
    cases entry with
    | error e => exact hrefuse
    | ok entry =>
      cases entry with
      | none => exact ensures_popFrame hS h
      | some entry => exact ensures_visitChild hS h

end

theorem ensures_traverse (hS : Polite S) {fuel traversal} :
    Ensures S (Running ctx root handles traversal.stack) (ctx.traverse root fuel traversal)
      fun ended b => Safe ctx b ∧ (ended = true → b.fs.held = handles) := by
  induction fuel generalizing traversal with
  | zero =>
    refine ensures_pure fun b hb => ⟨hb.safe, fun hempty => ?_⟩
    have hstack : traversal.stack = [] := isEmpty_iff.mp hempty
    simpa [hstack, frameHandles] using hb.held
  | succ fuel ih =>
    unfold Ctx.traverse
    split
    · rename_i hstack
      refine ensures_pure fun b hb => ⟨hb.safe, fun _ => ?_⟩
      simpa [hstack, frameHandles] using hb.held
    · rename_i frame rest hstack
      rw [hstack]
      refine ensures_rebase fun a ha => ?_
      refine ensures_bind (ensures_iteration hS ha) fun result => ?_
      cases result with
      | some next => exact ih.strengthen fun b hb => hb.2
      | none =>
        refine ensures_bind ensures_closeHeld fun _ => ?_
        exact ensures_pure fun b hb => ⟨hb.1, fun _ => hb.2⟩

end

end Facelock.Purge
