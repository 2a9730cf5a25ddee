import Facelock.Purge.Transaction

/-!
# What the trace of a pass shows

`Safe` is the invariant of a pass.  It speaks about the whole trace.  Every
unlink is a `Deletion`: the object was inspected and opened under its public
name, it passed the trust check of its kind, it lies on the mount of the
root that the pass is in, and it is not that root.  Every object that was
moved to a quarantine name is `Settled`: it was unlinked in the next event,
or moved back and the report lists its path, or the report lists its name,
where it stays until the pass takes that name up as an entry of its own.  Once
the PAM rollback directory was found with an entry its path is protected.

`Safe.resolved` is the step lemma: a deletion that ends as `Resolved` says
keeps the invariant.
-/

namespace Facelock.Purge

open Interference List

/-- The trust check of a kind. -/
def Ctx.trusts (ctx : Ctx) (kind : RemovedKind) (logical : Path) (seen : Stat) : Bool :=
  match kind with
  | .file => ctx.trustedRegular logical seen
  | .directory => ctx.trustedDirectory seen

/-- The PAM rollback directory was found with an entry. -/
def RollbackFound (trace : List Event) : Prop := ∃ node, .foundRollback node ∈ trace

/-- An unlink after `past` is one that the pass may make. -/
structure Deletion (ctx : Ctx) (fs : Filesystem) (past : List Event) (logical : Path)
    (kind : RemovedKind) (dir : Node) (qname : Name) (node : Node) : Prop where
  quarantine : qname.isQuarantine
  /-- It is the object that was opened under the name, with the identity
  that was inspected there. -/
  inspected : ∃ name seen, past.getLast? = some (.quarantined logical dir name qname node) ∧
    .opened logical dir name node ∈ past ∧ .inspected logical dir name seen ∈ past ∧
    seen.dev = (fs.attributes node).dev ∧ seen.ino = (fs.attributes node).ino ∧
    ctx.trusts kind logical seen
  /-- It lies below the root, on the root's mount, and is not the root. -/
  below : ∃ above root, .entered above root ∈ past ∧ above ∈ purgeRoots ∧ above <+: logical ∧
    above ≠ logical ∧ node ≠ root ∧ root < fs.next ∧
    (fs.attributes node).dev = (fs.attributes root).dev ∧
    (fs.attributes node).mount = (fs.attributes root).mount
  notMountpoint : ctx.isMountpoint logical = false
  rollback : RollbackFound past → ¬ pamBackupsLogical <+: logical
  lt_next : node < fs.next

/-- What became of an object that was moved to a quarantine name.  `rest`
are the events since. -/
def Settled (ctx : Ctx) (b : Machine) (rest : List Event) (logical : Path) (dir : Node)
    (name qname : Name) (node : Node) : Prop :=
  (∃ kind, rest.head? = some (.unlinked logical kind dir qname node)) ∨
  rest.head? = some (.restored logical dir qname name node) ∧
    b.reporter.report.Lists logical ∨
  b.reporter.report.Lists (parentLogical logical ++ [ctx.lossyName qname]) ∧
    (⟨dir, qname, node⟩ ∈ b.fs.links ∨
      ∃ later qname', .quarantined later dir qname qname' node ∈ rest)

structure Safe (ctx : Ctx) (b : Machine) : Prop where
  deletions : ∀ past rest logical kind dir qname node,
    b.trace = past ++ .unlinked logical kind dir qname node :: rest →
    Deletion ctx b.fs past logical kind dir qname node
  moves : ∀ past rest logical dir name qname node,
    b.trace = past ++ .quarantined logical dir name qname node :: rest →
    qname.isQuarantine ∧ Settled ctx b rest logical dir name qname node
  rollback : RollbackFound b.trace → b.reporter.isProtected pamBackupsLogical

/-! ## Steps -/

section

variable {ctx : Ctx} {nodes : List Node} {events : List Event} {touched : List (Node × Name)}
  {a b : Machine}

theorem append_eq_append_cons {trace past rest event}
    (h : trace ++ events = past ++ event :: rest) :
    (∃ old, trace = past ++ event :: old ∧ rest = old ++ events) ∨
      ∃ new, past = trace ++ new ∧ events = new ++ event :: rest := by
  rcases append_eq_append_iff.mp h with ⟨new, hpast, hevents⟩ | ⟨old, htrace, hold⟩
  · exact .inr ⟨new, hpast, hevents⟩
  · cases old with
    | nil =>
      rw [append_nil] at htrace
      exact .inr ⟨[], by rw [append_nil, htrace], hold.symm⟩
    | cons first old =>
      obtain ⟨rfl, rfl⟩ := List.cons.inj hold
      exact .inl ⟨old, htrace, rfl⟩

theorem Deletion.since {past logical kind dir qname node} (hab : Since nodes events touched a b)
    (h : Deletion ctx a.fs past logical kind dir qname node) :
    Deletion ctx b.fs past logical kind dir qname node := by
  have hnode := hab.attributes node h.lt_next
  refine { h with inspected := ?_, below := ?_, lt_next := hab.lt_next h.lt_next }
  · rw [hnode]
    exact h.inspected
  · obtain ⟨above, root, hentered, hmem, hprefix, hne, hroot, hlt, hdev, hmount⟩ := h.below
    refine ⟨above, root, hentered, hmem, hprefix, hne, hroot, hab.lt_next hlt, ?_, ?_⟩
    · rwa [hnode, hab.attributes root hlt]
    · rwa [hnode, hab.attributes root hlt]

/-- What a step has to show about the events that it adds. -/
theorem Safe.extend (hsafe : Safe ctx a) (hab : Since nodes events touched a b)
    (hkeep : ∀ dir qname node, qname.isQuarantine → ⟨dir, qname, node⟩ ∈ a.fs.links →
      ⟨dir, qname, node⟩ ∈ b.fs.links ∨
        ∃ later qname', .quarantined later dir qname qname' node ∈ events)
    (hdeletions : ∀ past rest logical kind dir qname node,
      events = past ++ .unlinked logical kind dir qname node :: rest →
      Deletion ctx b.fs (a.trace ++ past) logical kind dir qname node)
    (hmoves : ∀ past rest logical dir name qname node,
      events = past ++ .quarantined logical dir name qname node :: rest →
      qname.isQuarantine ∧ Settled ctx b rest logical dir name qname node)
    (hrollback : RollbackFound events → b.reporter.isProtected pamBackupsLogical) :
    Safe ctx b where
  deletions past rest logical kind dir qname node htrace := by
    rw [hab.trace] at htrace
    obtain ⟨old, hold, -⟩ | ⟨new, rfl, hnew⟩ := append_eq_append_cons htrace
    · exact (hsafe.deletions _ _ _ _ _ _ _ hold).since hab
    · exact hdeletions _ _ _ _ _ _ _ hnew
  moves past rest logical dir name qname node htrace := by
    rw [hab.trace] at htrace
    obtain ⟨old, hold, rfl⟩ | ⟨new, -, hnew⟩ := append_eq_append_cons htrace
    · obtain ⟨hq, hsettled⟩ := hsafe.moves _ _ _ _ _ _ _ hold
      refine ⟨hq, ?_⟩
      have hhead : ∀ {event}, old.head? = some event → (old ++ events).head? = some event := by
        intro event h
        rw [head?_append, h, Option.some_or]
      rcases hsettled with ⟨kind, h⟩ | ⟨h, hlisted⟩ | ⟨hlisted, hthere | ⟨later, qname', hlater⟩⟩
      · exact .inl ⟨kind, hhead h⟩
      · exact .inr (.inl ⟨hhead h, hab.reporter.lists hlisted⟩)
      · refine .inr (.inr ⟨hab.reporter.lists hlisted, ?_⟩)
        refine (hkeep dir qname node hq hthere).imp_right ?_
        rintro ⟨later, qname', hlater⟩
        exact ⟨later, qname', mem_append_right _ hlater⟩
      · exact .inr (.inr ⟨hab.reporter.lists hlisted,
          .inr ⟨later, qname', mem_append_left _ hlater⟩⟩)
    · exact hmoves _ _ _ _ _ _ _ hnew
  rollback := by
    rintro ⟨node, hmem⟩
    rw [hab.trace] at hmem
    rcases mem_append.mp hmem with hmem | hmem
    · exact hab.reporter.safeguarded _ (hsafe.rollback ⟨node, hmem⟩)
    · exact hrollback ⟨node, hmem⟩

/-- An event that the invariant asks nothing about. -/
def Event.isPlain : Event → Bool
  | .entered .. | .inspected .. | .opened .. => true
  | _ => false

theorem Safe.since (hsafe : Safe ctx a) (hab : Since nodes events [] a b)
    (hplain : ∀ event ∈ events, event.isPlain = true) : Safe ctx b := by
  refine hsafe.extend hab ?_ ?_ ?_ ?_
  · intro dir qname node hq hlink
    exact .inl ((hab.quarantined ⟨dir, qname, node⟩ hq (by simp)).mpr hlink)
  · rintro past rest logical kind dir qname node rfl
    simpa [Event.isPlain] using hplain (.unlinked logical kind dir qname node) (by simp)
  · rintro past rest logical dir name qname node rfl
    simpa [Event.isPlain] using hplain (.quarantined logical dir name qname node) (by simp)
  · rintro ⟨node, hmem⟩
    simpa [Event.isPlain] using hplain _ hmem

/-! ## Deletions -/

/-- What the pass knows about an entry that it has opened. -/
structure Candidate (ctx : Ctx) (root : OpenedRoot) (kind : RemovedKind) (logical : Path)
    (dir : Node) (name : Name) (opened : Node) (before : Stat) (a : Machine) : Prop where
  inspected : .inspected logical dir name before ∈ a.trace
  wasOpened : .opened logical dir name opened ∈ a.trace
  trusted : ctx.trusts kind logical before
  below : root.logical <+: logical
  ne : root.logical ≠ logical
  rollback : RollbackFound a.trace → ¬ pamBackupsLogical <+: logical

/-- An entry that is going to be deleted: the opened object has the
inspected number and is on the root's mount. -/
structure Target (ctx : Ctx) (root : OpenedRoot) (kind : RemovedKind) (logical : Path)
    (dir : Node) (name : Name) (opened : Node) (before : Stat) (a : Machine) : Prop
    extends Candidate ctx root kind logical dir name opened before a where
  number : Numbered a.fs opened before.dev before.ino root.mountId
  mount : OnRootMount ctx root a.fs opened logical

/-- The pass is inside a root. -/
structure Inside (root : OpenedRoot) (a : Machine) : Prop where
  pinned : Pinned root a.fs
  entered : .entered root.logical root.root ∈ a.trace
  logical : root.logical ∈ purgeRoots

variable {root : OpenedRoot} {kind : RemovedKind} {logical : Path} {dir opened : Node}
  {name : Name} {before : Stat}

theorem Target.deletion {qname} (hinside : Inside root a)
    (htarget : Target ctx root kind logical dir name opened before a)
    (hab : Since nodes events touched a b) (hq : qname.isQuarantine) (hroot : opened ≠ root.root) :
    Deletion ctx b.fs (a.trace ++ [.quarantined logical dir name qname opened]) logical kind dir
      qname opened := by
  have hpinned := hinside.pinned
  have hrootLt := Filesystem.lt_of_held hpinned.held
  refine Deletion.since hab
    { quarantine := hq
      inspected := ?_
      below := ?_
      notMountpoint := htarget.mount.notMountpoint
      rollback := ?_
      lt_next := htarget.number.lt_next }
  · refine ⟨name, before, by simp, mem_append_left _ htarget.wasOpened,
      mem_append_left _ htarget.inspected, htarget.number.dev.symm,
      htarget.number.ino.symm, htarget.trusted⟩
  · exact ⟨root.logical, root.root, mem_append_left _ hinside.entered, hinside.logical,
      htarget.below, htarget.ne, hroot, hrootLt, htarget.mount.dev.trans hpinned.dev.symm,
      htarget.mount.mount.trans hpinned.mount.symm⟩
  · rintro ⟨node, hmem⟩
    refine htarget.rollback ⟨node, ?_⟩
    simpa using hmem

/-- An entry under a quarantine name that nothing has touched but a deletion
of another entry. -/
theorem keep_of_touched {qname node events}
    (hab : Since nodes (.quarantined logical dir name qname node :: events)
      [(dir, name), (dir, qname)] a b)
    (hfree : ∀ link ∈ a.fs.links, link.key ≠ (dir, qname))
    (htaken : name.isQuarantine → ⟨dir, name, node⟩ ∈ a.fs.links)
    (dir' : Node) (qname' : Name) (node' : Node) (hq : qname'.isQuarantine)
    (hlink : ⟨dir', qname', node'⟩ ∈ a.fs.links) :
    ⟨dir', qname', node'⟩ ∈ b.fs.links ∨
      ∃ later next, .quarantined later dir' qname' next node' ∈
        (.quarantined logical dir name qname node : Event) :: events := by
  by_cases hkey : (⟨dir', qname', node'⟩ : Link).key = (dir, name)
  · obtain ⟨rfl, rfl⟩ := Prod.mk.injEq .. ▸ hkey
    obtain rfl : node' = node :=
      congrArg Link.node (Filesystem.key_inj hlink (htaken hq) rfl)
    exact .inr ⟨logical, qname, mem_cons_self⟩
  · refine .inl ((hab.quarantined ⟨dir', qname', node'⟩ hq ?_).mpr hlink)
    simp only [mem_cons, not_mem_nil, or_false, not_or]
    exact ⟨hkey, hfree _ hlink⟩

theorem Safe.resolved {result : Bool} (hsafe : Safe ctx a) (hinside : Inside root a)
    (htarget : Target ctx root kind logical dir name opened before a)
    (h : Resolved ctx root kind logical dir name opened a result b) : Safe ctx b := by
  cases h with
  | untouched hab => exact hsafe.since hab (by simp)
  | @deleted _ qname hq hfree htaken hroot hab =>
    refine hsafe.extend hab (keep_of_touched hab hfree htaken) ?_ ?_ (by simp [RollbackFound])
    · intro past rest logical' kind' dir' qname' node' hevents
      simp [cons_eq_append_iff] at hevents
      obtain ⟨rfl, ⟨rfl, rfl, rfl, rfl, rfl⟩, rfl⟩ := hevents
      exact htarget.deletion hinside hab hq hroot
    · intro past rest logical' dir' name' qname' node' hevents
      simp [cons_eq_append_iff] at hevents
      obtain ⟨rfl, ⟨rfl, rfl, rfl, rfl, rfl⟩, rfl⟩ := hevents
      exact ⟨hq, .inl ⟨kind, rfl⟩⟩
  | @restored _ qname node hq hfree htaken hab hlisted =>
    refine hsafe.extend hab (keep_of_touched hab hfree htaken) ?_ ?_ (by simp [RollbackFound])
    · simp [cons_eq_append_iff]
    · intro past rest logical' dir' name' qname' node' hevents
      simp [cons_eq_append_iff] at hevents
      obtain ⟨rfl, ⟨rfl, rfl, rfl, rfl, rfl⟩, rfl⟩ := hevents
      exact ⟨hq, .inr (.inl ⟨rfl, hlisted⟩)⟩
  | @retained _ qname node hq hfree htaken hab hthere hlisted =>
    refine hsafe.extend hab (keep_of_touched hab hfree htaken) ?_ ?_ (by simp [RollbackFound])
    · simp [cons_eq_append_iff]
    · intro past rest logical' dir' name' qname' node' hevents
      simp [cons_eq_append_iff] at hevents
      obtain ⟨rfl, ⟨rfl, rfl, rfl, rfl, rfl⟩, rfl⟩ := hevents
      exact ⟨hq, .inr (.inr ⟨hlisted, .inl hthere⟩)⟩

end

end Facelock.Purge
