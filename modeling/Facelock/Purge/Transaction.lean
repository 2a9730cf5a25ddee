import Facelock.Purge.Calls

/-!
# The deletion of one entry

From the move to the quarantine name on, other processes leave the object
alone: they never touch a quarantine name.  What they can still do is to
put another object at the public name just before the move, so the object
that was moved need not be the one that was inspected.

`Resolved` says how a deletion ends.  Either nothing was moved.  Or the
moved object is the one that the pass holds open since it inspected the
name, and it was unlinked.  Or it was moved back, and the report lists its
path.  Or it is still under its quarantine name, and the report lists that
name.

Two facts of the filesystem carry the proof.  Two objects in use have
different numbers, so an object with the number of an open file is that
file.  A directory has one entry, so a directory under a quarantine name is
not the root, which was seen under its own name after the move.
-/

namespace Facelock.Purge

open Interference

theorem isQuarantine_quarantineCandidate (before : Stat) (attempt : Nat) :
    (quarantineCandidate before attempt).isQuarantine = true :=
  Text.startsWith_append (by decide) _

/-- The descriptors of an opened root are good.  The last link of the chain
is the root's own entry. -/
structure Pinned (root : OpenedRoot) (fs : Filesystem) : Prop where
  base : root.base < fs.next
  chain : ∀ link ∈ root.chain, link.handle < fs.next
  held : root.root ∈ fs.held
  dev : (fs.attributes root.root).dev = root.dev
  mount : (fs.attributes root.root).mount = root.mountId
  entry : ∃ link ∈ root.chain, link.name.isQuarantine = false ∧
    Numbered fs root.root link.before.dev link.before.ino link.mountId

theorem Pinned.mono {root fs fs'} (h : Pinned root fs) (hnext : fs.next ≤ fs'.next)
    (hattributes : ∀ node < fs.next, fs'.attributes node = fs.attributes node)
    (hheld : root.root ∈ fs'.held) : Pinned root fs' := by
  have hroot := hattributes _ (Filesystem.lt_of_held h.held)
  refine
    { base := Nat.lt_of_lt_of_le h.base hnext
      chain := fun link hmem => Nat.lt_of_lt_of_le (h.chain link hmem) hnext
      held := hheld
      dev := by rw [hroot]; exact h.dev
      mount := by rw [hroot]; exact h.mount
      entry := ?_ }
  obtain ⟨link, hmem, hname, hnumber⟩ := h.entry
  exact ⟨link, hmem, hname, hnumber.mono hnext hattributes⟩

/-- How a deletion of the entry `name` of `dir` ends.  `opened` is the
object that was opened under that name. -/
inductive Resolved (ctx : Ctx) (root : OpenedRoot) (kind : RemovedKind) (logical : Path)
    (dir : Node) (name : Name) (opened : Node) (a : Machine) : Bool → Machine → Prop where
  | untouched {b : Machine} (since : Since [] [] [] a b) :
      Resolved ctx root kind logical dir name opened a false b
  | deleted {b : Machine} {qname : Name} (quarantine : qname.isQuarantine)
      (free : ∀ link ∈ a.fs.links, link.key ≠ (dir, qname))
      (taken : name.isQuarantine → ⟨dir, name, opened⟩ ∈ a.fs.links)
      (notRoot : opened ≠ root.root)
      (since : Since []
        [.quarantined logical dir name qname opened, .unlinked logical kind dir qname opened]
        [(dir, name), (dir, qname)] a b) :
      Resolved ctx root kind logical dir name opened a true b
  | restored {b : Machine} {qname : Name} {node : Node} (quarantine : qname.isQuarantine)
      (free : ∀ link ∈ a.fs.links, link.key ≠ (dir, qname))
      (taken : name.isQuarantine → ⟨dir, name, node⟩ ∈ a.fs.links)
      (since : Since []
        [.quarantined logical dir name qname node, .restored logical dir qname name node]
        [(dir, name), (dir, qname)] a b)
      (listed : b.reporter.report.Lists logical) :
      Resolved ctx root kind logical dir name opened a false b
  | retained {b : Machine} {qname : Name} {node : Node} (quarantine : qname.isQuarantine)
      (free : ∀ link ∈ a.fs.links, link.key ≠ (dir, qname))
      (taken : name.isQuarantine → ⟨dir, name, node⟩ ∈ a.fs.links)
      (since : Since [] [.quarantined logical dir name qname node]
        [(dir, name), (dir, qname)] a b)
      (there : ⟨dir, qname, node⟩ ∈ b.fs.links)
      (listed : b.reporter.report.Lists (parentLogical logical ++ [ctx.lossyName qname])) :
      Resolved ctx root kind logical dir name opened a false b

section

variable {S : Schedule Machine Errno Choice} {ctx : Ctx} {root : OpenedRoot}
  {flavor : EntryFlavor} {dir node opened : Node} {name qname : Name} {logical : Path}
  {before : Stat} {nodes : List Node} {a : Machine}

/-! ## The move and the way back -/

theorem ensures_quarantineEntry (hS : Polite S) :
    Ensures S (Since [] [] [] a) (ctx.quarantineEntry dir name logical before)
      fun result b => match result with
        | none => Since [] [] [] a b
        | some qname => qname.isQuarantine ∧ ∃ node,
          Since [] [.quarantined logical dir name qname node] [(dir, name), (dir, qname)] a b ∧
          ⟨dir, qname, node⟩ ∈ b.fs.links ∧
          (name.isQuarantine → ⟨dir, name, node⟩ ∈ a.fs.links) ∧
          ∀ link ∈ a.fs.links, link.key ≠ (dir, qname) := by
  unfold Ctx.quarantineEntry
  induction List.range maxQuarantineAttempts with
  | nil =>
    exact ensures_refuse fun b hb _ => hb
  | cons attempt attempts ih =>
    unfold Ctx.quarantineAttempts
    dsimp only
    split
    · exact ih
    · refine ensures_bind (ensures_renameNoreplace hS) fun result => ?_
      cases result with
      | ok _ =>
        refine ensures_pure fun b hb => ?_
        obtain ⟨node, hsince, hlink, hsource, htarget⟩ := hb
        have hq := isQuarantine_quarantineCandidate before attempt
        exact ⟨hq, node, hsince, hlink, fun h => hsource h (by simp), htarget hq (by simp)⟩
      | error e =>
        dsimp only
        split
        · exact ensures_bind idles_remnant fun _ => ih
        · exact ensures_refuse fun b hb _ => hb

/-- The moved object was taken back and the report lists its path, or it is
under its quarantine name still and the report lists that. -/
def GivenBack (ctx : Ctx) (nodes : List Node) (dir : Node) (name qname : Name) (logical : Path)
    (node : Node) (a b : Machine) : Prop :=
  Since nodes [.restored logical dir qname name node] [(dir, qname), (dir, name)] a b ∧
      b.reporter.report.Lists logical ∨
    Since nodes [] [] a b ∧
      b.reporter.report.Lists (parentLogical logical ++ [ctx.lossyName qname])

theorem ensures_giveBack (hS : Polite S) {identity} (hq : qname.isQuarantine)
    (hlink : ⟨dir, qname, node⟩ ∈ a.fs.links) :
    Ensures S (Since nodes [] [] a) (ctx.giveBack dir name qname logical identity flavor)
      fun result b => result = false ∧ GivenBack ctx nodes dir name qname logical node a b := by
  have hkept : ∀ {kind detail}, Ensures S (Since nodes [] [] a)
      (refuse () (parentLogical logical ++ [ctx.lossyName qname]) kind detail)
      fun _ => GivenBack ctx nodes dir name qname logical node a :=
    ensures_refuse fun b hb hprotected => .inr ⟨hb, Reporter.lists_of_isProtected hprotected⟩
  have hrestore : Ensures S (Since nodes [] [] a)
      (ctx.restoreQuarantined dir name qname logical identity flavor)
      fun _ => GivenBack ctx nodes dir name qname logical node a := by
    refine ensures_bind (ensures_renameNoreplace hS) fun result => ?_
    cases result with
    | error e =>
      dsimp only
      split
      · exact ensures_bind idles_remnant fun _ => hkept
      · exact hkept
    | ok _ =>
      refine ensures_exists fun other => ?_
      refine ensures_rebase fun b hb => ?_
      obtain ⟨hsince, -, hsource, -⟩ := hb
      obtain rfl : other = node := by
        have hother := hsource hq (by simp)
        exact congrArg Link.node (Filesystem.key_inj hother hlink rfl)
      have hrestored : ∀ c, Since [] [] [] b c → c.reporter.isProtected logical →
          GivenBack ctx nodes dir name qname logical other a c := fun c hc hprotected =>
        .inl ⟨hsince.idle hc, Reporter.lists_of_isProtected hprotected⟩
      refine ensures_bind (ensures_lstatAt hS) fun st => ?_
      split
      · exact ensures_refuse hrestored
      · exact ensures_refuse hrestored
  exact ensures_bind hrestore fun _ => ensures_pure fun b hb => ⟨rfl, hb⟩

/-! ## The proof under the quarantine name -/

theorem EntryFlavor.sameIdentity_number {expected actual}
    (h : flavor.sameIdentity expected actual) :
    expected.dev = actual.dev ∧ expected.ino = actual.ino := by
  cases flavor with
  | file =>
    exact Stat.sameDirectoryIdentity_number (Stat.sameDirectoryIdentity_of_sameIdentity h)
  | directory => exact Stat.sameDirectoryIdentity_number h

theorem ensures_openAt (hS : Polite S) (hq : qname.isQuarantine)
    (hlink : ⟨dir, qname, node⟩ ∈ a.fs.links) :
    Ensures S (Since nodes [] [] a) (flavor.openAt dir qname)
      fun result b => match result with
        | .error _ => Since nodes [] [] a b
        | .ok other => Since (node :: nodes) [] [] a b ∧ other = node := by
  have hsame : ∀ {other : Node} {b : Machine}, Since (other :: nodes) [] [] a b →
      ⟨dir, qname, other⟩ ∈ b.fs.links → Since (node :: nodes) [] [] a b ∧ other = node := by
    intro other b hb hother
    have hthere := (hb.quarantined ⟨dir, qname, node⟩ hq (by simp)).mpr hlink
    obtain rfl : other = node := congrArg Link.node (Filesystem.key_inj hother hthere rfl)
    exact ⟨hb, rfl⟩
  cases flavor with
  | file =>
    refine (ensures_openFileAt hS).weaken fun result b hb => ?_
    cases result with
    | error e => exact hb
    | ok other => exact hsame hb.1 hb.2
  | directory =>
    refine (ensures_openDirAt hS).weaken fun result b hb => ?_
    cases result with
    | error e => exact hb
    | ok other => exact hsame hb.1 hb.2.1

/-- What is proven has the number that was inspected and is on the root's
mount. -/
theorem ensures_proveQuarantined (hS : Polite S) {qLogical qPublic} (hq : qname.isQuarantine)
    (hlink : ⟨dir, qname, node⟩ ∈ a.fs.links) :
    Ensures S (Since [] [] [] a)
      (ctx.proveQuarantined flavor root dir qname qLogical before qPublic)
      fun result b => match result with
        | none => Since [] [] [] a b
        | some qfd => Since [node] [] [] a b ∧ qfd = node ∧
          Numbered a.fs node before.dev before.ino root.mountId := by
  have hlt : node < a.fs.next := Filesystem.lt_of_mem hlink
  unfold Ctx.proveQuarantined
  split
  · exact ensures_pure fun b hb => hb
  · refine ensures_bind (ensures_openAt hS hq hlink) fun result => ?_
    cases result with
    | error e => exact ensures_pure fun b hb => hb
    | ok qfd =>
      refine ensures_of_fact fun hqfd => ?_
      subst hqfd
      refine (ensures_fstat hS hlt).bind fun st hst => ?_
      split
      · exact ensures_bind ensures_close fun _ => ensures_pure fun b hb => hb
      · rename_i hany
        obtain ⟨seen, rfl, hsame⟩ := exists_of_not_any hany
        refine (ensures_openedOnRootMount hS hlt).bind fun mount hmount => ?_
        cases mount with
        | none => exact ensures_bind ensures_close fun _ => ensures_pure fun b hb => hb
        | some id =>
          have hnumber := numbered_of_seen hlt (hst seen rfl)
            (EntryFlavor.sameIdentity_number hsame) (hmount id rfl).mount
          exact ensures_pure fun b hb => ⟨hb, rfl, hnumber⟩

/-- An object under a quarantine name is not the root if the root's own
entry was current since. -/
theorem ne_root_of_wasCurrent {link} (hq : qname.isQuarantine)
    (hlink : ⟨dir, qname, node⟩ ∈ a.fs.links) (hheld : root.root ∈ a.fs.held)
    (hname : link.name.isQuarantine = false)
    (hroot : Numbered a.fs root.root link.before.dev link.before.ino link.mountId)
    (hseen : WasCurrent [] [] a link) : node ≠ root.root := by
  obtain ⟨nodes, b, current, hab, hcurrent, hdir, hnumber⟩ := hseen
  have hrootB := hab.numbered hroot
  have hheldB : root.root ∈ b.fs.held := by
    rw [hab.held]
    exact List.mem_append_right _ hheld
  have hthere := (hab.quarantined ⟨dir, qname, node⟩ hq (by simp)).mpr hlink
  have hcurrentRoot : current = root.root :=
    b.fs.apart _ _ (Filesystem.inUse_of_mem hcurrent) (Filesystem.inUse_of_held hheldB)
      (hnumber.dev.trans hrootB.dev.symm) (hnumber.ino.trans hrootB.ino.symm)
      (hnumber.mount.trans hrootB.mount.symm)
  intro hnode
  have hlinks := b.fs.once _ hcurrent _ hthere (hcurrentRoot.trans hnode.symm) hdir
  have hnames : link.name = qname := congrArg Link.name hlinks
  rw [hnames, hq] at hname
  contradiction

theorem ensures_reportUnlinked (hS : Polite S) {events touched} (hnode : node < a.fs.next) :
    Ensures S (Since (node :: nodes) events touched a) (Ctx.reportUnlinked flavor node logical)
      fun _ => Since nodes events touched a := by
  have hstill : Idles S (node :: nodes) events touched a (Ctx.stillLinked flavor node) := by
    cases flavor with
    | file =>
      exact ensures_bind (ensures_fstat hS hnode) fun _ => ensures_pure fun b hb => hb.1
    | directory => exact ensures_pure fun b hb => hb
  refine ensures_bind hstill fun still => ?_
  have hrest : Ensures S (Since (node :: nodes) events touched a)
      (do close node; report fun reporter => reporter.removed logical flavor.removedKind)
      fun _ => Since nodes events touched a :=
    ensures_bind ensures_close fun _ =>
      ensures_report fun reporter => Reporter.extends_removed reporter _ _
  cases still with
  | false => exact hrest
  | true =>
    exact ensures_bind
      (ensures_report fun reporter => Reporter.extends_externalHardlink reporter _) fun _ => hrest

/-- How the protocol ends after the move to `qname`. -/
abbrev Concluded (ctx : Ctx) (flavor : EntryFlavor) (root : OpenedRoot) (logical : Path)
    (dir : Node) (name qname : Name) (node opened : Node) (a : Machine) (result : Bool)
    (b : Machine) : Prop :=
  match result with
  | true => node = opened ∧ node ≠ root.root ∧
    Since [] [.unlinked logical flavor.removedKind dir qname node] [(dir, qname)] a b
  | false => GivenBack ctx [] dir name qname logical node a b

theorem ensures_deleteQuarantined (hS : Polite S) {chain} (hq : qname.isQuarantine)
    (hlink : ⟨dir, qname, node⟩ ∈ a.fs.links) (hpinned : Pinned root a.fs)
    (hchain : ∀ link ∈ chain, link.handle < a.fs.next) (hopened : opened ∈ a.fs.held)
    (hnumber : Numbered a.fs opened before.dev before.ino root.mountId) :
    Ensures S (Since [] [] [] a)
      (ctx.deleteQuarantined flavor root dir name qname logical before chain)
      (Concluded ctx flavor root logical dir name qname node opened a) := by
  have hlt : node < a.fs.next := Filesystem.lt_of_mem hlink
  have hback : ∀ {identity : Stat}, Ensures S (Since [] [] [] a)
      (ctx.giveBack dir name qname logical identity flavor)
      (Concluded ctx flavor root logical dir name qname node opened a) := by
    intro identity
    refine (ensures_giveBack hS hq hlink).weaken fun result b hb => ?_
    rw [hb.1]
    exact hb.2
  refine ensures_bind (ensures_lstatAt hS) fun seen => ?_
  refine ensures_bind (ensures_proveQuarantined hS hq hlink) fun proven => ?_
  cases proven with
  | none => exact hback
  | some qfd =>
    refine ensures_of_fact fun hproven => ?_
    obtain ⟨rfl, hqNumber⟩ := hproven
    -- The proven object has the number of the open file, so it is that file.
    have hsame : qfd = opened :=
      a.fs.apart _ _ (Filesystem.inUse_of_mem hlink) (Filesystem.inUse_of_held hopened)
        (hqNumber.dev.trans hnumber.dev.symm) (hqNumber.ino.trans hnumber.ino.symm)
        (hqNumber.mount.trans hnumber.mount.symm)
    refine (ensures_chainsAreCurrent hS hpinned.base hpinned.chain hchain).bind
      fun current hcurrent => ?_
    cases current with
    | false => exact ensures_bind ensures_close fun _ => hback
    | true =>
      obtain ⟨link, hmem, hname, hroot⟩ := hpinned.entry
      have hnotRoot : qfd ≠ root.root :=
        ne_root_of_wasCurrent hq hlink hpinned.held hname hroot (hcurrent rfl link hmem)
      refine ensures_bind (ensures_lstatAt hS) fun final => ?_
      split
      · exact ensures_bind ensures_close fun _ => hback
      · refine ensures_bind (ensures_unlinkAt hS hq hlink (by simp)) fun unlinked => ?_
        cases unlinked with
        | error e =>
          refine ensures_bind (ensures_lstatAt hS) fun st => ?_
          refine ensures_bind ensures_close fun _ => ?_
          split
          · exact hback
          · exact ensures_refuse fun b hb hprotected =>
              .inr ⟨hb, Reporter.lists_of_isProtected hprotected⟩
        | ok _ =>
          refine ensures_bind (ensures_reportUnlinked hS hlt) fun _ => ?_
          exact ensures_pure fun b hb => ⟨hsame, hnotRoot, hb⟩

/-- The whole deletion: the move and what follows it. -/
theorem ensures_quarantine_delete (hS : Polite S) {chain} (hpinned : Pinned root a.fs)
    (hchain : ∀ link ∈ chain, link.handle < a.fs.next) (hopened : opened ∈ a.fs.held)
    (hnumber : Numbered a.fs opened before.dev before.ino root.mountId) :
    Ensures S (Since [] [] [] a)
      (do
        match ← ctx.quarantineEntry dir name logical before with
        | none => return false
        | some qname =>
          ctx.deleteQuarantined flavor root dir name qname logical before chain)
      (Resolved ctx root flavor.removedKind logical dir name opened a) := by
  refine ensures_bind (ensures_quarantineEntry hS) fun result => ?_
  cases result with
  | none => exact ensures_pure fun b hb => .untouched hb
  | some qname =>
    refine ensures_rebase fun b hb => ?_
    obtain ⟨hq, node, hab, hlink, htaken, hfree⟩ := hb
    have hpinnedB : Pinned root b.fs :=
      hpinned.mono hab.next hab.attributes (by rw [hab.held]; exact hpinned.held)
    have hopenedB : opened ∈ b.fs.held := by rw [hab.held]; exact hopened
    refine (ensures_deleteQuarantined hS hq hlink hpinnedB
      (fun link hmem => hab.lt_next (hchain link hmem)) hopenedB
      (hab.numbered hnumber)).weaken fun result c hc => ?_
    cases result with
    | true =>
      obtain ⟨rfl, hnotRoot, hbc⟩ := hc
      refine .deleted hq hfree htaken hnotRoot ((hab.trans hbc).touch ?_)
      simp
    | false =>
      rcases hc with ⟨hbc, hlisted⟩ | ⟨hbc, hlisted⟩
      · refine .restored hq hfree htaken ((hab.trans hbc).touch ?_) hlisted
        simp
      · refine .retained hq hfree htaken (hab.idle hbc) ?_ hlisted
        exact (hbc.quarantined ⟨dir, qname, node⟩ hq (by simp)).mpr hlink

end

end Facelock.Purge
