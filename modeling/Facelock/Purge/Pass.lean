import Facelock.Purge.Safety

/-!
# A whole pass among other processes

A root is opened component by component, and every component is pinned.
From there `Purge.Safety` takes over, so the invariant holds at the end of
the pass, for every schedule: whatever the other processes do, whichever
calls fail, whatever the streams list and after any number of iterations.

The protection of a path is by its name.  When another process renames the
PAM rollback directory after the pass has found an entry in it, the pass
meets it under its new name and empties it.  In the same way a file that
was put in the place of another one is moved back, and removed when it is
renamed once more.
-/

namespace Facelock.Purge

open Interference List

section

variable {S : Schedule Machine Errno Choice} {ctx : Ctx} {root : OpenedRoot}
  {nodes handles : List Node} {events : List Event} {touched : List (Node × Name)}
  {a b : Machine}

/-! ## Opening a root -/

theorem ensures_abandon {α : Type} {opened} :
    Ensures S (Since opened [] [] a) (Ctx.abandon opened : Pass (Option α))
      fun result b => result = none ∧ Since [] [] [] a b := by
  have hclose : Ensures S (Since (opened ++ []) [] [] a) (closeAll opened)
      fun _ => Since [] [] [] a := ensures_closeAll
  rw [append_nil] at hclose
  exact ensures_bind hclose fun _ => ensures_pure fun b hb => ⟨rfl, hb⟩

/-- Every link of a chain leads to the directory that was pinned, by a
component of the root's path. -/
def ChainPinned (fs : Filesystem) (logical : Path) (chain : List ChainLink) : Prop :=
  ∀ link ∈ chain, (∃ part ∈ logical, link.name = .text part) ∧
    Numbered fs link.handle link.before.dev link.before.ino link.mountId

/-- The descriptors of a chain, the last one first. -/
def chainHandles (base : Node) (chain : List ChainLink) : List Node :=
  (chain.map ChainLink.handle).reverse ++ [base]

variable {logical : Path}

/-- An opened chain is pinned, and its descriptors are held. -/
abbrev ChainOpened (base : Node) (logical : Path) (a : Machine) (result : Option (List ChainLink))
    (b : Machine) : Prop :=
  match result with
  | none => Since [] [] [] a b
  | some chain => Since (chainHandles base chain) [] [] a b ∧ ChainPinned b.fs logical chain

theorem ensures_openComponents (hS : Polite S) {base parts}
    (hparts : ∀ part ∈ parts, part ∈ logical) {above parent parentMountId chain} :
    Ensures S (fun m => Since (chainHandles base chain) [] [] a m ∧
        ChainPinned m.fs logical chain)
      (ctx.openComponents logical (chainHandles base chain) parts above parent parentMountId
        chain)
      (ChainOpened base logical a) := by
  induction parts generalizing above parent parentMountId chain with
  | nil => exact ensures_pure fun b hb => hb
  | cons part parts ih =>
    refine ensures_rebase fun b hb => ?_
    obtain ⟨hab, hpinned⟩ := hb
    have hbase : ∀ {nodes : List Node} {m : Machine}, Since nodes [] [] b m →
        Since (nodes ++ chainHandles base chain) [] [] a m := by
      intro nodes m hbm
      simpa using hab.trans hbm
    -- Every refusal closes what was opened so far.
    have habandon : ∀ nodes : List Node, Ensures S (Since nodes [] [] b)
        (Ctx.abandon (nodes ++ chainHandles base chain) : Pass (Option (List ChainLink)))
        (ChainOpened base logical a) := by
      intro nodes
      refine (ensures_abandon.strengthen fun m hm => hbase hm).weaken fun result m hm => ?_
      rw [hm.1]
      exact hm.2
    have hrefuse : ∀ (nodes : List Node) {path : Path} {kind : RemnantKind} {detail : String},
        Ensures S (Since nodes [] [] b)
          (do
            remnant path kind detail
            Ctx.abandon (nodes ++ chainHandles base chain) : Pass (Option (List ChainLink)))
          (ChainOpened base logical a) := fun nodes {path kind detail} =>
      ensures_bind idles_remnant fun _ => habandon nodes
    refine ensures_bind (ensures_lstatAt hS) fun result => ?_
    cases result with
    | error e =>
      dsimp only
      split
      · exact habandon []
      · exact hrefuse []
    | ok before =>
      dsimp only
      split
      · exact hrefuse []
      split
      · exact hrefuse []
      refine ensures_bind (ensures_openDirAt hS) fun opened => ?_
      cases opened with
      | error e => exact hrefuse []
      | ok handle =>
        refine ensures_rebase fun c hc => ?_
        obtain ⟨hbc, hlink, -⟩ := hc
        have hlt : handle < c.fs.next := Filesystem.lt_of_mem hlink
        have hopened : ∀ m, Since [] [] [] c m → Since [handle] [] [] b m := fun _ => hbc.idle
        refine (ensures_fstat hS hlt).bind fun st hst => ?_
        split
        · exact (hrefuse [handle]).strengthen hopened
        rename_i hany
        obtain ⟨seen, rfl, hsame⟩ := exists_of_not_any hany
        refine (ensures_provenMountId hS hlt).bind fun mount hmount => ?_
        cases mount with
        | none => exact (hrefuse [handle]).strengthen hopened
        | some id =>
          dsimp only
          split
          · exact (hrefuse [handle]).strengthen hopened
          have hhandles : ∀ link : ChainLink, link.handle = handle →
              chainHandles base (chain ++ [link]) = handle :: chainHandles base chain := by
            intro link hlink
            simp [chainHandles, hlink]
          rw [← hhandles ⟨parent, handle, .text part, seen, id⟩ rfl]
          refine (ih fun other hother => hparts other (mem_cons_of_mem _ hother)).strengthen
            fun m hm => ⟨?_, ?_⟩
          · rw [hhandles _ rfl]
            exact hbase (hopened m hm)
          · intro link hmem
            rcases mem_append.mp hmem with hmem | hmem
            · exact ⟨(hpinned link hmem).1, (hopened m hm).numbered (hpinned link hmem).2⟩
            · obtain rfl := mem_singleton.mp hmem
              exact ⟨⟨part, hparts part mem_cons_self, rfl⟩, hm.numbered
                (numbered_of_seen hlt (hst seen rfl) ⟨rfl, rfl⟩ (hmount id rfl).symm)⟩

/-- An opened root is pinned, and its descriptors are held. -/
abbrev RootOpened (logical : Path) (a : Machine) (result : Option OpenedRoot) (b : Machine) :
    Prop :=
  match result with
  | none => Since [] [] [] a b
  | some root => Since (Ctx.rootHandles root) [] [] a b ∧ Pinned root b.fs ∧
      root.root ∈ Ctx.rootHandles root ∧ root.logical = logical

theorem ensures_openFixedRoot (hS : Polite S)
    (hlogical : ∀ part ∈ logical, (Name.text part).isQuarantine = false) :
    Ensures S (Since [] [] [] a) (ctx.openFixedRoot logical) (RootOpened logical a) := by
  have hrefuse : ∀ {kind : RemnantKind} {detail : String}, Ensures S (Since [] [] [] a)
      (refuse none logical kind detail) (RootOpened logical a) := by
    intro kind detail
    exact ensures_refuse fun b hb _ => hb
  have habandon : ∀ nodes : List Node, Ensures S (Since nodes [] [] a)
      (Ctx.abandon nodes) (RootOpened logical a) := by
    intro nodes
    refine ensures_abandon.weaken fun result b hb => ?_
    rw [hb.1]
    exact hb.2
  refine ensures_bind (ensures_lstatPath hS) fun result => ?_
  cases result with
  | error e => exact hrefuse
  | ok found =>
    obtain ⟨anchor, baseSeen⟩ := found
    dsimp only
    split
    · exact hrefuse
    refine ensures_bind (ensures_openDir hS) fun opened => ?_
    cases opened with
    | error e => exact hrefuse
    | ok base =>
      refine ensures_rebase fun b hab => ?_
      have hlt : base < b.fs.next := by
        refine Filesystem.lt_of_held ?_
        rw [hab.held]
        exact mem_cons_self
      have hback : ∀ m, Since [] [] [] b m → Since [base] [] [] a m := fun _ => hab.idle
      have hrefuseBase : ∀ {kind detail}, Ensures S (Since [] [] [] b)
          (do remnant logical kind detail; Ctx.abandon [base]) (RootOpened logical a) :=
        ensures_bind idles_remnant fun _ => (habandon [base]).strengthen hback
      refine (ensures_fstat hS hlt).bind fun st hst => ?_
      split
      · exact hrefuseBase
      refine (ensures_provenMountId hS hlt).bind fun mount hmount => ?_
      cases mount with
      | none => exact hrefuseBase
      | some id =>
        have hstart : ∀ m, Since [] [] [] b m →
            Since (chainHandles base []) [] [] a m ∧ ChainPinned m.fs logical [] := fun m hm =>
          ⟨hback m hm, fun _ hmem => absurd hmem not_mem_nil⟩
        refine ensures_bind ((ensures_openComponents hS fun _ h => h).strengthen hstart)
          fun chain => ?_
        cases chain with
        | none => exact ensures_pure fun c hc => hc
        | some chain =>
          dsimp only
          cases hlast : chain.getLast? with
          | none =>
            have hnil : chain = [] := getLast?_eq_none_iff.mp hlast
            subst hnil
            exact (habandon [base]).strengthen fun c hc => hc.1
          | some last =>
            have hmem : last ∈ chain := mem_of_getLast? hlast
            refine ensures_pure fun c hc => ⟨hc.1, ?_, ?_, rfl⟩
            · have hheld : last.handle ∈ c.fs.held := by
                rw [hc.1.held]
                refine mem_append_left _ (mem_append_left _ ?_)
                exact mem_reverse.mpr (mem_map_of_mem hmem)
              obtain ⟨⟨part, hpart, hname⟩, hnumber⟩ := hc.2 last hmem
              refine
                { base := ?_
                  chain := fun link hlink => (hc.2 link hlink).2.lt_next
                  held := hheld
                  dev := hnumber.dev
                  mount := hnumber.mount
                  entry := ⟨last, hmem, by rw [hname]; exact hlogical part hpart, hnumber⟩ }
              refine Filesystem.lt_of_held ?_
              rw [hc.1.held]
              exact mem_append_left _ (mem_append_right _ mem_cons_self)
            · refine mem_append_left _ ?_
              exact mem_reverse.mpr (mem_map_of_mem hmem)

/-! ## The pass -/

theorem ensures_classifyOpened (hS : Polite S) {before file} (hfile : file < a.fs.next) :
    Idles S nodes [] [] a (ctx.classifyOpened root logical before file) := by
  refine (ensures_fstat hS hfile).bind fun st _ => ?_
  split
  · exact idles_remnant
  refine (ensures_openedOnRootMount hS hfile).bind fun mount _ => ?_
  split
  · exact ensures_pure fun b hb => hb
  refine ensures_bind (ensures_readFile hS) fun raw => ?_
  cases raw with
  | error e => exact idles_remnant
  | ok raw =>
    dsimp only
    split
    · exact ensures_report fun reporter => Reporter.extends_configNote reporter _
    · refine ensures_report fun reporter => ?_
      refine (Reporter.extends_foldl Reporter.extends_configNote
        (ctx.classifyConfig raw).notes reporter).trans ?_
      exact Reporter.extends_foldl (fun r (item : String × String) =>
        Reporter.extends_external r item.1 item.2) _ _

theorem ensures_inspectConfiguration (hS : Polite S) :
    Idles S nodes [] [] a (ctx.inspectConfiguration root) := by
  refine ensures_bind (ensures_lstatAt hS) fun result => ?_
  cases result with
  | error e =>
    dsimp only
    split
    · exact ensures_pure fun b hb => hb
    · exact idles_remnant
  | ok before =>
    dsimp only
    split
    · exact idles_remnant
    refine ensures_bind (ensures_openFileAt hS) fun opened => ?_
    cases opened with
    | error e => exact idles_remnant
    | ok file =>
      refine ensures_rebase fun b hb => ?_
      have hlt : file < b.fs.next := Filesystem.lt_of_mem hb.2
      refine ensures_bind (ensures_classifyOpened hS hlt) fun _ => ?_
      exact ensures_close.strengthen fun _ => hb.1.idle

theorem not_isQuarantine_of_mem_purgeRoots (h : logical ∈ purgeRoots) :
    ∀ part ∈ logical, (Name.text part).isQuarantine = false := by
  have hall : ∀ logical ∈ purgeRoots, ∀ part ∈ logical,
      (Name.text part).isQuarantine = false := by decide
  exact hall logical h

theorem ensures_inspectExternalConfiguration (hS : Polite S) :
    Idles S [] [] [] a ctx.inspectExternalConfiguration := by
  have hroot : ∀ part ∈ ["etc", "facelock"], (Name.text part).isQuarantine = false :=
    not_isQuarantine_of_mem_purgeRoots (by decide)
  refine ensures_bind (ensures_openFixedRoot hS hroot) fun opened => ?_
  cases opened with
  | none => exact ensures_pure fun b hb => hb
  | some root =>
    refine ensures_bind ((ensures_inspectConfiguration hS).strengthen fun b hb => hb.1)
      fun _ => ?_
    have hclose : Ensures S (Since (Ctx.rootHandles root ++ []) [] [] a)
        (closeAll (Ctx.rootHandles root)) fun _ => Since [] [] [] a := ensures_closeAll
    rwa [append_nil] at hclose

variable {fuel : Nat}

theorem ensures_purgeRoot (hS : Polite S) (hsafe : Safe ctx a) (hpinned : Pinned root a.fs)
    (hheld : a.fs.held = handles) (hroot : root.root ∈ handles)
    (hlogical : root.logical ∈ purgeRoots) :
    Ensures S (Since [] [] [] a) (ctx.purgeRoot fuel root)
      fun ended b => Safe ctx b ∧ (ended = true → b.fs.held = handles) := by
  refine ensures_bind ensures_record fun _ => ?_
  refine ensures_rebase fun b hab => ?_
  have hlater : Later [] False a b := hab.later (by simp [RollbackFound])
  have hsafeB : Safe ctx b := hsafe.since hab (by simp [Event.isPlain])
  have hheldB : b.fs.held = handles := hlater.held.trans hheld
  have hinside : Inside root b :=
    ⟨hpinned.onward hlater.toOnward (by rw [hheldB]; exact hroot), by rw [hab.trace]; simp,
      hlogical⟩
  have hdone : ∀ c, Since [] [] [] b c → Safe ctx c ∧ c.fs.held = handles := fun c hc =>
    ⟨hsafeB.since hc (by simp), Eq.trans hc.held hheldB⟩
  refine (ensures_fixedRootIsCurrent hS hinside.pinned.base hinside.pinned.chain).bind
    fun isCurrent _ => ?_
  cases isCurrent with
  | false => exact ensures_pure fun c hc => ⟨(hdone c hc).1, fun _ => (hdone c hc).2⟩
  | true =>
    refine ensures_bind (ensures_openStream hS) fun pending => ?_
    cases pending with
    | error e =>
      exact ensures_refuse fun c hc _ => ⟨(hdone c hc).1, fun _ => (hdone c hc).2⟩
    | ok pending =>
      refine (ensures_traverse hS).strengthen fun c hc => ?_
      have hbc : Later [] False b c := hc.later (by simp [RollbackFound])
      have hpam : ∀ logical ∈ purgeRoots, ¬ pamBackupsLogical <+: logical := by decide
      refine
        { safe := (hdone c hc).1
          inside := hinside.later hbc
          held := (hdone c hc).2
          rootHeld := hroot
          frames := ?_
          nested := pairwise_singleton _ _ }
      intro frame hframe
      obtain rfl := mem_singleton.mp hframe
      exact ⟨by simp, prefix_rfl, fun _ => hpam _ hlogical, by simp⟩

theorem ensures_purgeLogical (hS : Polite S) (hlogical : logical ∈ purgeRoots) :
    Ensures S (Safe ctx) (ctx.purgeLogical fuel logical) fun _ => Safe ctx := by
  refine ensures_rebase fun a hsafe => ?_
  refine ensures_bind (ensures_interrupted hS) fun isInterrupted => ?_
  cases isInterrupted with
  | true => exact ensures_refuse fun b hb _ => hsafe.since hb (by simp)
  | false =>
    refine ensures_bind (ensures_isProtected.weaken fun _ b hb => hb.1) fun isProtected => ?_
    cases isProtected with
    | true => exact ensures_pure fun b hb => hsafe.since hb (by simp)
    | false =>
      refine ensures_bind (ensures_openFixedRoot hS
        (not_isQuarantine_of_mem_purgeRoots hlogical)) fun opened => ?_
      cases opened with
      | none => exact ensures_pure fun b hb => hsafe.since hb (by simp)
      | some root =>
        refine ensures_rebase fun b hb => ?_
        obtain ⟨hab, hpinned, hroot, rfl⟩ := hb
        refine ensures_bind (ensures_purgeRoot hS (hsafe.since hab (by simp)) hpinned hab.held
          (mem_append_left _ hroot) hlogical) fun ended => ?_
        cases ended with
        | false => exact ensures_pure fun c hc => hc.1
        | true =>
          refine ensures_bind (ensures_closeHeld.strengthen fun c hc => ⟨hc.1, hc.2 rfl⟩)
            fun _ => ?_
          exact ensures_pure fun c hc => hc.1

theorem ensures_purgeAll (hS : Polite S) {roots}
    (hroots : ∀ logical ∈ roots, logical ∈ purgeRoots) :
    Ensures S (Safe ctx) (ctx.purgeAll fuel roots) fun _ => Safe ctx := by
  induction roots with
  | nil => exact ensures_pure fun b hb => hb
  | cons logical roots ih =>
    refine ensures_bind (ensures_purgeLogical hS (hroots logical mem_cons_self))
      fun ended => ?_
    cases ended with
    | true => exact ih fun other hother => hroots other (mem_cons_of_mem _ hother)
    | false => exact ensures_pure fun b hb => hb

theorem ensures_refuseAll {kind detail roots} :
    Ensures S (Since nodes events touched a) (refuseAll kind detail roots)
      fun _ => Since nodes events touched a := by
  induction roots with
  | nil => exact ensures_pure fun b hb => hb
  | cons logical roots ih =>
    exact ensures_bind idles_remnant fun _ => ih

theorem ensures_run (hS : Polite S) {mode} :
    Ensures S (Safe ctx) (run ctx mode fuel) fun _ => Safe ctx := by
  refine ensures_rebase fun a hsafe => ?_
  have hdone : ∀ b, Since [] [] [] a b → Safe ctx b := fun b hb => hsafe.since hb (by simp)
  have hrefuse : ∀ {kind : RemnantKind} {detail : String}, Ensures S (Since [] [] [] a)
      (do refuseAll kind detail purgeRoots; return true : Pass Bool) fun _ => Safe ctx :=
    ensures_bind ensures_refuseAll fun _ => ensures_pure hdone
  refine ensures_bind (ensures_interrupted hS) fun isInterrupted => ?_
  cases isInterrupted with
  | true =>
    cases mode with
    | purge => exact hrefuse
    | report => exact ensures_pure hdone
  | false =>
    have hload : Ensures S (Since [] [] [] a)
        (.call fun _ machine => (.ok (), machine) : Pass (Except Errno Unit))
        fun _ => Since [] [] [] a :=
      ensures_call hS.stable (fun _ _ hb => hb) fun _ _ hb => hb
    refine ensures_bind hload fun loaded => ?_
    cases loaded with
    | error e =>
      cases mode with
      | purge => exact hrefuse
      | report =>
        exact ensures_bind
          (ensures_report fun reporter => Reporter.extends_configNote reporter _)
          fun _ => ensures_pure hdone
    | ok _ =>
      refine ensures_bind (ensures_inspectExternalConfiguration hS) fun _ => ?_
      cases mode with
      | purge => exact (ensures_purgeAll hS fun _ h => h).strengthen hdone
      | report => exact ensures_pure hdone

end

def Machine.start (fs : Filesystem) : Machine := { fs, reporter := {}, trace := [] }

/-- The state that a pass leaves among other processes. -/
def passAmong (ctx : Ctx) (mode : Mode) (fuel : Nat) (moves : Nat → List Move)
    (fails : Nat → Option Errno) (choose : Nat → Choice) (fs : Filesystem) : Machine :=
  ((run ctx mode fuel).run (schedule moves fails choose) ⟨0, .start fs⟩).2.state

/-- Every unlink of a pass is one that it may make, and none is at the path
of a root. -/
def OnlyDeletions (ctx : Ctx) (final : Machine) : Prop :=
  ∀ past rest logical kind dir qname node,
    final.trace = past ++ .unlinked logical kind dir qname node :: rest →
    Deletion ctx final.fs past logical kind dir qname node ∧ logical ∉ purgeRoots

/-- No root lies below another. -/
theorem eq_of_purgeRoots_le :
    ∀ above ∈ purgeRoots, ∀ logical ∈ purgeRoots, above <+: logical → above = logical := by
  decide

theorem Safe.onlyDeletions {ctx final} (h : Safe ctx final) : OnlyDeletions ctx final := by
  intro past rest logical kind dir qname node htrace
  have hdeletion := h.deletions _ _ _ _ _ _ _ htrace
  obtain ⟨above, root, -, habove, hbelow, hne, -⟩ := hdeletion.below
  exact ⟨hdeletion, fun hmem => hne (eq_of_purgeRoots_le above habove logical hmem hbelow)⟩

/-- An object that was moved from a public name but is not the one that was
opened there is moved back at once.  Or the report lists its quarantine
name, and there it is, unless the pass took that name up later as an entry
of its own. -/
def KeepsSwapped (ctx : Ctx) (final : Machine) : Prop :=
  ∀ past rest logical dir name qname node,
    final.trace = past ++ .quarantined logical dir name qname node :: rest →
    .opened logical dir name node ∉ past →
    rest.head? = some (.restored logical dir qname name node) ∨
      final.reporter.report.Lists (parentLogical logical ++ [ctx.lossyName qname]) ∧
        (⟨dir, qname, node⟩ ∈ final.fs.links ∨
          ∃ later qname', .quarantined later dir qname qname' node ∈ rest)

/-- An unlink right after a move is of the object that was opened. -/
theorem Safe.keepsSwapped {ctx final} (h : Safe ctx final) : KeepsSwapped ctx final := by
  intro past rest logical dir name qname node htrace hopened
  obtain ⟨-, ⟨kind, hhead⟩ | hrestored | hlisted⟩ := h.moves _ _ _ _ _ _ _ htrace
  · obtain ⟨tail, rfl⟩ : ∃ tail, rest = .unlinked logical kind dir qname node :: tail := by
      cases rest with
      | nil => cases hhead
      | cons first tail =>
        cases hhead
        exact ⟨tail, rfl⟩
    have hdeletion := h.deletions (past ++ [.quarantined logical dir name qname node]) tail
      logical kind dir qname node (by rw [htrace]; simp)
    obtain ⟨other, seen, hlast, hwas, -⟩ := hdeletion.inspected
    obtain rfl : other = name := by
      rw [getLast?_concat] at hlast
      cases hlast
      rfl
    refine absurd ?_ hopened
    simpa using hwas
  · exact .inl hrestored.1
  · exact .inr hlisted

/-- For every filesystem and every interleaving. -/
theorem purge_among_others (ctx : Ctx) (mode : Mode) (fuel : Nat) (moves : Nat → List Move)
    (fails : Nat → Option Errno) (choose : Nat → Choice) (fs : Filesystem) :
    OnlyDeletions ctx (passAmong ctx mode fuel moves fails choose fs) ∧
      KeepsSwapped ctx (passAmong ctx mode fuel moves fails choose fs) := by
  have hstart : Safe ctx (.start fs) :=
    ⟨by simp [Machine.start], by simp [Machine.start], by simp [Machine.start, RollbackFound]⟩
  have hsafe : Safe ctx (passAmong ctx mode fuel moves fails choose fs) :=
    ensures_run (polite_schedule moves fails choose) ⟨0, .start fs⟩ hstart
  exact ⟨hsafe.onlyDeletions, hsafe.keepsSwapped⟩

/-- A pass whose report is complete has unlinked whatever it moved to a
quarantine name, and has found no PAM rollback state. -/
theorem complete_pass_settles (ctx : Ctx) (mode : Mode) (fuel : Nat) (moves : Nat → List Move)
    (fails : Nat → Option Errno) (choose : Nat → Choice) (fs : Filesystem) {final : Machine}
    (hfinal : passAmong ctx mode fuel moves fails choose fs = final)
    (hcomplete : final.reporter.report.isComplete = true) :
    ¬RollbackFound final.trace ∧ ∀ past rest logical dir name qname node,
      final.trace = past ++ .quarantined logical dir name qname node :: rest →
      ∃ kind, rest.head? = some (.unlinked logical kind dir qname node) := by
  have hsafe : Safe ctx final := by
    rw [← hfinal]
    exact ensures_run (polite_schedule moves fails choose) ⟨0, .start fs⟩
      ⟨by simp [Machine.start], by simp [Machine.start], by simp [Machine.start, RollbackFound]⟩
  have hnone : ∀ logical, ¬final.reporter.report.Lists logical := by
    rintro logical ⟨remnant, hmem, -⟩
    simp only [PurgeReport.isComplete, Bool.and_eq_true, List.isEmpty_iff] at hcomplete
    rw [hcomplete.1.1] at hmem
    cases hmem
  refine ⟨fun hfound => hnone _ (Reporter.lists_of_isProtected (hsafe.rollback hfound)), ?_⟩
  intro past rest logical dir name qname node htrace
  -- what is moved back or stays is in the report, and a complete one is empty
  obtain ⟨-, hunlinked | ⟨-, hlisted⟩ | ⟨hlisted, -⟩⟩ := hsafe.moves _ _ _ _ _ _ _ htrace
  · exact hunlinked
  · exact absurd hlisted (hnone _)
  · exact absurd hlisted (hnone _)

/-! ## Protection goes by the name -/

/-- A root with a PAM rollback directory, that has an entry, and a file. -/
def sampleLinks : List Link :=
  [⟨0, .text "var", 1⟩, ⟨1, .text "lib", 2⟩, ⟨2, .text "facelock", 3⟩,
    ⟨3, .text "pam-backups", 4⟩, ⟨3, .text "a", 5⟩, ⟨4, .text "sudo", 6⟩]

/-- Everything belongs to root and lies on one mount. -/
def sampleAttributes (node : Node) : Attributes :=
  { dev := 1, ino := node + 1, mount := 20
    mode := if node < 5 then 0o040755 else 0o100600
    uid := 0, gid := 0 }

def sampleFs : Filesystem where
  anchor := 0
  attributes := sampleAttributes
  links := sampleLinks
  held := []
  next := 7
  unique := by decide
  once := by decide
  allocated := by
    rintro node (rfl | ⟨link, hlink, rfl⟩ | hheld)
    · decide
    · revert link
      decide
    · cases hheld
  apart := by
    intro a b _ _ _ hino _
    exact Nat.succ.inj hino
  anchor_unlinked := by decide

def sampleCtx : Ctx where
  options := {}
  mounts := { ids := [20], mountpoints := [[]] }
  replaced := fun _ => ""
  classifyConfig := fun _ => { external := [], notes := [] }

/-- Names that appear while the root is read are listed too. -/
def renamingChoice : Choice where
  listing names :=
    if names = [.text "pam-backups", .text "a"] then
      [.text "pam-backups", .text "zz", .text "a", .text "c"]
    else names
  interrupted := false

/-- Another process renames the rollback directory once it was inspected.
Later it puts a file of its own in the place of `a` just before the move,
and renames that file once it has been moved back. -/
def renamingMoves (call : Nat) : List Move :=
  if call = 60 then [.rename (3, .text "pam-backups") (3, .text "zz")]
  else if call = 199 then
    [.create 3 (.text "b") (sampleAttributes 50), .rename (3, .text "b") (3, .text "a")]
  else if call = 205 then [.rename (3, .text "a") (3, .text "c")]
  else []

/-- The entry `6` of the rollback directory `4` is removed after that
directory was found with an entry.  The object `7`, which was put in the
place of `a`, is moved back, and removed under its next name. -/
theorem protection_by_name :
    let final := passAmong sampleCtx .purge 20 renamingMoves (fun _ => none)
      (fun _ => renamingChoice) sampleFs
    let root : Path := ["var", "lib", "facelock"]
    (.foundRollback 4 ∈ final.trace.take 9 ∧
      final.trace[9]? = some (.unlinked (root ++ ["zz", "sudo"]) .file 4
        (.text ".facelock-purge-1-7-00") 6)) ∧
    (.opened (root ++ ["a"]) 3 (.text "a") 7 ∉ final.trace.take 14 ∧
      final.trace[14]? = some (.quarantined (root ++ ["a"]) 3 (.text "a")
        (.text ".facelock-purge-1-6-00") 7) ∧
      .unlinked (root ++ ["c"]) .file 3 (.text ".facelock-purge-1-33-00") 7 ∈
        final.trace.drop 15) := by
  decide +kernel

/-- Another process empties the rollback directory before the pass. -/
def emptiedPass : Machine :=
  passAmong sampleCtx .purge 20 (fun call => if call = 0 then [.remove (4, .text "sudo")] else [])
    (fun _ => none) (fun _ => { listing := id, interrupted := false }) sampleFs

/-- The empty rollback directory is moved and unlinked. -/
theorem complete_pass_settles_emptied :
    let rollback : Path := ["var", "lib", "facelock", "pam-backups"]
    let qname : Name := .text ".facelock-purge-1-5-00"
    ¬RollbackFound emptiedPass.trace ∧
      emptiedPass.trace[3]? = some (.quarantined rollback 3 (.text "pam-backups") qname 4) ∧
      ∃ kind, emptiedPass.trace[4]? = some (.unlinked rollback kind 3 qname 4) := by
  intro rollback qname
  obtain ⟨hrollback, hmoves⟩ := complete_pass_settles _ _ _ _ _ _ _
    (show _ = emptiedPass from rfl) (by decide +kernel)
  have htrace : emptiedPass.trace = emptiedPass.trace.take 3 ++
      .quarantined rollback 3 (.text "pam-backups") qname 4 :: emptiedPass.trace.drop 4 := by
    decide +kernel
  obtain ⟨kind, hhead⟩ := hmoves _ _ _ _ _ _ _ htrace
  rw [head?_drop] at hhead
  exact ⟨hrollback, by decide +kernel, kind, hhead⟩

end Facelock.Purge
