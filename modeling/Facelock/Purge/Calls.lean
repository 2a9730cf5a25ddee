import Facelock.Purge.Engine

/-!
# What the calls of a purge leave alone

`Since` compares two states of a pass: which descriptors were opened, which
events were recorded and which quarantine names were touched in between.
Everything else that later steps rely on is in its fields.  The attributes
of an object never change, the quarantine names that were not touched lead
to the same objects, and the report has only grown.  Other processes keep
`Since` (`Polite`), so it is the precondition of every call here.

The first lemmas are one rule for each call.  The others are the checks
that the engine repeats before it deletes: the fixed chain, the chain of
the traversal and the mount.  `ensures_fixedRootIsCurrent` says what the
engine has seen when the check succeeds: at one moment every component of
the chain was the pinned directory.
-/

namespace Facelock.Purge

open Interference List

/-- Other processes keep to what `Undisturbed` allows. -/
structure Polite (S : Schedule Machine Errno Choice) : Prop where
  fs : ∀ n (machine : Machine), machine.fs.Undisturbed (S.interfere n machine).fs
  reporter : ∀ n machine, (S.interfere n machine).reporter = machine.reporter
  trace : ∀ n machine, (S.interfere n machine).trace = machine.trace

theorem polite_schedule (moves : Nat → List Move) (fails : Nat → Option Errno)
    (choose : Nat → Choice) : Polite (schedule moves fails choose) where
  fs n machine := Filesystem.undisturbed_moves (moves n) machine.fs
  reporter _ _ := rfl
  trace _ _ := rfl

/-! ## Two states of a pass -/

/-- From `a` to `b` the pass opened `nodes`, recorded `events`, and used no
quarantine name but those in `touched`. -/
structure Since (nodes : List Node) (events : List Event) (touched : List (Node × Name))
    (a b : Machine) : Prop where
  held : b.fs.held = nodes ++ a.fs.held
  next : a.fs.next ≤ b.fs.next
  attributes : ∀ node < a.fs.next, b.fs.attributes node = a.fs.attributes node
  quarantined : ∀ link, link.name.isQuarantine → link.key ∉ touched →
    (link ∈ b.fs.links ↔ link ∈ a.fs.links)
  reporter : a.reporter.Extends b.reporter
  trace : b.trace = a.trace ++ events

variable {node : Node}

namespace Since

variable {nodes nodes' : List Node} {events events' : List Event}
  {touched touched' : List (Node × Name)} {a b c : Machine}

theorem refl (a : Machine) : Since [] [] [] a a where
  held := rfl
  next := Nat.le_refl _
  attributes _ _ := rfl
  quarantined _ _ _ := Iff.rfl
  reporter := .refl _
  trace := (append_nil _).symm

theorem trans (hab : Since nodes events touched a b) (hbc : Since nodes' events' touched' b c) :
    Since (nodes' ++ nodes) (events ++ events') (touched ++ touched') a c where
  held := by rw [hbc.held, hab.held, append_assoc]
  next := Nat.le_trans hab.next hbc.next
  attributes node hnode :=
    (hbc.attributes node (Nat.lt_of_lt_of_le hnode hab.next)).trans (hab.attributes node hnode)
  quarantined link hlink hkey := by
    simp only [mem_append, not_or] at hkey
    exact (hbc.quarantined link hlink hkey.2).trans (hab.quarantined link hlink hkey.1)
  reporter := hab.reporter.trans hbc.reporter
  trace := by rw [hbc.trace, hab.trace, append_assoc]

theorem idle (hab : Since nodes events touched a b) (hbc : Since [] [] [] b c) :
    Since nodes events touched a c := by
  simpa using hab.trans hbc

theorem lt_next (h : Since nodes events touched a b) (hnode : node < a.fs.next) :
    node < b.fs.next :=
  Nat.lt_of_lt_of_le hnode h.next

theorem mem_trace (h : Since nodes events touched a b) {event} (hevent : event ∈ a.trace) :
    event ∈ b.trace := by
  rw [h.trace]
  exact mem_append_left _ hevent

end Since

/-- The program changes nothing of what is compared. -/
abbrev Idles {α : Type} (S : Schedule Machine Errno Choice) (nodes : List Node)
    (events : List Event) (touched : List (Node × Name)) (a : Machine) (program : Pass α) : Prop :=
  Ensures S (Since nodes events touched a) program fun _ => Since nodes events touched a

/-- The program changes nothing of that either, and its result has `fact`. -/
abbrev Learns {α : Type} (S : Schedule Machine Errno Choice) (nodes : List Node)
    (events : List Event) (touched : List (Node × Name)) (a : Machine) (program : Pass α)
    (fact : α → Prop) : Prop :=
  Ensures S (Since nodes events touched a) program
    fun result b => Since nodes events touched a b ∧ fact result

section Calls

variable {S : Schedule Machine Errno Choice} {nodes : List Node} {events : List Event}
  {touched : List (Node × Name)} {a : Machine}

theorem Learns.bind {α β : Type} {program : Pass α} {next : α → Pass β} {fact post}
    (h : Learns S nodes events touched a program fact)
    (hnext : ∀ value, fact value → Ensures S (Since nodes events touched a) (next value) post) :
    Ensures S (Since nodes events touched a) (program >>= next) post :=
  ensures_bind h fun value => ensures_of_fact (hnext value)

theorem Polite.stable (hS : Polite S) : Stable S (Since nodes events touched a) := by
  intro n b hb
  have hfs := hS.fs n b
  have hmoved : Since [] [] [] b (S.interfere n b) :=
    { held := hfs.held
      next := hfs.next
      attributes := hfs.attributes
      quarantined := fun link hlink _ => hfs.quarantined link hlink
      reporter := by rw [hS.reporter]; exact .refl _
      trace := by rw [hS.trace, append_nil] }
  exact hb.idle hmoved

theorem ensures_rebase {α : Type} {pre program} {post : α → Machine → Prop}
    (h : ∀ b, pre b → Ensures S (Since [] [] [] b) program post) : Ensures S pre program post :=
  ensures_of_forall fun b hb => (h b hb).strengthen fun _ hc => hc ▸ Since.refl _

/-! ## One rule for each call -/

theorem ensures_report {f} (hf : ∀ r : Reporter, r.Extends (f r)) :
    Idles S nodes events touched a (report f) := by
  refine ensures_update fun b hb => ?_
  exact { hb with reporter := hb.reporter.trans (hf _) }

variable {logical : Path}

theorem ensures_remnant {kind detail} :
    Ensures S (Since nodes events touched a) (remnant logical kind detail)
      fun _ b => Since nodes events touched a b ∧ b.reporter.isProtected logical := by
  unfold remnant report
  refine ensures_update fun b hb => ⟨?_, by simp [Reporter.isProtected_remnant]⟩
  exact { hb with reporter := hb.reporter.trans (Reporter.extends_remnant ..) }

theorem idles_remnant {kind detail} :
    Idles S nodes events touched a (remnant logical kind detail) :=
  ensures_remnant.weaken fun _ _ hb => hb.1

theorem ensures_refuse {α : Type} {value : α} {kind detail post}
    (h : ∀ b, Since nodes events touched a b → b.reporter.isProtected logical → post value b) :
    Ensures S (Since nodes events touched a) (refuse value logical kind detail) post :=
  ensures_bind ensures_remnant fun _ => ensures_pure fun b hb => h b hb.1 hb.2

theorem ensures_isProtected :
    Ensures S (Since nodes events touched a) (isProtected logical)
      fun result b => Since nodes events touched a b ∧
        (result = false → b.reporter.isProtected logical = false) :=
  ensures_update fun _ hb => ⟨hb, fun h => h⟩

theorem ensures_record {event} :
    Ensures S (Since nodes events touched a) (record event)
      fun _ => Since nodes (events ++ [event]) touched a := by
  refine ensures_update fun b hb => ?_
  exact { hb with trace := by rw [hb.trace, append_assoc] }

theorem ensures_interrupted (hS : Polite S) : Idles S nodes events touched a interrupted :=
  ensures_observe hS.stable fun _ _ hb => hb

theorem ensures_lstatPath (hS : Polite S) : Idles S nodes events touched a lstatPath :=
  ensures_call hS.stable (fun _ _ hb => hb) fun _ _ hb => hb

variable {dir : Node} {name : Name}

theorem ensures_lstatAt (hS : Polite S) : Idles S nodes events touched a (lstatAt dir name) :=
  ensures_call hS.stable (fun _ _ hb => hb) fun _ _ hb => hb

/-- All of a stat but the link count is fixed. -/
theorem Since.stat_eq {b} (h : Since nodes events touched a b) (hnode : node < a.fs.next) :
    b.fs.stat node = { a.fs.stat node with nlink := (b.fs.stat node).nlink } := by
  simp [Filesystem.stat, h.attributes node hnode]

theorem ensures_fstat (hS : Polite S) (hnode : node < a.fs.next) :
    Learns S nodes events touched a (fstat node) fun result =>
      ∀ st, result = .ok st → st = { a.fs.stat node with nlink := st.nlink } := by
  refine ensures_call hS.stable (fun _ _ hb => ⟨hb, by simp⟩) fun _ b hb => ⟨hb, ?_⟩
  intro st hst
  obtain rfl := (Except.ok.inj hst).symm
  exact hb.stat_eq hnode

theorem ensures_mountId (hS : Polite S) (hnode : node < a.fs.next) :
    Learns S nodes events touched a (mountId node) fun result =>
      ∀ id, result = some id → id = (a.fs.attributes node).mount := by
  have hcall : Learns S nodes events touched a
      (.call fun _ machine => (.ok (machine.fs.attributes node).mount, machine))
      fun result => ∀ id, result = .ok id → id = (a.fs.attributes node).mount := by
    refine ensures_call hS.stable (fun _ _ hb => ⟨hb, by simp⟩) fun _ b hb => ⟨hb, ?_⟩
    intro id hid
    rw [← Except.ok.inj hid, hb.attributes node hnode]
  refine ensures_bind hcall fun result => ensures_pure fun b hb => ⟨hb.1, ?_⟩
  cases result with
  | error e => simp [Except.toOption]
  | ok id => simpa [Except.toOption] using hb.2

theorem Since.hold {b} (h : Since nodes events touched a b) (hnode : b.fs.InUse node) :
    Since (node :: nodes) events touched a { b with fs := b.fs.hold node hnode } :=
  { h with
    held := by
      show node :: b.fs.held = _
      rw [h.held, cons_append] }

theorem Since.close {b} (h : Since (node :: nodes) events touched a b) :
    Since nodes events touched a { b with fs := b.fs.close node } :=
  { h with
    held := by
      show b.fs.held.erase node = _
      rw [h.held, cons_append, erase_cons_head] }

theorem ensures_openDir (hS : Polite S) :
    Ensures S (Since nodes events touched a) openDir
      fun result b => match result with
        | .error _ => Since nodes events touched a b
        | .ok node => Since (node :: nodes) events touched a b :=
  ensures_call hS.stable (fun _ _ hb => hb) fun _ _ hb => hb.hold (.inl rfl)

theorem ensures_openDirAt (hS : Polite S) :
    Ensures S (Since nodes events touched a) (openDirAt dir name)
      fun result b => match result with
        | .error _ => Since nodes events touched a b
        | .ok node => Since (node :: nodes) events touched a b ∧ ⟨dir, name, node⟩ ∈ b.fs.links ∧
          (b.fs.attributes node).isDir := by
  refine ensures_call hS.stable (fun _ _ hb => hb) fun _ b hb => ?_
  obtain ⟨e, h⟩ | ⟨node, hnode, hlink, hdir, h⟩ := b.fs.openDirAt_cases dir name
  · simp only [h]
    exact hb
  · simp only [h]
    exact ⟨hb.hold hnode, hlink, hdir⟩

theorem ensures_openFileAt (hS : Polite S) :
    Ensures S (Since nodes events touched a) (openFileAt dir name)
      fun result b => match result with
        | .error _ => Since nodes events touched a b
        | .ok node => Since (node :: nodes) events touched a b ∧
          ⟨dir, name, node⟩ ∈ b.fs.links := by
  refine ensures_call hS.stable (fun _ _ hb => hb) fun _ b hb => ?_
  obtain ⟨e, h⟩ | ⟨node, hnode, hlink, h⟩ := b.fs.openFileAt_cases dir name
  · simp only [h]
    exact hb
  · simp only [h]
    exact ⟨hb.hold hnode, hlink⟩

theorem ensures_close :
    Ensures S (Since (node :: nodes) events touched a) (close node)
      fun _ => Since nodes events touched a :=
  ensures_update fun _ hb => hb.close

theorem ensures_closeAll {opened} :
    Ensures S (Since (opened ++ nodes) events touched a) (closeAll opened)
      fun _ => Since nodes events touched a := by
  induction opened with
  | nil => exact ensures_pure fun _ hb => hb
  | cons node opened ih => exact ensures_bind ensures_close fun _ => ih

theorem Since.touch {b touched'} (h : Since nodes events touched a b)
    (hsub : ∀ key ∈ touched, key ∈ touched') : Since nodes events touched' a b :=
  { h with
    quarantined := fun link hlink hkey =>
      h.quarantined link hlink fun hmem => hkey (hsub _ hmem) }

/-- A rename fails, or takes the object of one name to another that was
free. -/
theorem ensures_renameNoreplace (hS : Polite S) {source target event} :
    Ensures S (Since nodes events touched a) (renameNoreplace dir source target event)
      fun result b => match result with
        | .error _ => Since nodes events touched a b
        | .ok () => ∃ node,
          Since nodes (events ++ [event node]) ((dir, source) :: (dir, target) :: touched) a b ∧
          ⟨dir, target, node⟩ ∈ b.fs.links ∧
          (source.isQuarantine → (dir, source) ∉ touched → ⟨dir, source, node⟩ ∈ a.fs.links) ∧
          (target.isQuarantine → (dir, target) ∉ touched →
            ∀ link ∈ a.fs.links, link.key ≠ (dir, target)) := by
  refine ensures_call hS.stable (fun _ _ hb => hb) fun _ b hb => ?_
  obtain ⟨e, h⟩ | ⟨node, hfree, hlink, h⟩ := b.fs.renameNoreplace_cases dir source target
  · simp only [h]
    exact hb
  · simp only [h]
    refine ⟨node, ?_, Filesystem.mem_relink_target hlink, ?_, ?_⟩
    · refine { hb with quarantined := ?_, trace := ?_ }
      · intro link hq hkey
        simp only [mem_cons, not_or] at hkey
        have hkept : link ∈ (b.fs.relink (dir, source) (dir, target) hfree).links ↔
            link ∈ b.fs.links := Filesystem.mem_relink_of_ne hkey.1 hkey.2.1
        exact hkept.trans (hb.quarantined link hq hkey.2.2)
      · show b.trace ++ [event node] = _
        rw [hb.trace, append_assoc]
    · intro hq hkey
      exact (hb.quarantined ⟨dir, source, node⟩ hq hkey).mp hlink
    · rintro hq hkey ⟨d, n, x⟩ hmem ⟨rfl, rfl⟩
      exact hfree _ ((hb.quarantined ⟨_, _, x⟩ hq hkey).mpr hmem) rfl

/-- An unlink fails, or removes the name of an object of the right kind. -/
theorem ensures_unlinkAt (hS : Polite S) {qname removeDir event} (hq : qname.isQuarantine)
    (hlink : ⟨dir, qname, node⟩ ∈ a.fs.links) (hkey : (dir, qname) ∉ touched) :
    Ensures S (Since nodes events touched a) (unlinkAt dir qname removeDir event)
      fun result b => match result with
        | .error _ => Since nodes events touched a b
        | .ok () => Since nodes (events ++ [event node]) ((dir, qname) :: touched) a b := by
  refine ensures_call hS.stable (fun _ _ hb => hb) fun _ b hb => ?_
  obtain ⟨e, h⟩ | ⟨other, hother, -, h⟩ := b.fs.unlinkAt_cases dir qname removeDir
  · simp only [h]
    exact hb
  · simp only [h]
    have hthere := (hb.quarantined ⟨dir, qname, node⟩ hq hkey).mpr hlink
    obtain rfl : other = node := congrArg Link.node (Filesystem.key_inj hother hthere rfl)
    refine { hb with quarantined := ?_, trace := ?_ }
    · intro link hq' hkey'
      simp only [mem_cons, not_or] at hkey'
      exact (Filesystem.mem_detach.trans (and_iff_left hkey'.1)).trans
        (hb.quarantined link hq' hkey'.2)
    · show b.trace ++ [event other] = _
      rw [hb.trace, append_assoc]

theorem ensures_openStream (hS : Polite S) : Idles S nodes events touched a (openStream node) :=
  ensures_call hS.stable (fun _ _ hb => hb) fun _ _ hb => hb

theorem ensures_nextEntry (hS : Polite S) {pending} :
    Idles S nodes events touched a (nextEntry pending) := by
  refine ensures_call hS.stable (fun _ _ hb => hb) fun _ b hb => ?_
  cases pending <;> exact hb

theorem ensures_rewind (hS : Polite S) : Idles S nodes events touched a (rewind node) :=
  ensures_observe hS.stable fun _ _ hb => hb

theorem ensures_finishStream (hS : Polite S) : Idles S nodes events touched a finishStream :=
  ensures_call hS.stable (fun _ _ hb => hb) fun _ _ hb => hb

theorem ensures_readFile (hS : Polite S) : Idles S nodes events touched a (readFile node) :=
  ensures_call hS.stable (fun _ _ hb => hb) fun _ _ hb => hb

/-! ## Checks -/

variable {ctx : Ctx}

theorem ensures_provenMountId (hS : Polite S) (hnode : node < a.fs.next) :
    Learns S nodes events touched a (ctx.provenMountId node) fun result =>
      ∀ id, result = some id → id = (a.fs.attributes node).mount := by
  refine (ensures_mountId hS hnode).bind fun result hresult => ?_
  cases result with
  | none => exact ensures_pure fun b hb => ⟨hb, by simp⟩
  | some id =>
    dsimp only
    split
    · exact ensures_pure fun b hb => ⟨hb, hresult⟩
    · exact ensures_pure fun b hb => ⟨hb, by simp⟩

/-- The number and the mount of an object. -/
structure Numbered (fs : Filesystem) (node : Node) (dev ino mount : Nat) : Prop where
  lt_next : node < fs.next
  dev : (fs.attributes node).dev = dev
  ino : (fs.attributes node).ino = ino
  mount : (fs.attributes node).mount = mount

theorem Numbered.mono {fs fs' dev ino mount} (h : Numbered fs node dev ino mount)
    (hnext : fs.next ≤ fs'.next)
    (hattributes : ∀ node < fs.next, fs'.attributes node = fs.attributes node) :
    Numbered fs' node dev ino mount := by
  obtain ⟨hlt, hdev, hino, hmount⟩ := h
  rw [← hattributes node hlt] at hdev hino hmount
  exact ⟨Nat.lt_of_lt_of_le hlt hnext, hdev, hino, hmount⟩

theorem Since.numbered {b dev ino mount} (h : Since nodes events touched a b)
    (hnode : Numbered a.fs node dev ino mount) : Numbered b.fs node dev ino mount :=
  hnode.mono h.next h.attributes

/-- An object whose stat was compared with the one that was inspected. -/
theorem numbered_of_seen {before seen : Stat} {mount} (hlt : node < a.fs.next)
    (hseen : seen = { a.fs.stat node with nlink := seen.nlink })
    (h : before.dev = seen.dev ∧ before.ino = seen.ino)
    (hmount : (a.fs.attributes node).mount = mount) :
    Numbered a.fs node before.dev before.ino mount := by
  rw [hseen] at h
  exact ⟨hlt, h.1.symm, h.2.symm, hmount⟩

/-- At one moment since `a` the name of the link led to a directory with
the pinned number on the pinned mount. -/
def WasCurrent (events : List Event) (touched : List (Node × Name)) (a : Machine)
    (link : ChainLink) : Prop :=
  ∃ nodes b current, Since nodes events touched a b ∧
    ⟨link.parent, link.name, current⟩ ∈ b.fs.links ∧ (b.fs.attributes current).isDir ∧
    Numbered b.fs current link.before.dev link.before.ino link.mountId

theorem toOption_any_eq_true {ε α : Type} {result : Except ε α} {p} :
    result.toOption.any p = true ↔ ∃ value, result = .ok value ∧ p value = true := by
  cases result <;> simp [Except.toOption]

/-- A comparison that did not fail was made. -/
theorem exists_of_not_any {ε α : Type} {result : Except ε α} {p}
    (h : ¬(!result.toOption.any p) = true) : ∃ value, result = .ok value ∧ p value = true :=
  toOption_any_eq_true.mp (by simpa using h)

variable {root : OpenedRoot} {chain : List ChainLink}

theorem ensures_fixedChainIsCurrent (hS : Polite S)
    (hchain : ∀ link ∈ chain, link.handle < a.fs.next) :
    Learns S nodes events touched a (ctx.fixedChainIsCurrent root chain) fun result =>
      result = true → ∀ link ∈ chain, WasCurrent events touched a link := by
  induction chain with
  | nil => exact ensures_pure fun b hb => ⟨hb, by simp⟩
  | cons first chain ih =>
    have hrefuse : ∀ {nodes detail}, Learns S nodes events touched a
        (refuse false root.logical .changedDuringTraversal detail) fun result =>
          result = true → ∀ link ∈ first :: chain, WasCurrent events touched a link :=
      ensures_refuse fun b hb _ => ⟨hb, by simp⟩
    refine ensures_bind (ensures_lstatAt hS) fun named => ?_
    refine (ensures_fstat hS (hchain first mem_cons_self)).bind fun opened _ => ?_
    split
    · exact hrefuse
    · refine ensures_bind (ensures_openDirAt hS) fun reopened => ?_
      cases reopened with
      | error e => exact hrefuse
      | ok current =>
        refine ensures_rebase fun b hb => ?_
        obtain ⟨hab, hlink, hdir⟩ := hb
        have hlt : current < b.fs.next := Filesystem.lt_of_mem hlink
        refine (ensures_fstat hS hlt).bind fun st hst => ?_
        refine (ensures_provenMountId hS hlt).bind fun mount hmount => ?_
        refine ensures_bind (ensures_close.strengthen fun _ => hab.idle) fun _ => ?_
        split
        · exact hrefuse
        · rename_i hcurrent
          simp only [Bool.not_eq_true', Bool.not_eq_false, Bool.and_eq_true, beq_iff_eq,
            toOption_any_eq_true] at hcurrent
          obtain ⟨⟨seen, rfl, hsame⟩, rfl⟩ := hcurrent
          have hseen : WasCurrent events touched a first :=
            ⟨_, b, current, hab, hlink, hdir, numbered_of_seen hlt (hst seen rfl)
              (Stat.sameDirectoryIdentity_number hsame) (hmount _ rfl).symm⟩
          refine (ih fun other hother => hchain other (mem_cons_of_mem _ hother)).weaken ?_
          intro result c hc
          exact ⟨hc.1, fun h => forall_mem_cons.mpr ⟨hseen, hc.2 h⟩⟩

theorem ensures_fixedRootIsCurrent (hS : Polite S) (hbase : root.base < a.fs.next)
    (hchain : ∀ link ∈ root.chain, link.handle < a.fs.next) :
    Learns S nodes events touched a (ctx.fixedRootIsCurrent root) fun result =>
      result = true → ∀ link ∈ root.chain, WasCurrent events touched a link := by
  refine ensures_bind (ensures_lstatPath hS) fun named => ?_
  refine (ensures_fstat hS hbase).bind fun opened _ => ?_
  refine (ensures_provenMountId hS hbase).bind fun mount _ => ?_
  split
  · exact ensures_refuse fun b hb _ => ⟨hb, by simp⟩
  · exact ensures_fixedChainIsCurrent hS hchain

theorem ensures_traversalChainIsCurrent (hS : Polite S)
    (hchain : ∀ link ∈ chain, link.handle < a.fs.next) :
    Idles S nodes events touched a (ctx.traversalChainIsCurrent logical chain) := by
  induction chain with
  | nil => exact ensures_pure fun b hb => hb
  | cons link chain ih =>
    have hhandle := hchain link mem_cons_self
    refine ensures_bind (ensures_lstatAt hS) fun named => ?_
    refine (ensures_fstat hS hhandle).bind fun opened _ => ?_
    refine (ensures_provenMountId hS hhandle).bind fun mount _ => ?_
    split
    · exact ensures_refuse fun b hb _ => hb
    · exact ih fun other hother => hchain other (mem_cons_of_mem _ hother)

theorem ensures_chainsAreCurrent (hS : Polite S) (hbase : root.base < a.fs.next)
    (hroot : ∀ link ∈ root.chain, link.handle < a.fs.next)
    (hchain : ∀ link ∈ chain, link.handle < a.fs.next) :
    Learns S nodes events touched a (ctx.chainsAreCurrent root chain logical) fun result =>
      result = true → ∀ link ∈ root.chain, WasCurrent events touched a link := by
  refine (ensures_fixedRootIsCurrent hS hbase hroot).bind fun current hseen => ?_
  cases current with
  | false => exact ensures_pure fun b hb => ⟨hb, by simp⟩
  | true =>
    exact (ensures_traversalChainIsCurrent hS hchain).weaken fun _ b hb => ⟨hb, fun _ => hseen rfl⟩

/-- What a successful mount check says about an opened object. -/
structure OnRootMount (ctx : Ctx) (root : OpenedRoot) (fs : Filesystem) (node : Node)
    (logical : Path) : Prop where
  dev : (fs.attributes node).dev = root.dev
  mount : (fs.attributes node).mount = root.mountId
  notMountpoint : ctx.isMountpoint logical = false

theorem ensures_openedOnRootMount (hS : Polite S) (hnode : node < a.fs.next) :
    Learns S nodes events touched a (ctx.openedOnRootMount node root logical) fun result =>
      ∀ id, result = some id → OnRootMount ctx root a.fs node logical := by
  refine (ensures_fstat hS hnode).bind fun st hst => ?_
  refine (ensures_provenMountId hS hnode).bind fun mount hmount => ?_
  split
  · rename_i h
    simp only [Bool.and_eq_true, beq_iff_eq, toOption_any_eq_true, Bool.not_eq_true'] at h
    obtain ⟨⟨⟨seen, rfl, hdev⟩, rfl⟩, hpoint⟩ := h
    refine ensures_pure fun b hb => ⟨hb, fun _ _ => ⟨?_, (hmount _ rfl).symm, hpoint⟩⟩
    rw [← hdev, hst seen rfl]
    rfl
  · exact ensures_refuse fun b hb _ => ⟨hb, by simp⟩

end Calls

end Facelock.Purge
