import Mathlib.Data.List.Basic

/-!
# The report of a purge

What was deleted, what was kept, and why.  A `Reporter` collects the report
during a pass.  It drops a second finding about the same path, and it keeps
the paths that the traversal must not touch any more.  Its two fields say
how these fit together: a path is protected exactly if it was reported, and
every reported path is in the report.

A logical path is the list of its components.  The components come from
directory entries, so none of them holds a slash.
-/

namespace Facelock.Purge

open List

/-- A logical path, without the leading slash. -/
abbrev Path := List String

instance : LawfulBEq Path := inferInstanceAs (LawfulBEq (List String))

inductive RemnantKind where
  | symbolicLink
  | hardLink
  | nonRegular
  | untrustedOwnershipOrMode
  | mountBoundary
  | depthLimitExceeded
  | nodeLimitExceeded
  | changedDuringTraversal
  | quarantineCollision
  | quarantineRetained
  | restoredAfterQuarantine
  | pamRollbackState
  | mountTopologyUnavailable
  | externalHardLink
  | inaccessible
  | interrupted
  deriving DecidableEq

/-- An object that was kept inside a root. -/
structure Remnant where
  logical : Path
  kind : RemnantKind
  detail : String

/-- A configured path outside every root. -/
structure ExternalRemnant where
  field : String
  path : String

inductive RemovedKind where
  | file
  | directory
  deriving DecidableEq

structure Removed where
  logical : Path
  kind : RemovedKind

structure PurgeReport where
  removed : List Removed := []
  remnants : List Remnant := []
  external : List ExternalRemnant := []
  configNote : Option String := none

namespace PurgeReport

def isComplete (report : PurgeReport) : Bool :=
  report.remnants.isEmpty && report.external.isEmpty && report.configNote.isNone

/-- The report lists a remnant at the path. -/
def Lists (report : PurgeReport) (logical : Path) : Prop :=
  ∃ remnant ∈ report.remnants, remnant.logical = logical

theorem Lists.mono {a b : PurgeReport} {logical} (h : a.Lists logical)
    (hsub : ∀ remnant ∈ a.remnants, remnant ∈ b.remnants) : b.Lists logical := by
  obtain ⟨remnant, hmem, hpath⟩ := h
  exact ⟨remnant, hsub remnant hmem, hpath⟩

end PurgeReport

/-- The key under which a finding counts as repeated. -/
inductive Finding where
  | remnant (logical : Path)
  | externalHardlink (logical : Path)
  | external (field path : String)
  deriving DecidableEq

structure Reporter where
  report : PurgeReport := {}
  safeguarded : List Path := []
  seen : List Finding := []
  guards : ∀ logical, logical ∈ safeguarded ↔ Finding.remnant logical ∈ seen := by simp
  listed : ∀ logical, Finding.remnant logical ∈ seen → report.Lists logical := by simp

namespace Reporter

def remnant (reporter : Reporter) (logical : Path) (kind : RemnantKind) (detail : String) :
    Reporter :=
  if h : Finding.remnant logical ∈ reporter.seen then reporter
  else
    { report :=
        { reporter.report with
          remnants := reporter.report.remnants ++ [{ logical, kind, detail }] }
      safeguarded := logical :: reporter.safeguarded
      seen := .remnant logical :: reporter.seen
      guards := by simp [reporter.guards]
      listed := by
        intro path hpath
        rcases mem_cons.mp hpath with hpath | hpath
        · cases hpath
          exact ⟨_, mem_append_right _ (mem_singleton_self _), rfl⟩
        · exact (reporter.listed path hpath).mono fun _ h => mem_append_left _ h }

/-- A hard link that turned up after the unlink.  The name is gone already,
so the path is not protected. -/
def externalHardlink (reporter : Reporter) (logical : Path) : Reporter :=
  if Finding.externalHardlink logical ∈ reporter.seen then reporter
  else
    { report :=
        { reporter.report with
          remnants := reporter.report.remnants ++
            [{ logical
               kind := .externalHardLink
               detail := "inode remains linked after quarantine unlink" }] }
      safeguarded := reporter.safeguarded
      seen := .externalHardlink logical :: reporter.seen
      guards := by simp [reporter.guards]
      listed := by
        intro path hpath
        rw [mem_cons, or_iff_right (by simp)] at hpath
        exact (reporter.listed path hpath).mono fun _ h => mem_append_left _ h }

def external (reporter : Reporter) (field path : String) : Reporter :=
  if Finding.external field path ∈ reporter.seen then reporter
  else
    { report :=
        { reporter.report with external := reporter.report.external ++ [{ field, path }] }
      safeguarded := reporter.safeguarded
      seen := .external field path :: reporter.seen
      guards := by simp [reporter.guards]
      listed := by
        intro path hpath
        rw [mem_cons, or_iff_right (by simp)] at hpath
        exact reporter.listed path hpath }

/-- Only the first reason is kept. -/
def configNote (reporter : Reporter) (reason : String) : Reporter :=
  { reporter with
    report :=
      { reporter.report with configNote := some (reporter.report.configNote.getD reason) }
    listed := reporter.listed }

def removed (reporter : Reporter) (logical : Path) (kind : RemovedKind) : Reporter :=
  { reporter with
    report := { reporter.report with removed := reporter.report.removed ++ [{ logical, kind }] }
    listed := reporter.listed }

variable (reporter : Reporter) (logical : Path)

def isProtected : Bool :=
  decide (logical ∈ reporter.safeguarded)

theorem lists_of_isProtected {reporter : Reporter} {logical}
    (h : reporter.isProtected logical) : reporter.report.Lists logical := by
  have hmem : logical ∈ reporter.safeguarded := by simpa [isProtected] using h
  exact reporter.listed logical ((reporter.guards logical).mp hmem)

/-! ## Reports only grow -/

/-- `b` protects and lists what `a` does. -/
structure Extends (a b : Reporter) : Prop where
  remnants : ∀ remnant ∈ a.report.remnants, remnant ∈ b.report.remnants
  safeguarded : ∀ logical, a.isProtected logical → b.isProtected logical

theorem Extends.refl (a : Reporter) : Extends a a := ⟨fun _ h => h, fun _ h => h⟩

theorem Extends.trans {a b c} (hab : Extends a b) (hbc : Extends b c) : Extends a c :=
  ⟨fun r h => hbc.remnants r (hab.remnants r h),
    fun p h => hbc.safeguarded p (hab.safeguarded p h)⟩

theorem Extends.lists {a b : Reporter} {logical} (hab : Extends a b)
    (h : a.report.Lists logical) : b.report.Lists logical :=
  h.mono hab.remnants

theorem isProtected_remnant (kind : RemnantKind) (detail : String) (path : Path) :
    (reporter.remnant logical kind detail).isProtected path =
      (decide (path = logical) || reporter.isProtected path) := by
  unfold remnant
  split
  · rename_i h
    by_cases hpath : path = logical
    · subst hpath
      simp [isProtected, (reporter.guards path).mpr h]
    · simp [hpath]
  · simp [isProtected]

theorem extends_remnant (kind : RemnantKind)
    (detail : String) : Extends reporter (reporter.remnant logical kind detail) where
  remnants r hr := by
    unfold remnant
    split
    · exact hr
    · exact mem_append_left _ hr
  safeguarded path hpath := by
    rw [isProtected_remnant, hpath, Bool.or_true]

theorem extends_externalHardlink : Extends reporter (reporter.externalHardlink logical) := by
  unfold externalHardlink
  split
  · exact .refl reporter
  · exact ⟨fun r hr => mem_append_left _ hr, fun _ h => h⟩

theorem extends_external (field path : String) :
    Extends reporter (reporter.external field path) := by
  unfold external
  split
  · exact .refl reporter
  · exact ⟨fun r hr => hr, fun _ h => h⟩

theorem extends_foldl {ι : Type} {f} (hf : ∀ reporter item, Extends reporter (f reporter item))
    (items : List ι) (reporter : Reporter) : Extends reporter (items.foldl f reporter) := by
  induction items generalizing reporter with
  | nil => exact .refl reporter
  | cons item items ih => exact (hf reporter item).trans (ih _)

theorem extends_configNote (reason : String) : Extends reporter (reporter.configNote reason) :=
  ⟨fun _ h => h, fun _ h => h⟩

theorem extends_removed (kind : RemovedKind) : Extends reporter (reporter.removed logical kind) :=
  ⟨fun _ h => h, fun _ h => h⟩

end Reporter

end Facelock.Purge
