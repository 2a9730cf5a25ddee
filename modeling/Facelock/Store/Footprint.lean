import Facelock.RemoveAll.Recovery
import Facelock.Store.Shape
import Mathlib.Data.Set.Basic

/-!
# What a program of the store leaves alone

A program touches the names that it creates, moves or unlinks and no
others, so it keeps every property of the files that does not depend on
them.  `Ignores S inv` says that `inv` does not depend on the names in
`S`, and each program of the store has one lemma: if it touches only
names in `S`, it keeps `inv` at every crash point.

The programs of this module work in the state directory.  Those that also
touch a temporary name of the override directory take a proof that the
name is in `S`.

The last section has the rules for a bound on what stands under each name
(`Dir.Within`).  No unlink breaks one.
-/

namespace Facelock.Store

open Facelock.Crash
open Facelock.Pam (Bytes)

/-- The property does not depend on the names in `S`. -/
def Ignores (S : Set Name) (inv : Files → Prop) : Prop :=
  ∀ files files' : Files, (∀ name, name ∉ S → files'.get name = files.get name) →
    inv files → inv files'

variable {files : Files} {source destination : Name}

section Steps

variable {S : Set Name} {inv : Files → Prop} {name : Name}

theorem Ignores.set (h : Ignores S inv) (hname : name ∈ S) (entry : Entry) (hfiles : inv files) :
    inv (files.set name entry) := by
  refine h _ _ (fun other hother => Dir.get_set_of_ne _ _ ?_) hfiles
  intro heq
  exact hother (heq ▸ hname)

theorem Ignores.remove (h : Ignores S inv) (hname : name ∈ S) (hfiles : inv files) :
    inv (files.remove name) := by
  refine h _ _ (fun other hother => Dir.get_remove_of_ne _ ?_) hfiles
  intro heq
  exact hother (heq ▸ hname)

theorem keeps_create (h : Ignores S inv) (hname : name ∈ S) (file : File) :
    (create name file).Keeps inv := by
  apply keeps_act
  intro files next hfiles hnext
  split at hnext
  · cases hnext
  · cases hnext
    exact h.set hname _ hfiles

theorem keeps_unlink (h : Ignores S inv) (hname : name ∈ S) : (unlink name).Keeps inv := by
  apply keeps_act
  intro files next hfiles hnext
  split at hnext
  · cases hnext
    exact h.remove hname hfiles
  · cases hnext

theorem keeps_renameNoreplaceAt (h : Ignores S inv) (hsource : source ∈ S)
    (hdestination : destination ∈ S) : (renameNoreplaceAt source destination).Keeps inv := by
  apply keeps_act
  intro files next hfiles hnext
  split at hnext
  · cases hnext
  · split at hnext
    · cases hnext
    · cases hnext
      exact h.set hdestination _ (h.remove hsource hfiles)

theorem keeps_renameExchangeAt (h : Ignores S inv) {left right} (hleft : left ∈ S)
    (hright : right ∈ S) : (renameExchangeAt left right).Keeps inv := by
  apply keeps_act
  intro files next hfiles hnext
  split at hnext
  · cases hnext
    exact h.set hright _ (h.set hleft _ hfiles)
  · cases hnext

end Steps

/-! ## Any invariant -/

section Any

variable {P : Platform} {inv : Files → Prop} {prepared : PreparedBackup}

theorem keeps_requirePublished (name : Name) (limit : Option Nat) (expected : FileIdentity)
    (unreadable changed : String) :
    (requirePublished P name limit expected unreadable changed).Keeps inv := 
  keeps_attempt_bind (keeps_read _) (fun _ => keeps_ite (keeps_pure _) (keeps_fail _))
    fun _ => keeps_fail _

variable (hunlink : ∀ name expected, (unlinkStateIfIdentityMatches P name expected).Keeps inv)

include hunlink

theorem keeps_finishPublication_of (name : StateName) (identity : FileIdentity)
    (publication : Option CreatedPublication) :
    (finishPublicationState P name identity publication).Keeps inv := by
  refine keeps_bind (hunlink _ _) fun _ => ?_
  cases publication with
  | none => exact keeps_pure _
  | some publication => exact hunlink _ _

theorem keeps_persist_of {original}
    (hintent : (atomicStateCreate P (.intent .prepare prepared.backup)
      (.intent (prepareIntent P prepared))).Keeps inv)
    (hbackup : original.length ≤ maxBackupBytes →
      (atomicStateCreate P (.backup prepared.backup) (.bytes original)).Keeps inv)
    (hrecord : (atomicStateCreate P (.record prepared.backup)
      (.record prepared.provenance)).Keeps inv) : (persist P prepared original).Keeps inv := by
  refine keeps_reading fun inUse => keeps_ite (keeps_fail _) ?_
  split
  · exact keeps_fail _
  · rename_i hlength
    refine keeps_ite (keeps_fail _) (keeps_bind hintent fun intentIdentity => ?_)
    apply keeps_attempt_bind (hbackup (Nat.not_lt.mp hlength))
    · intro backupIdentity
      apply keeps_attempt_bind hrecord
      · exact fun _ => hunlink _ _
      · intro e
        refine keeps_ite (keeps_fail _) (keeps_bind (keeps_attempt (hunlink _ _)) fun _ => ?_)
        exact keeps_attempt_fail (hunlink _ _) _
    · exact fun e => keeps_ite (keeps_fail _) (keeps_attempt_fail (hunlink _ _) _)

theorem keeps_finishCommit_of
    (hexchange : (renameExchangeAt (.state (.commitExchange prepared.backup))
      (.state (.record prepared.backup))).Keeps inv)
    (intentIdentity current replacement : FileIdentity) (publication : CreatedPublication) :
    (finishCommit P prepared intentIdentity current replacement publication).Keeps inv := by
  have hfinish := keeps_finishPublication_of hunlink
  refine keeps_bind (keeps_requirePublished _ _ _ _ _) fun _ => ?_
  refine keeps_reading fun displaced => keeps_ite ?_ ?_
  · refine keeps_bind hexchange fun _ => keeps_attempt_bind (keeps_read _) ?_ fun _ => ?_
    · refine fun restored => keeps_bind (keeps_ofResult _) fun _ => keeps_ite ?_ ?_
      · exact keeps_bind (hunlink _ _) fun _ => keeps_attempt_fail (hfinish _ _ _) _
      · exact keeps_attempt_fail (hfinish _ _ _) _
    · exact keeps_attempt_fail (hfinish _ _ _) _
  · refine keeps_bind (keeps_requirePublished _ _ _ _ _) fun _ => ?_
    refine keeps_bind (hunlink _ _) fun _ => ?_
    exact keeps_bind (keeps_requirePublished _ _ _ _ _) fun _ => hfinish _ _ _

end Any

/-! ## State files -/

section State

variable {P : Platform} {S : Set Name} {inv : Files → Prop} (h : Ignores S inv)

include h

theorem keeps_unlinkAtIfIdentityMatches {name} (hname : name ∈ S) (expected : FileIdentity)
    (limit : Nat) : (unlinkAtIfIdentityMatches P name expected limit).Keeps inv := by
  refine keeps_reading fun file => ?_
  refine keeps_bind (keeps_ofResult _) fun actual => ?_
  exact keeps_ite (keeps_fail _) (keeps_unlink h hname)

theorem keeps_cleanupUnpublishedTemp {name} (hname : name ∈ S) (expected : FileIdentity)
    (limit : Nat) (message : String) :
    (cleanupUnpublishedTemp P name expected limit message).Keeps inv := 
  keeps_attempt_bind (keeps_unlinkAtIfIdentityMatches h hname _ _) keeps_pure fun _ => keeps_fail _

variable (hstate : ∀ name, Name.state name ∈ S)

include hstate

variable (name : StateName)

theorem keeps_unlinkState (expected : FileIdentity) :
    (unlinkStateIfIdentityMatches P name expected).Keeps inv :=
  keeps_unlinkAtIfIdentityMatches h (hstate name) _ _

theorem keeps_atomicStateCreate (content : Content) :
    (atomicStateCreate P name content).Keeps inv := by
  apply keeps_read_bind
  intro files temp hread
  have htemp : temp ∈ S := by
    obtain rfl := Except.ok.inj hread
    exact hstate _
  refine keeps_reading fun file => ?_
  refine keeps_bind (keeps_create h htemp _) fun _ => ?_
  refine keeps_attempt_bind (keeps_renameNoreplaceAt h htemp (hstate _)) (fun _ => keeps_pure _) ?_
  exact fun e => keeps_attempt_fail (keeps_unlinkAtIfIdentityMatches h htemp _ _) _

theorem keeps_createPublicationBinding (role : PublicationRole) (intent : StateIntent)
    (replacement : FileIdentity) : (createPublicationBinding P role intent replacement).Keeps inv :=
  keeps_bind (keeps_atomicStateCreate h hstate _ _) fun _ => keeps_pure _

theorem keeps_finishPublicationState (identity : FileIdentity)
    (publication : Option CreatedPublication) :
    (finishPublicationState P name identity publication).Keeps inv :=
  keeps_finishPublication_of (keeps_unlinkState h hstate) _ _ _

theorem keeps_concludeMutation (kind : MutationKind) (intent : StateIntent)
    (identity : FileIdentity) (publication : Option CreatedPublication)
    (result : Except IoError Unit) :
    (concludeMutation P kind intent identity publication result).Keeps inv := by
  refine keeps_ite (keeps_ofResult _) ?_
  refine keeps_attempt_bind (keeps_finishPublicationState h hstate _ _ _)
    (fun _ => keeps_ofResult _) fun e => ?_
  cases result with
  | ok value => exact keeps_fail _
  | error e => exact keeps_fail _

variable (prepared : PreparedBackup)

theorem keeps_persist (original : Bytes) : (persist P prepared original).Keeps inv :=
  keeps_persist_of (keeps_unlinkState h hstate) (keeps_atomicStateCreate h hstate _ _)
    (fun _ => keeps_atomicStateCreate h hstate _ _) (keeps_atomicStateCreate h hstate _ _)

/-! ## Backup pairs -/

theorem keeps_renameState (source destination : StateName) :
    (renameNoreplaceAt (.state source) (.state destination)).Keeps inv :=
  keeps_renameNoreplaceAt h (hstate _) (hstate _)

theorem keeps_finishCleanup (expectedRecord quarantinedBackup intentIdentity : FileIdentity) :
    (finishCleanup P prepared expectedRecord quarantinedBackup intentIdentity).Keeps inv := by
  have hrename := keeps_renameState h hstate
  have hunlink := keeps_unlinkState (P := P) h hstate
  refine keeps_attempt_bind (hrename _ _) ?_ fun _ => keeps_attempt_fail (hrename _ _) _
  intro value
  refine keeps_reading fun quarantined => keeps_ite ?_ ?_
  · exact keeps_bind (keeps_attempt (hrename _ _)) fun _ => keeps_attempt_fail (hrename _ _) _
  · refine keeps_bind (hunlink _ _) fun _ => ?_
    exact keeps_bind (hunlink _ _) fun _ => hunlink _ _

theorem keeps_cleanupOneAt : (cleanupOneAt P prepared).Keeps inv := by
  refine keeps_reading fun backup => ?_
  refine keeps_reading fun record => ?_
  split
  · exact keeps_fail _
  · exact keeps_fail _
  · refine keeps_bind (keeps_ofResult _) fun _ => ?_
    refine keeps_bind (keeps_ofResult _) fun _ => keeps_ite (keeps_fail _) ?_
    refine keeps_bind (keeps_atomicStateCreate h hstate _ _) fun _ => ?_
    refine keeps_bind (keeps_renameState h hstate _ _) fun _ => ?_
    refine keeps_reading fun _ => keeps_ite ?_ (keeps_finishCleanup h hstate _ _ _ _)
    exact keeps_attempt_fail (keeps_renameState h hstate _ _) _

theorem keeps_finishCommit
    (intentIdentity current replacement : FileIdentity) (publication : CreatedPublication) :
    (finishCommit P prepared intentIdentity current replacement publication).Keeps inv :=
  keeps_finishCommit_of (keeps_unlinkState h hstate)
    (keeps_renameExchangeAt h (hstate _) (hstate _)) _ _ _ _

theorem keeps_commitUnlocked : (commitUnlocked P prepared).Keeps inv := by
  have hunlink := keeps_unlinkState (P := P) h hstate
  refine keeps_bind (keeps_atomicStateCreate h hstate _ _) fun _ => ?_
  refine keeps_reading fun _ => keeps_ite (keeps_attempt_fail (hunlink _ _) _) ?_
  apply keeps_attempt_bind (keeps_atomicStateCreate h hstate _ _)
  · intro replacement
    apply keeps_attempt_bind (keeps_createPublicationBinding h hstate _ _ _)
    · intro publication
      refine keeps_bind (keeps_renameExchangeAt h (hstate _) (hstate _)) fun _ => ?_
      exact keeps_finishCommit h hstate _ _ _ _ _
    · intro e
      refine keeps_ite (keeps_fail _) ?_
      refine keeps_bind (keeps_cleanupUnpublishedTemp h (hstate _) _ _ _) fun _ => ?_
      exact keeps_bind (hunlink _ _) fun _ => keeps_fail _
  · exact fun e => keeps_ite (keeps_fail _) (keeps_attempt_fail (hunlink _ _) _)

/-- The last pass of recovery works on backup pairs only. -/
theorem keeps_recoverRecords : (recoverRecords P).Keeps inv := by
  refine keeps_reading fun services => keeps_forM fun service _ => ?_
  refine keeps_reading fun records => keeps_forM fun prepared _ => ?_
  refine keeps_ite (keeps_pure _) ?_
  refine keeps_reading fun blocked => keeps_ite (keeps_pure _) ?_
  refine keeps_attempt_bind (keeps_read _) (fun found => ?_) fun _ => keeps_pure _
  exact keeps_ite (keeps_commitUnlocked h hstate _)
    (keeps_ite (keeps_cleanupOneAt h hstate _) (keeps_pure _))

theorem keeps_resumeQuarantine (canonical quarantine : StateName) (expectedSha256 : Digest)
    (limit : Nat) : (resumeQuarantine P canonical quarantine expectedSha256 limit).Keeps inv := by
  refine keeps_reading fun _ => ?_
  refine keeps_reading fun _ => ?_
  split
  · refine keeps_bind (keeps_renameState h hstate _ _) fun _ => ?_
    refine keeps_reading fun moved => ?_
    cases moved with
    | none => exact keeps_fail _
    | some moved =>
      refine keeps_ite (keeps_pure _) ?_
      exact keeps_attempt_fail (keeps_renameState h hstate _ _) _
  · exact keeps_pure _
  · exact keeps_pure _
  · exact keeps_fail _

theorem keeps_unlinkEntry (entry : Option FileIdentity) : (unlinkEntry P name entry).Keeps inv := by
  cases entry with
  | none => exact keeps_pure _
  | some identity => exact keeps_unlinkState h hstate _ _

theorem keeps_recoverCleanupIntent (valid : ValidIntent) :
    (recoverCleanupIntent P valid).Keeps inv := by
  unfold recoverCleanupIntent
  dsimp only
  split
  · exact keeps_pure _
  · refine keeps_attempt_bind (keeps_resumeQuarantine h hstate _ _ _ _) ?_ fun _ => keeps_pure _
    intro backup
    refine keeps_attempt_bind (keeps_resumeQuarantine h hstate _ _ _ _) ?_ fun _ => keeps_pure _
    intro record
    refine keeps_bind (keeps_unlinkEntry h hstate _ _) fun _ => ?_
    exact keeps_bind (keeps_unlinkEntry h hstate _ _) fun _ => keeps_unlinkState h hstate _ _

/-! ## The machine-wide removal -/

/-- Only an original under the service name makes a replacement unstarted. -/
theorem meets_recoverUnstarted (target : RemoveAllJournalTarget) (current : FileIdentity)
    (hfiles : inv files) :
    ((recoverUnstartedRemoveAllPublication P target current).run files).Yields inv
      fun recovered _ => recovered = true → target.original = current := by
  refine yields_read_bind hfiles fun published _ => yields_ite (fun _ => yields_ok hfiles nofun) ?_
  refine fun _ => yields_read_bind hfiles fun valid _ => ?_
  cases valid with
  | none => exact yields_ok hfiles nofun
  | some valid =>
    refine yields_read_bind hfiles fun prepared _ => ?_
    split
    · exact yields_error hfiles
    · refine yields_ite (fun _ => yields_ok hfiles nofun) fun _ =>
        yields_ite (fun _ => yields_ok hfiles nofun) fun hmatches => ?_
      have horiginal : target.original = current := by simpa [identityMatches] using hmatches
      refine yields_read_bind hfiles fun temp _ => yields_ite (fun _ => yields_ok hfiles nofun) ?_
      exact fun _ => ((keeps_unlinkState h hstate _ _).yields hfiles).bind fun _ _ hs _ =>
        yields_ok hs fun _ => horiginal

theorem keeps_recoverUnstarted (target : RemoveAllJournalTarget) (current : FileIdentity) :
    (recoverUnstartedRemoveAllPublication P target current).Keeps inv :=
  fun _ hfiles => (meets_recoverUnstarted h hstate target current hfiles).keeps

theorem keeps_cleanupRemoveAllPair (target : RemoveAllJournalTarget) :
    (cleanupRemoveAllPair P target).Keeps inv := by
  refine keeps_reading fun intent => ?_
  cases intent with
  | some valid =>
    refine keeps_bind (keeps_recoverCleanupIntent h hstate _) fun _ => ?_
    exact keeps_reading fun _ => keeps_ite (keeps_pure _) (keeps_fail _)
  | none =>
    refine keeps_reading fun _ => keeps_ite (keeps_fail _) ?_
    refine keeps_reading fun _ => keeps_ite (keeps_fail _) ?_
    refine keeps_attempt_bind (keeps_read _) (fun _ => keeps_cleanupOneAt h hstate _) fun e => ?_
    exact keeps_reading fun _ => keeps_ite (keeps_pure _) (keeps_fail _)

end State

/-! ## Bounds -/

section Bounds

variable {P : Platform} {accepted : Name → Entry → Prop}

theorem keeps_unlink_within (name : Name) : (unlink name).Keeps (Dir.Within accepted) := by
  apply keeps_act
  intro files next hfiles hnext
  split at hnext
  · cases hnext
    exact hfiles.remove name
  · cases hnext

theorem keeps_unlinkAt_within (name : Name) (expected : FileIdentity) (limit : Nat) :
    (unlinkAtIfIdentityMatches P name expected limit).Keeps (Dir.Within accepted) := by
  refine keeps_reading fun file => ?_
  refine keeps_bind (keeps_ofResult _) fun actual => ?_
  exact keeps_ite (keeps_fail _) (keeps_unlink_within name)

theorem keeps_unlinkState_within (name : StateName) (expected : FileIdentity) :
    (unlinkStateIfIdentityMatches P name expected).Keeps (Dir.Within accepted) :=
  keeps_unlinkAt_within _ _ _

theorem keeps_cleanupUnpublishedTemp_within (name : Name) (expected : FileIdentity)
    (limit : Nat) (message : String) :
    (cleanupUnpublishedTemp P name expected limit message).Keeps (Dir.Within accepted) := 
  keeps_attempt_bind (keeps_unlinkAt_within _ _ _) keeps_pure fun _ => keeps_fail _

/-- The bound changes if a program succeeds. -/
def Turned {α : Type} (accepted accepted' : Name → Entry → Prop) :
    Except IoError α → Files → Prop
  | .ok _, files => files.Within accepted'
  | .error _, files => files.Within accepted

theorem Turned.within {α : Type} {result : Except IoError α}
    (h : Turned accepted accepted result files) :
    files.Within accepted := by
  cases result with
  | ok value => exact h
  | error e => exact h

/-- Afterwards the second name may hold what the first one could. -/
theorem meets_renameNoreplaceAt_within {accepted'} (hfiles : files.Within accepted)
    (hmove : ∀ entry, accepted source entry → accepted' destination entry)
    (hother : ∀ other, other ≠ destination → ∀ e, accepted other e → accepted' other e) :
    ((renameNoreplaceAt source destination).run files).Meets (Dir.Within accepted)
      (Turned accepted accepted') := by
  unfold renameNoreplaceAt Prog.act
  dsimp only
  cases hsource : files.get source with
  | none => exact hfiles
  | some entry =>
    dsimp only
    by_cases hfree : (files.get destination).isSome
    · rw [if_pos hfree]
      exact hfiles
    · rw [if_neg hfree]
      refine ⟨hfiles, ?_⟩
      exact (hfiles.remove source).set (hmove entry (hfiles source entry hsource)) hother

theorem keeps_renameNoreplaceAt_within
    (hmove : ∀ entry, accepted source entry → accepted destination entry) :
    (renameNoreplaceAt source destination).Keeps (Dir.Within accepted) :=
  fun _ h => (meets_renameNoreplaceAt_within h hmove fun _ _ _ h => h).mono (fun _ h => h)
    fun _ _ => Turned.within

theorem keeps_renameExchangeAt_within {left right}
    (hmove : ∀ entry, accepted left entry ↔ accepted right entry) :
    (renameExchangeAt left right).Keeps (Dir.Within accepted) := by
  apply keeps_act
  intro files next hfiles hnext
  split at hnext
  · rename_i leftEntry rightEntry hleft hright
    cases hnext
    exact hfiles.exchange hleft hright hmove
  · cases hnext

/-- The file is written under a temporary name, and stands under its own
name afterwards. -/
theorem meets_atomicStateCreate_within {accepted' name content} (hfiles : files.Within accepted)
    (hfits : content.fits maxBackupBytes = true)
    (htemp : ∀ digest stamp entry, accepted (.state (.temp name digest stamp)) entry)
    (hname : ∀ file : File, IsState P content file → accepted' (.state name) (.regular file))
    (hother : ∀ other, other ≠ .state name → ∀ e, accepted other e → accepted' other e) :
    ((atomicStateCreate P name content).run files).Meets (Dir.Within accepted)
      (Turned accepted accepted') := by
  have hstaged : Dir.Within accepted
      (files.set (tempName P name content files) (.regular (newStateFile P content files))) :=
    hfiles.set (htemp _ _ _) fun _ _ _ hentry => hentry
  cases hget : files.get (.state name) with
  | none =>
    rw [run_atomicStateCreate_of_none hget]
    refine ⟨hfiles, hstaged, ?_⟩
    exact hfiles.set (hname _ (isState_newStateFile content files)) hother
  | some entry =>
    rw [run_atomicStateCreate_of_some hget hfits]
    exact ⟨hfiles, hstaged, hfiles⟩

theorem keeps_atomicStateCreate_within {name content} (hfits : content.fits maxBackupBytes = true)
    (htemp : ∀ digest stamp entry, accepted (.state (.temp name digest stamp)) entry)
    (hname : ∀ file : File, IsState P content file → accepted (.state name) (.regular file)) :
    (atomicStateCreate P name content).Keeps (Dir.Within accepted) :=
  fun _ h => (meets_atomicStateCreate_within h hfits htemp hname fun _ _ _ h => h).mono
    (fun _ h => h) fun _ _ => Turned.within

end Bounds

end Facelock.Store
