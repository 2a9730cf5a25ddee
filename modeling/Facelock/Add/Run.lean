import Facelock.Add.Stages

/-!
# The run of one addition

`addTransaction` is what `apply_add` writes for a service that has a
local file: the backup pair, the replacement, and the committed record.
Its run is followed here step by step through the stages, so that every
crash point of it is at a stage.
-/

namespace Facelock.Store

open Facelock.Crash
open Facelock.Pam (Bytes)

/-- The writes of `apply_add` for a local file. -/
def addTransaction (P : Platform) (prepared : PreparedBackup) (expected : FileIdentity)
    (original installed : Bytes) : Action Unit := do
  persist P prepared original
  replacePamWithIntent P prepared expected installed (.ok ())
  commitUnlocked P prepared

variable {P : Platform} {base files : Files} {own : OpFiles}

namespace Addition

variable {A : Addition P} {forward gap : Bool} {inv : Files → Prop}

theorem orphan_none : A.Orphan forward none :=
  ⟨fun _ => rfl, by simp⟩

theorem commitOrphan_none : A.CommitOrphan forward none :=
  ⟨fun _ => rfl, by simp⟩

/-! ## The backup pair -/

variable {post : Except IoError Unit → Files → Prop}

theorem meets_persist (hinv : A.Covers base forward gap inv)
    (hfits : A.original.length ≤ maxBackupBytes)
    (hsequence : sequenceInUse P A.prepared.provenance.sequence files = false)
    (h : Shape base A.op { service := some A.file } files)
    (hpost : ∀ b r files', A.IsBackup b → A.IsRecord r →
      Shape base A.op (.saved A.file b r) files' →
      post (.ok ()) files') : ((persist P A.prepared A.original).run files).Meets inv post := by
  simp only [persist, meets_bind, run_read, meets_done, afterwards_ok, hsequence,
    A.provenance_originalSha256, ne_eq, not_true, if_false, Nat.not_lt.mpr hfits,
    Bool.false_eq_true]
  refine hinv.meets_create h (.unstarted orphan_none) .prepareIntent rfl rfl rfl ?_
  intro i files₁ hi h₁
  simp only [afterwards_ok, meets_bind, meets_attempt]
  refine hinv.meets_create h₁ (.preparing (b := none) (r := none) hi (by simp) (by simp) (by simp))
    .backup rfl rfl (by simpa [Content.fits] using hfits) ?_
  intro b files₂ hstate h₂
  have hb : A.IsBackup b := ⟨hstate, hfits⟩
  simp only [afterwards_ok, meets_bind, meets_attempt]
  refine hinv.meets_create h₂
    (.preparing (b := some b) (r := none) hi (by simpa) (by simp) (by simp)) .record rfl rfl rfl
    ?_
  intro r files₃ hr h₃
  refine hinv.meets_unlink h₃
    (.preparing (b := some b) (r := some r) hi (by simpa) (by simpa) (by simp)) .prepareIntent rfl
    rfl hi rfl ?_
  · intro files₄ h₄
    exact hpost b r files₄ hb hr h₄

/-! ## The replacement -/

theorem identity_original : (A.file.identity P).sha256 = P.sha256 (.bytes A.original) := by
  simp [File.identity, A.content]

@[simp] theorem replaceIntent_service : A.replaceIntent.service = A.op.service :=
  A.provenance_service

/-- What the kernel gives a temporary file of the override directory. -/
theorem isReplacement_newPamFile (h : Shape base A.op own files)
    (hservice : own.get .service = some A.file) :
    A.IsReplacement (newPamFile P A.installed (A.file.identity P) files) where
  content := rfl
  links := rfl
  mode := by
    have := A.file.regular
    simp only [newPamFile, File.identity]
    omega
  uid := rfl
  gid := rfl
  inode := by
    have hget := h.get_file .service rfl hservice
    exact (P.freshInode_unused files _ A.file hget).symm

theorem identityAt_source (h : Shape base A.op own files)
    (hservice : own.get .service = some A.file) :
    identityAt P (.pam (.service A.op.service)) none files = .ok (A.file.identity P) :=
  h.identityAt_slot .service rfl hservice A.links (by simp)

theorem run_createReplacement (h : Shape base A.op own files)
    (hservice : own.get .service = some A.file) (htemp : own.get .temp = none) :
    ∃ n files', A.IsReplacement n ∧ Shape base A.op (own.put (some n) .temp) files' ∧
      (createReplacement P A.op.service (A.file.identity P) A.installed (.pamReplace A.op)).run
        files = .step files (.done files' (.ok (n.identity P))) := by
  set n := newPamFile P A.installed (A.file.identity P) files with hdef
  have hn : A.IsReplacement n := isReplacement_newPamFile h hservice
  have h' := h.set .temp n
  refine ⟨n, _, hn, h', ?_⟩
  have hfree : files.get (.pam (.pamReplace A.op)) = none := h.get_none .temp rfl htemp
  have hcreate : (create (.pam (.pamReplace A.op)) n).run files =
      .step files (.done (files.set (.pam (.pamReplace A.op)) (.regular n)) (.ok ())) :=
    run_act_ok (by simp [hfree])
  have hsource := identityAt_source h hservice
  have hreplacement : identityAt P (.pam (.pamReplace A.op)) none
      (files.set (.pam (.pamReplace A.op)) (.regular n)) = .ok (n.identity P) :=
    h'.identityAt_slot .temp rfl (OpFiles.get_put ..) hn.links (by simp)
  have hexact : ¬((n.identity P).links ≠ 1 ∨
      (n.identity P).sha256 ≠ P.sha256 (.bytes A.installed) ∨
      (n.identity P).mode ≠ (A.file.identity P).mode ∨
      (n.identity P).uid ≠ (A.file.identity P).uid ∨
      (n.identity P).gid ≠ (A.file.identity P).gid) := by
    simp [File.identity, hn.links, hn.content, hn.mode, hn.uid, hn.gid]
  simp only [createReplacement, createTempAt, readOrAmbiguous, run_bind, run_read, hsource,
    bind_ok, identityMatches, decide_true, Bool.not_true, Bool.false_eq_true, if_false, ← hdef,
    hcreate, bind_step, hexact, run_pure, hreplacement, if_true]
  rfl

variable {n : File}

/-- The exchange and the unlinking of the displaced original. -/
theorem run_exchangeReplacement (h : Shape base A.op own files)
    (hservice : own.get .service = some A.file) (htemp : own.get .temp = some n)
    (hn : A.IsReplacement n) :
    ∃ files₁ files₂,
      Shape base A.op ((own.put (some A.file) .temp).put (some n) .service) files₁ ∧
      Shape base A.op (((own.put (some A.file) .temp).put (some n) .service).put none .temp)
        files₂ ∧
      (exchangeReplacement P A.op.service (A.file.identity P) (.pamReplace A.op) (n.identity P)
        (.ok ())).run files = .step files (.step files₁ (.done files₂ (.ok ()))) := by
  obtain ⟨files₁, hexchange, h₁⟩ := h.run_exchange .temp .service htemp hservice
  have h₂ := h₁.remove .temp
  refine ⟨files₁, _, h₁, h₂, ?_⟩
  have hsource := identityAt_source h hservice
  have hpublished : ∀ unreadable changed, (requirePublished P (.pam (.service A.op.service)) none
      (n.identity P) unreadable changed).run files₁ = .done files₁ (.ok ()) := by
    intro unreadable changed
    exact h₁.run_requirePublished .service rfl (OpFiles.get_put ..) hn.links (by simp)
  have hold : ((own.put (some A.file) .temp).put (some n) .service).get .temp = some A.file := by
    simp [OpFiles.get_put]
  have hdisplaced : identityAt P (.pam (.pamReplace A.op)) none files₁ =
      .ok (A.file.identity P) :=
    h₁.identityAt_slot .temp rfl hold A.links (by simp)
  have hget : files₁.get (.pam (.pamReplace A.op)) = some (.regular A.file) :=
    h₁.get_file .temp rfl hold
  have hunlink : (unlink (.pam (.pamReplace A.op))).run files₁ =
      .step files₁ (.done (files₁.remove (.pam (.pamReplace A.op))) (.ok ())) :=
    run_act_ok (by simp [hget])
  simp only [Slot.name] at hexchange
  simp only [exchangeReplacement, run_bind, run_attempt, run_read, hsource, attempt_done, bind_ok,
    identityMatches, decide_true, Bool.not_true, Bool.false_eq_true, if_false, hexchange,
    attempt_step, bind_step, run_ofResult, hpublished, hdisplaced, Except.toOption, ne_eq,
    not_true, hunlink]
  rfl

@[simp] theorem replaceIntent_temp :
    pamReplaceKind.temp A.replaceIntent.backup = .pamReplace A.op := rfl

@[simp] theorem publicationBindingFor_identity (role : PublicationRole) (intent : StateIntent)
    (identity : FileIdentity) :
    (publicationBindingFor P role intent identity).identity = identity := rfl

theorem fits_installed (hn : A.IsInstalled n) {limit} :
    n.content.fits limit = decide (A.installed.length ≤ limit) := by
  rw [hn.content]
  rfl

theorem IsReplacement.fits (hn : A.IsReplacement n) (hfits : A.Fits) :
    n.content.fits maxBackupBytes = true := by
  simpa [fits_installed hn.toIsInstalled] using hfits

theorem IsReplacement.oversized (hn : A.IsReplacement n) (hover : ¬A.Fits) :
    n.content.fits maxBackupBytes = false := by
  simpa [fits_installed hn.toIsInstalled] using hover

/-- A service file above the size limit is published, and the check after
the publication fails on it. -/
theorem run_requirePublished_oversized (message : String) (h : Shape base A.op own files)
    (hservice : own.get .service = some n) (hn : A.IsReplacement n)
    (hover : maxBackupBytes < A.installed.length) :
    (requirePublished P (.pam (.service A.op.service)) (some maxBackupBytes) (n.identity P)
      message message).run files = .done files (.error (ambiguousPublication message)) := by
  have hget : files.get (.pam (.service A.op.service)) = some (.regular n) :=
    h.get_file .service rfl hservice
  have hfits : n.content.fits maxBackupBytes = false := hn.oversized (Nat.not_le.mpr hover)
  simp [requirePublished, run_bind, run_attempt, identityAt, openRegularAt_of_get hget hn.links,
    identityOfOpenBounded, readOpenBounded, hfits]

theorem meets_replace {b r} (hinv : A.Covers base forward true inv) (hb : A.IsBackup b)
    (hr : A.IsRecord r)
    (h : Shape base A.op (.saved A.file b r) files)
    (hpost : ∀ n files', A.IsReplacement n → A.Fits →
      Shape base A.op (.saved n b r) files' →
      post (.ok ()) files')
    (hover : maxBackupBytes < A.installed.length →
      ∀ files' e, A.Reach base forward true files' → post (.error e) files') :
    ((replacePamWithIntent P A.prepared (A.file.identity P) A.installed (.ok ())).run
      files).Meets inv post := by
  have hguard : ¬((A.file.identity P).sha256 ≠ A.prepared.provenance.originalSha256 ∨
      P.sha256 (.bytes A.installed) ≠ A.prepared.provenance.installedSha256) := by
    simp [identity_original]
  rw [replacePamWithIntent, if_neg hguard]
  change ((mutatePamWithIntent P pamReplaceKind A.replaceIntent (A.file.identity P) A.installed
    (.ok ()) fun _ => pure ()).run files).Meets inv post
  simp only [mutatePamWithIntent, meets_bind, replaceIntent_service, replaceIntent_temp]
  refine hinv.meets_create h (.paired hb hr orphan_none) .replaceIntent rfl rfl rfl ?_
  intro i files₁ hi h₁
  obtain ⟨n, files₂, hn, h₂, hcreate⟩ := run_createReplacement h₁ rfl rfl
  simp only [afterwards_ok, meets_bind, meets_attempt, hcreate, meets_step, meets_done]
  refine ⟨hinv.at_stage (.replacing hb hr hi) .bare h₁, ?_⟩
  simp only [bindReplacement, createPublicationBinding, meets_bind, meets_attempt]
  refine hinv.meets_create h₂ (.created hb hr hi hn) .replaceBinding rfl rfl rfl ?_
  intro p files₃ hp h₃
  obtain ⟨files₄, files₅, h₄, h₅, hexchange⟩ := run_exchangeReplacement h₃ rfl rfl hn
  simp only [afterwards_ok, run_pure, meets_done, meets_bind, meets_attempt, hexchange, meets_step,
    validatePublishedPath]
  refine ⟨hinv.at_stage (.bound hb hr hi hn hp) .bare h₃,
    hinv.at_stage (.exchanged (t := some A.file) hb hr hi hn hp (by simp)) .bare h₄, ?_⟩
  by_cases hfits : A.Fits
  · have hpublished : ∀ message, (requirePublished P (.pam (.service A.op.service))
        (some maxBackupBytes) (n.identity P) message message).run files₅ =
        .done files₅ (.ok ()) := by
      intro message
      refine h₅.run_requirePublished .service rfl rfl hn.links ?_
      intro bound hbound
      obtain rfl := Option.some.inj hbound
      exact hn.fits hfits
    simp only [publicationBindingFor_identity, hpublished, afterwards_ok, meets_done, run_pure,
      concludeMutation, keepsEvidence, Bool.false_eq_true, if_false, finishPublicationState,
      meets_bind, meets_attempt]
    refine hinv.meets_unlink h₅ (.exchanged (t := none) hb hr hi hn hp (by simp)) .replaceIntent rfl
      rfl hi rfl ?_
    intro files₆ h₆
    refine hinv.meets_unlink h₆ (.published hb hr hn hp hfits) .replaceBinding rfl rfl hp rfl ?_
    intro files₇ h₇
    exact hpost n files₇ hn hfits h₇
  · have hlarge := run_requirePublished_oversized
      "published PAM service changed before intent cleanup" h₅ rfl hn (Nat.not_le.mp hfits)
    simp only [publicationBindingFor_identity, hlarge, afterwards_error, meets_done,
      concludeMutation, keepsEvidence, ambiguousPublication, isAmbiguousPublication, decide_true,
      Bool.or_true, if_true, run_ofResult]
    exact hover (Nat.not_le.mp hfits) _ _
      (reach_of_shape (.exchanged (t := none) hb hr hi hn hp (by simp)) h₅)

/-! ## The committed record -/

/-- With an old binding in the way, the exchange file waits in front of a
binding that is its own or another's. -/
theorem stage_exchange_orphan (gap : Bool) {b r i x p} (hb : A.IsBackup b)
    (hr : A.IsRecord r) (hn : A.IsInstalled n) (hi : A.IsCommitIntent i)
    (hx : A.IsCommitted x) (hp : A.CommitOrphan false (some p))
    (hfits : A.Fits) :
    A.Stage false gap
      { OpFiles.saved n b r with
        commitIntent := some i, exchange := some x, commitBinding := some p } := by
  obtain ⟨other, hother, hbinding⟩ := hp.2 p rfl
  by_cases hsame : other.identity P = x.identity P
  · refine .commitBound hb hr hn hi hx ?_ hfits
    rw [BindsCommit, commitBinding, ← hsame]
    exact hbinding
  · exact .commitMismatch hb hr hn hi hx hother hsame hbinding hfits

theorem fits_record {content file} (h : IsState P (.record content) file) (bound limit : Nat) :
    some limit = some bound → file.content.fits bound = true := by
  intro _
  rw [h.content]
  rfl

theorem stateIdentityMatches_record {r} (hr : A.IsRecord r) :
    stateIdentityMatches P (r.identity P) (P.sha256 (.record A.prepared.provenance)) = true := by
  rw [hr.stateIdentityMatches_iff]
  exact decide_eq_true rfl

/-- `commit_unlocked` over an installed replacement.  An old binding stops
it, and then everything it has made goes again. -/
theorem meets_commit {b r p} (hinv : A.Covers base forward gap inv)
    (hb : A.IsBackup b) (hr : A.IsRecord r) (hn : A.IsInstalled n)
    (hp : A.CommitOrphan forward p) (hfits : A.Fits)
    (h : Shape base A.op
      { OpFiles.saved n b r with commitBinding := p } files)
    (hok : p = none → ∀ x files', A.IsCommitted x →
      Shape base A.op (.saved n b x) files' →
      post (.ok ()) files')
    (herror : p ≠ none → ∀ files', Shape base A.op
      { OpFiles.saved n b r with commitBinding := p } files' →
      post (.error .alreadyExists) files') :
    ((commitUnlocked P A.prepared).run files).Meets inv post := by
  simp only [commitUnlocked, meets_bind]
  refine hinv.meets_create h (.installed hb hr hn hp hfits) .commitIntent rfl rfl rfl ?_
  intro i files₁ hi h₁
  have hcurrent : identityAt P (.state (.record A.op)) (some maxRecordBytes) files₁ =
      .ok (r.identity P) :=
    h₁.identityAt_slot .record rfl rfl hr.links fun bound => fits_record hr bound _
  simp only [afterwards_ok, meets_bind, run_read, hcurrent, meets_done,
    stateIdentityMatches_record hr, Bool.not_true, Bool.false_eq_true, if_false, meets_attempt]
  refine hinv.meets_create h₁ (.committing hb hr hn hi hp hfits) .exchange rfl rfl rfl ?_
  intro x files₂ hx h₂
  simp only [afterwards_ok, meets_bind, meets_attempt, createPublicationBinding]
  cases p with
  | some p =>
    obtain rfl : forward = false := by
      cases forward with
      | false => rfl
      | true => exact absurd (hp.1 rfl) (by simp)
    have hstage := stage_exchange_orphan gap hb hr hn hi hx hp hfits
    refine h₂.meets_create_exists .commitBinding rfl rfl rfl ?_ ?_
    · intro base' files' hstaged hshape
      exact hinv.at_stage hstage hstaged hshape
    simp only [afterwards_error, afterwards_ok, isAmbiguousPublication, IoError.alreadyExists,
      reduceCtorEq, decide_false, Bool.false_eq_true, if_false, cleanupUnpublishedTemp, meets_bind,
      meets_attempt]
    refine h₂.meets_unlink .exchange rfl rfl hx.links (by rw [hx.content]; rfl) ?_ ?_
    · exact hinv.at_stage hstage .bare h₂
    intro files₃ h₃
    simp only [afterwards_ok, run_pure, meets_done, meets_bind]
    refine hinv.meets_unlink h₃ (.committing hb hr hn hi hp hfits) .commitIntent rfl rfl hi rfl ?_
    intro files₄ h₄
    exact herror (by simp) files₄ h₄
  | none =>
    refine hinv.meets_create h₂ (.exchangeReady hb hr hn hi hx hfits) .commitBinding rfl rfl rfl
      ?_
    intro p files₃ hp' h₃
    obtain ⟨files₄, hexchange, h₄⟩ := h₃.run_exchange .exchange .record rfl rfl
    simp only [Slot.name] at hexchange
    simp only [afterwards_ok, run_pure, meets_done, meets_bind, hexchange, meets_step, finishCommit]
    refine ⟨hinv.at_stage (.commitBound hb hr hn hi hx hp' hfits) .bare h₃, ?_⟩
    have hpublished : ∀ unreadable changed, (requirePublished P (.state (.record A.op))
        (some maxRecordBytes) (x.identity P) unreadable changed).run files₄ =
        .done files₄ (.ok ()) := by
      intro unreadable changed
      exact h₄.run_requirePublished .record rfl rfl hx.links fun bound => fits_record hx bound _
    have hdisplaced : identityAt P (.state (.commitExchange A.op)) (some maxRecordBytes) files₄ =
        .ok (r.identity P) :=
      h₄.identityAt_slot .exchange rfl rfl hr.links fun bound => fits_record hr bound _
    simp only [hpublished, hdisplaced, meets_done, afterwards_ok, meets_bind, run_read,
      identityMatches, decide_true, Bool.not_true, Bool.false_eq_true, if_false]
    refine hinv.meets_unlink h₄ (.commitExchanged hb hr hn hi hx hp' hfits) .exchange rfl rfl hr rfl
      ?_
    intro files₅ h₅
    have hstill : (requirePublished P (.state (.record A.op)) (some maxRecordBytes)
        (x.identity P) "committed provenance became ambiguous"
        "committed provenance changed before intent cleanup").run files₅ =
        .done files₅ (.ok ()) :=
      h₅.run_requirePublished .record rfl rfl hx.links fun bound => fits_record hx bound _
    simp only [afterwards_ok, meets_bind, hstill, meets_done, finishPublicationState]
    refine hinv.meets_unlink h₅ (.commitDisplaced hb hn hi hx hp' hfits) .commitIntent rfl rfl hi
      rfl ?_
    intro files₆ h₆
    refine hinv.meets_unlink h₆ (.commitPublished hb hn hx hp' hfits) .commitBinding rfl rfl hp' rfl
      ?_
    intro files₇ h₇
    exact hok rfl x files₇ hx h₇

/-! ## The whole run -/

/-- Every crash point of an addition, and its end, is at a stage. -/
theorem meets_addTransaction
    (hsequence : sequenceInUse P A.prepared.provenance.sequence files = false)
    (h : Shape base A.op { service := some A.file } files) :
    ((addTransaction P A.prepared (A.file.identity P) A.original A.installed).run files).Meets
      (A.Reach base true true) fun _ final => A.Reach base true true final := by
  have hinv : A.Covers base true true (A.Reach base true true) := fun _ hreach => hreach
  simp only [addTransaction, meets_bind]
  by_cases hfits : A.original.length ≤ maxBackupBytes
  · refine meets_persist hinv hfits hsequence h ?_
    intro b r files₁ hb hr h₁
    simp only [afterwards_ok, meets_bind]
    refine meets_replace hinv hb hr h₁ ?_ ?_
    · intro n files₂ hn hinstalled h₂
      refine meets_commit hinv hb hr hn.toIsInstalled commitOrphan_none hinstalled h₂ ?_ ?_
      · intro _ x files₃ hx h₃
        exact reach_of_shape (.committed hb hn.toIsInstalled hx hinstalled) h₃
      · intro hne
        exact absurd rfl hne
    · intro _ files₂ e hreach
      exact hreach
  · -- The backup is refused before anything is written.
    simp only [persist, meets_bind, run_read, meets_done, afterwards_ok,
      A.provenance_originalSha256, ne_eq, not_true, if_false, Nat.not_le.mp hfits, if_true,
      run_fail, afterwards_error]
    exact reach_of_shape (.unstarted orphan_none) h

/-- An addition whose contents are within the size limit passes a crash
point with an exchange file and no binding for it. -/
theorem passes_exchangeReady
    (hsequence : sequenceInUse P A.prepared.provenance.sequence files = false)
    (horiginal : A.original.length ≤ maxBackupBytes)
    (hinstalled : A.Fits)
    (h : Shape base A.op { service := some A.file } files) :
    ((addTransaction P A.prepared (A.file.identity P) A.original A.installed).run files).Passes
      fun files => files.get (.state (.commitExchange A.op)) ≠ none ∧
        files.get (.state (.publication .commit A.op)) = none := by
  have hinv : A.Covers base true true fun _ => True := fun _ _ => trivial
  refine Run.passes_bind (meets_persist hinv horiginal hsequence h ?_)
  intro b r files₁ hb hr h₁
  refine ⟨(), rfl, Run.passes_bind (meets_replace hinv hb hr h₁ ?_ ?_)⟩
  · intro n files₂ hn _ h₂
    refine ⟨(), rfl, Run.passes_bind (h₂.meets_create .commitIntent rfl rfl rfl
      (fun _ _ _ _ => trivial) ?_)⟩
    intro i files₃ hi h₃
    have hcurrent : identityAt P (.state (.record A.op)) (some maxRecordBytes) files₃ =
        .ok (r.identity P) :=
      h₃.identityAt_slot .record rfl rfl hr.links fun bound => fits_record hr bound _
    refine ⟨_, rfl, ?_⟩
    simp only [run_bind, run_read, hcurrent, bind_ok, stateIdentityMatches_record hr, Bool.not_true,
      Bool.false_eq_true, if_false]
    refine Run.passes_bind (meets_attempt.mpr (h₃.meets_create .exchange rfl rfl rfl
      (fun _ _ _ _ => trivial) ?_))
    intro x files₄ hx h₄
    have hfree : files₄.get (.state (.publication .commit A.op)) = none :=
      h₄.get_none .commitBinding rfl rfl
    have hexchange : files₄.get (.state (.commitExchange A.op)) = some (.regular x) :=
      h₄.get_file .exchange rfl rfl
    refine ⟨_, rfl, ?_⟩
    change ((((atomicStateCreate P (.publication .commit A.op) (.binding (A.commitBinding x))).run
      files₄).bind _).attempt.bind _).Passes _
    rw [run_atomicStateCreate_of_none hfree]
    refine Run.passes_step ⟨?_, hfree⟩
    rw [hexchange]
    simp
  · intro hover
    omega

end Addition

end Facelock.Store
