import Facelock.Add.Run

/-!
# The pass over bindings

The second pass of recovery, from each stage of an addition that has a
binding.  A replacement that is bound and not exchanged is taken back,
and one that is exchanged is kept; the same holds of a committed record.
A binding whose file is gone stays where it is.
-/

namespace Facelock.Store

open Facelock.Crash

variable {P : Platform} {dirs : PamDirs} {base files : Files} {own : OpFiles}

namespace Addition

variable {A : Addition P} {forward gap : Bool} {inv : Files → Prop}

/-! ## Identities -/

theorem fits_original (hfits : A.original.length ≤ maxBackupBytes) :
    A.file.content.fits maxBackupBytes = true := by
  rw [A.content]
  exact decide_eq_true hfits

@[simp] theorem bindingIdentityMatches_replaceBinding (n : File) (identity : FileIdentity) :
    bindingIdentityMatches (A.replaceBinding n) identity = decide (n.identity P = identity) := rfl

@[simp] theorem bindingIdentityMatches_commitBinding (x : File) (identity : FileIdentity) :
    bindingIdentityMatches (A.commitBinding x) identity = decide (x.identity P = identity) := rfl

@[simp] theorem replaceBinding_service (n : File) : (A.replaceBinding n).service = A.op.service :=
  A.provenance_service

@[simp] theorem replaceBinding_role (n : File) : (A.replaceBinding n).role = .pamReplace := rfl

@[simp] theorem replaceIntent_role : A.replaceIntent.role = .pamReplace := rfl

@[simp] theorem replaceIntent_backup : A.replaceIntent.backup = A.op := rfl

@[simp] theorem replaceIntent_recordSha256 :
    A.replaceIntent.recordSha256 = some (P.sha256 A.record) := rfl

@[simp] theorem commitIntent_role : A.commitIntent.role = .commit := rfl

@[simp] theorem commitIntent_backup : A.commitIntent.backup = A.op := rfl

@[simp] theorem commitIntent_recordSha256 :
    A.commitIntent.recordSha256 = some (P.sha256 A.record) := rfl

@[simp] theorem commitIntent_replacementRecordSha256 :
    A.commitIntent.replacementRecordSha256 = some (P.sha256 A.committed) := rfl

variable {n : File}

theorem IsReplacement.identity_ne (hn : A.IsReplacement n) : n.identity P ≠ A.file.identity P := by
  intro h
  exact hn.inode (congrArg FileIdentity.inode h)

@[simp] theorem exactOriginalIntentIdentity_replaceIntent (identity : FileIdentity) :
    exactOriginalIntentIdentity A.replaceIntent identity =
      decide (identity = A.file.identity P) := by
  obtain ⟨device, inode, links, sha256, mode, uid, gid⟩ := identity
  simp only [exactOriginalIntentIdentity, replaceIntent, pamReplaceIntent, stateIntent,
    StateIntent.withOriginal, File.identity, Option.some.injEq, FileIdentity.mk.injEq,
    Bool.decide_and]
  ac_rfl

/-! ## Publications -/

/-- The binding of a replacement, as the scan returns it. -/
def replacePublication (A : Addition P) (n p : File) : ValidPublication :=
  { name := .publication .pamReplace A.op, binding := A.replaceBinding n, identity := p.identity P }

/-- The intent of a replacement, as the scan returns it. -/
def replaceValid (A : Addition P) (i : File) : ValidIntent :=
  { name := .intent .pamReplace A.op, intent := A.replaceIntent, identity := i.identity P }

/-- The binding of a committed record, as the scan returns it. -/
def commitPublication (A : Addition P) (x p : File) : ValidPublication :=
  { name := .publication .commit A.op, binding := A.commitBinding x, identity := p.identity P }

/-- The intent of a commit, as the scan returns it. -/
def commitValid (A : Addition P) (i : File) : ValidIntent :=
  { name := .intent .commit A.op, intent := A.commitIntent, identity := i.identity P }

theorem publicationMatchesIntent_replace {i} (hn : A.IsReplacement n)
    (hi : A.IsReplaceIntent i) :
    publicationMatchesIntent (A.replaceBinding n) (A.replaceValid i) = true := by
  have hsha : P.sha256 (.bytes A.installed) = P.sha256 n.content := by rw [hn.content]
  simp only [publicationMatchesIntent, Bool.and_eq_true, decide_eq_true_eq]
  exact ⟨⟨⟨⟨⟨rfl, rfl⟩, rfl⟩, rfl⟩, hi.identity_sha256.symm⟩, decide_eq_true hsha⟩

variable {x : File}

theorem publicationMatchesIntent_commit {i} (hx : A.IsCommitted x)
    (hi : A.IsCommitIntent i) :
    publicationMatchesIntent (A.commitBinding x) (A.commitValid i) = true := by
  have hsha : some (P.sha256 A.committed) = some (x.identity P).sha256 := by
    rw [hx.identity_sha256]
  simp only [publicationMatchesIntent, Bool.and_eq_true, decide_eq_true_eq]
  exact ⟨⟨⟨⟨⟨rfl, rfl⟩, rfl⟩, rfl⟩, hi.identity_sha256.symm⟩, decide_eq_true hsha⟩

theorem run_recoverPublications_nil (h : Shape base A.op own files) (hbase : Settled P base)
    (hcommit : own.commitBinding = none) (hreplace : own.replaceBinding = none) :
    (recoverPublications P dirs).run files = .done files (.ok ()) := by
  have hnone : validatedPublications P files = [] := by
    refine h.validatedPublications_eq_nil hbase ?_
    intro k hk
    cases k <;> simp [Slot.isBinding] at hk
    · exact hcommit
    · exact hreplace
  simp only [recoverPublications, run_bind, run_read, bind_ok, hnone]
  rfl

variable {p : File}

section

variable (h : Shape base A.op own files) (hbase : Settled P base)

include h hbase

theorem run_recoverPublications_replace
    (hn : A.IsReplacement n) (hcommit : own.commitBinding = none)
    (hfile : own.replaceBinding = some p) (hp : A.BindsReplacement n p)
    (hi : ∀ i ∈ own.replaceIntent, A.IsReplaceIntent i) :
    (recoverPublications P dirs).run files =
      (recoverPamPublication P dirs (A.replacePublication n p)
        (own.replaceIntent.map A.replaceValid) (.pamReplace A.op)).run files := by
  have hpublications : validatedPublications P files = [A.replacePublication n p] := by
    refine h.validatedPublications_eq_singleton hbase (k := .replaceBinding) rfl hfile hp rfl rfl
      (A.valid_replaceBinding hn.links) ?_
    intro k hk hne
    cases k <;> simp [Slot.isBinding] at hk hne
    exact hcommit
  refine run_recoverPublications_one hpublications ?_ ?_
  · cases hintent : own.replaceIntent with
    | none => exact find_intent_eq_none (h.get_none .replaceIntent rfl hintent)
    | some i =>
      have hmem : A.replaceValid i ∈ validatedIntents P files :=
        h.mem_validatedIntents (k := .replaceIntent) rfl hintent (hi i hintent) rfl rfl
          A.valid_replaceIntent
      exact find_intent_eq_some hmem (publicationMatchesIntent_replace hn (hi i hintent))
  · intro hnone
    have hempty : own.get .replaceIntent = none := Option.map_eq_none_iff.mp hnone
    exact h.entryExistsAt_empty .replaceIntent rfl hempty

theorem run_recoverPublications_commit
    (hx : A.IsCommitted x) (hreplace : own.replaceBinding = none)
    (hfile : own.commitBinding = some p) (hp : A.BindsCommit x p)
    (hi : ∀ i ∈ own.commitIntent, A.IsCommitIntent i) :
    (recoverPublications P dirs).run files =
      (recoverCommitPublication P (A.commitPublication x p)
        (own.commitIntent.map A.commitValid)).run files := by
  have hpublications : validatedPublications P files = [A.commitPublication x p] := by
    refine h.validatedPublications_eq_singleton hbase (k := .commitBinding) rfl hfile hp rfl rfl
      (A.valid_commitBinding hx.links) ?_
    intro k hk hne
    cases k <;> simp [Slot.isBinding] at hk hne
    exact hreplace
  refine run_recoverPublications_one hpublications ?_ ?_
  · cases hintent : own.commitIntent with
    | none => exact find_intent_eq_none (h.get_none .commitIntent rfl hintent)
    | some i =>
      have hmem : A.commitValid i ∈ validatedIntents P files :=
        h.mem_validatedIntents (k := .commitIntent) rfl hintent (hi i hintent) rfl rfl
          A.valid_commitIntent
      exact find_intent_eq_some hmem (publicationMatchesIntent_commit hx (hi i hintent))
  · intro hnone
    have hempty : own.get .commitIntent = none := Option.map_eq_none_iff.mp hnone
    exact h.entryExistsAt_empty .commitIntent rfl hempty

/-- The binding of a replacement that is gone stays. -/
theorem run_recoverPublications_orphan {p} (hp : A.Orphan forward p)
    (hservice : own.service = some A.file) (htemp : own.temp = none)
    (hcommit : own.commitBinding = none) (hfile : own.replaceBinding = p)
    (hi : ∀ i ∈ own.replaceIntent, A.IsReplaceIntent i) :
    (recoverPublications P dirs).run files = .done files (.ok ()) := by
  cases p with
  | none => exact run_recoverPublications_nil h hbase hcommit hfile
  | some p =>
    obtain ⟨hfits, n, hn, hstate⟩ := hp.2 p rfl
    have hcanonical : openIdentityAt P (.pam (.service A.op.service)) maxBackupBytes files =
        .ok (some (A.file.identity P)) :=
      h.openIdentityAt_slot .service rfl hservice A.links (fits_original hfits)
    have htempName : openIdentityAt P (.pam (.pamReplace A.op)) maxBackupBytes files = .ok none :=
      h.openIdentityAt_empty .temp rfl htemp
    rw [run_recoverPublications_replace h hbase hn hcommit hfile hstate hi]
    cases own.replaceIntent <;>
      simp [recoverPamPublication, run_bind, replacePublication, hcanonical, htempName,
        hn.identity_ne]

end

theorem orphan_some (hfits : A.original.length ≤ maxBackupBytes) (hn : A.IsReplacement n)
    (hp : A.BindsReplacement n p) : A.Orphan false (some p) := by
  refine ⟨by simp, ?_⟩
  intro file hfile
  obtain rfl := Option.some.inj hfile
  exact ⟨hfits, n, hn, hp⟩

theorem commitOrphan_some (hx : A.IsCommitted x)
    (hp : A.BindsCommit x p) : A.CommitOrphan false (some p) := by
  refine ⟨by simp, ?_⟩
  intro file hfile
  obtain rfl := Option.some.inj hfile
  exact ⟨x, hx, hp⟩

variable {r : File} {post : Except IoError Unit → Files → Prop}

section

variable (hinv : A.Covers base false gap inv) (hbase : Settled P base)

include hinv hbase

/-- A replacement that is bound and not exchanged is taken back. -/
theorem meets_recoverPublications_bound {b i} (hb : A.IsBackup b) (hr : A.IsRecord r)
    (hi : A.IsReplaceIntent i) (hn : A.IsReplacement n)
    (hp : A.BindsReplacement n p)
    (h : Shape base A.op
      { OpFiles.saved A.file b r with
        temp := some n, replaceIntent := some i, replaceBinding := some p } files)
    (hok : A.Fits → A.EndsAt base post (.saved A.file b r))
    (herror : maxBackupBytes < A.installed.length → ∀ e, post (.error e) files) :
    ((recoverPublications P dirs).run files).Meets inv post := by
  have hcanonical : openIdentityAt P (.pam (.service A.op.service)) maxBackupBytes files =
      .ok (some (A.file.identity P)) :=
    h.openIdentityAt_slot .service rfl rfl A.links (fits_original hb.fits)
  rw [run_recoverPublications_replace h hbase hn rfl rfl hp (by simpa using hi)]
  by_cases hfits : A.Fits
  · have htemp : openIdentityAt P (.pam (.pamReplace A.op)) maxBackupBytes files =
        .ok (some (n.identity P)) :=
      h.openIdentityAt_slot .temp rfl rfl hn.links (hn.fits hfits)
    simp only [recoverPamPublication, meets_bind, run_read, replacePublication,
      replaceBinding_service, hcanonical, htemp, meets_done, afterwards_ok, Option.map_some,
      replaceValid, exactOriginalIntentIdentity_replaceIntent,
      bindingIdentityMatches_replaceBinding, decide_true, Bool.and_true, Bool.true_or, if_true]
    refine h.meets_unlink .temp rfl rfl hn.links (hn.fits hfits) ?_ ?_
    · exact hinv.at_stage (.bound hb hr hi hn hp) .bare h
    intro files₁ h₁
    simp only [afterwards_ok, finishPamPublication, replaceBinding_role, reduceCtorEq, if_false,
      finishRecoveredPublication, meets_bind]
    refine hinv.meets_unlink h₁ (.unbound hb hr hi (orphan_some hb.fits hn hp)) .replaceIntent rfl
      rfl hi rfl ?_
    intro files₂ h₂
    refine hinv.meets_unlink h₂ (.paired hb hr (orphan_some hb.fits hn hp)) .replaceBinding rfl rfl
      hp rfl ?_
    intro files₃ h₃
    exact hok hfits files₃ h₃
  · have hget : files.get (.pam (.pamReplace A.op)) = some (.regular n) :=
      h.get_file .temp rfl rfl
    simp only [recoverPamPublication, meets_bind, run_read, replacePublication,
      replaceBinding_service, hcanonical, meets_done, afterwards_ok,
      openIdentityAt_oversized hget hn.links (hn.oversized hfits), afterwards_error]
    exact herror (Nat.not_le.mp hfits) _

/-- A replacement that is exchanged is kept. -/
theorem meets_recoverPublications_exchanged {b i t} (hb : A.IsBackup b)
    (hr : A.IsRecord r) (hi : A.IsReplaceIntent i)
    (hn : A.IsReplacement n) (hp : A.BindsReplacement n p)
    (ht : ∀ file ∈ t, file = A.file)
    (h : Shape base A.op
      { OpFiles.saved n b r with temp := t, replaceIntent := some i, replaceBinding := some p }
      files)
    (hok : A.Fits → A.EndsAt base post (.saved n b r))
    (herror : maxBackupBytes < A.installed.length → ∀ e, post (.error e) files) :
    ((recoverPublications P dirs).run files).Meets inv post := by
  rw [run_recoverPublications_replace h hbase hn rfl rfl hp (by simpa using hi)]
  by_cases hfits : A.Fits
  · have hcanonical : openIdentityAt P (.pam (.service A.op.service)) maxBackupBytes files =
        .ok (some (n.identity P)) :=
      h.openIdentityAt_slot .service rfl rfl hn.links (hn.fits hfits)
    -- Once the displaced file is gone, only the evidence is left.
    have hfinish : ∀ files₁, Shape base A.op
        { OpFiles.saved n b r with replaceIntent := some i, replaceBinding := some p } files₁ →
        ((finishPamPublication P dirs (A.replacePublication n p)
          (some (A.replaceValid i))).run files₁).Meets inv post := by
      intro files₁ h₁
      simp only [finishPamPublication, replacePublication, replaceBinding_role, reduceCtorEq,
        if_false, finishRecoveredPublication, meets_bind]
      refine hinv.meets_unlink h₁ (.exchanged (t := none) hb hr hi hn hp (by simp)) .replaceIntent
        rfl rfl hi rfl ?_
      intro files₂ h₂
      refine hinv.meets_unlink h₂ (.published hb hr hn hp hfits) .replaceBinding rfl rfl hp rfl ?_
      intro files₃ h₃
      exact hok hfits files₃ h₃
    cases t with
    | none =>
      have htemp : openIdentityAt P (.pam (.pamReplace A.op)) maxBackupBytes files = .ok none :=
        h.openIdentityAt_empty .temp rfl rfl
      simp only [recoverPamPublication, meets_bind, run_read, replacePublication,
        replaceBinding_service, hcanonical, htemp, meets_done, afterwards_ok, Option.map_some,
        bindingIdentityMatches_replaceBinding, decide_true, if_true]
      exact hfinish files h
    | some displaced =>
      obtain rfl := ht displaced rfl
      have htemp : openIdentityAt P (.pam (.pamReplace A.op)) maxBackupBytes files =
          .ok (some (A.file.identity P)) :=
        h.openIdentityAt_slot .temp rfl rfl A.links (fits_original hb.fits)
      simp only [recoverPamPublication, meets_bind, run_read, replacePublication,
        replaceBinding_service, hcanonical, htemp, meets_done, afterwards_ok, Option.map_some,
        replaceValid, exactOriginalIntentIdentity_replaceIntent,
        bindingIdentityMatches_replaceBinding, decide_true, Bool.and_true, Bool.or_true, if_true]
      refine h.meets_unlink .temp rfl rfl A.links (fits_original hb.fits) ?_ hfinish
      exact hinv.at_stage (.exchanged (t := some A.file) hb hr hi hn hp (by simp)) .bare h
  · have hget : files.get (.pam (.service A.op.service)) = some (.regular n) :=
      h.get_file .service rfl rfl
    simp only [recoverPamPublication, meets_bind, run_read, replacePublication,
      replaceBinding_service, meets_done, openIdentityAt_oversized hget hn.links (hn.oversized hfits),
      afterwards_error]
    exact herror (Nat.not_le.mp hfits) _

theorem meets_recoverPublications_published {b} (hb : A.IsBackup b) (hr : A.IsRecord r)
    (hn : A.IsReplacement n) (hp : A.BindsReplacement n p)
    (hfits : A.Fits)
    (h : Shape base A.op { OpFiles.saved n b r with replaceBinding := some p } files)
    (hok : A.EndsAt base post (.saved n b r)) :
    ((recoverPublications P dirs).run files).Meets inv post := by
  have hcanonical : openIdentityAt P (.pam (.service A.op.service)) maxBackupBytes files =
      .ok (some (n.identity P)) :=
    h.openIdentityAt_slot .service rfl rfl hn.links (hn.fits hfits)
  have htemp : openIdentityAt P (.pam (.pamReplace A.op)) maxBackupBytes files = .ok none :=
    h.openIdentityAt_empty .temp rfl rfl
  rw [run_recoverPublications_replace h hbase hn rfl rfl hp (by simp)]
  simp only [recoverPamPublication, meets_bind, run_read, replacePublication,
    replaceBinding_service, hcanonical, htemp, meets_done, afterwards_ok, Option.map_none,
    bindingIdentityMatches_replaceBinding, decide_true, if_true, finishPamPublication,
    replaceBinding_role, reduceCtorEq, if_false, finishRecoveredPublication]
  exact hinv.meets_unlink h (.published hb hr hn hp hfits) .replaceBinding rfl rfl hp rfl hok

end

/-! ### Committed records -/

theorem identity_committed_ne (hr : A.IsRecord r) (hx : A.IsCommitted x) :
    x.identity P ≠ r.identity P := by
  intro h
  have hsha : P.sha256 A.committed = P.sha256 A.record := by
    rw [← hx.identity_sha256, ← hr.identity_sha256, h]
  have hrecord := Content.record.inj (P.sha256_injective hsha)
  have hstate := congrArg ProvenanceRecord.state hrecord
  rw [A.provenance_state] at hstate
  cases hstate

@[simp] theorem commitBinding_backup : (A.commitBinding x).backup = A.op := rfl

@[simp] theorem commitValid_recordSha256 {i} :
    (some (A.commitValid i)).bind (fun valid => valid.intent.recordSha256) =
      some (P.sha256 (.record A.prepared.provenance)) := rfl

theorem openIdentityAt_record {k name content} (h : Shape base A.op own files)
    (hname : k.name A.op = .state name) (hfile : own.get k = some r)
    (hr : IsState P (.record content) r) :
    openIdentityAt P (.state name) maxRecordBytes files = .ok (some (r.identity P)) :=
  h.openIdentityAt_slot k hname hfile hr.links (by rw [hr.content]; rfl)

theorem openIdentityAt_canonical {content} (h : Shape base A.op own files)
    (hfile : own.record = some r) (hr : IsState P (.record content) r) :
    openIdentityAt P (.state (.record A.op)) maxRecordBytes files = .ok (some (r.identity P)) :=
  openIdentityAt_record (k := .record) h rfl hfile hr

theorem openIdentityAt_exchange {content} (h : Shape base A.op own files)
    (hfile : own.exchange = some r) (hr : IsState P (.record content) r) :
    openIdentityAt P (.state (.commitExchange A.op)) maxRecordBytes files =
      .ok (some (r.identity P)) :=
  openIdentityAt_record (k := .exchange) h rfl hfile hr

theorem openIdentityAt_noExchange (h : Shape base A.op own files) (hfile : own.exchange = none) :
    openIdentityAt P (.state (.commitExchange A.op)) maxRecordBytes files = .ok none :=
  h.openIdentityAt_empty .exchange rfl hfile

/-- The binding of a committed record that is gone stays. -/
theorem run_recoverPublications_commitOrphan {p} (h : Shape base A.op own files)
    (hbase : Settled P base) (hr : A.IsRecord r) (hp : A.CommitOrphan forward p)
    (hrecord : own.record = some r) (hexchange : own.exchange = none)
    (hreplace : own.replaceBinding = none) (hfile : own.commitBinding = p)
    (hi : ∀ i ∈ own.commitIntent, A.IsCommitIntent i) :
    (recoverPublications P dirs).run files = .done files (.ok ()) := by
  cases p with
  | none => exact run_recoverPublications_nil h hbase hfile hreplace
  | some p =>
    obtain ⟨x, hx, hstate⟩ := hp.2 p rfl
    rw [run_recoverPublications_commit h hbase hx hreplace hfile hstate hi]
    cases own.commitIntent <;>
      simp [recoverCommitPublication, run_bind, commitPublication, commitBinding_backup,
        openIdentityAt_canonical h hrecord hr, openIdentityAt_noExchange h hexchange,
        identity_committed_ne hr hx]

/-- An exchange file that its binding does not name stays. -/
theorem run_recoverPublications_commitMismatch {b i other} (hbase : Settled P base)
    (hr : A.IsRecord r) (hi : A.IsCommitIntent i)
    (hx : A.IsCommitted x) (hother : A.IsCommitted other)
    (hne : other.identity P ≠ x.identity P) (hp : A.BindsCommit other p)
    (h : Shape base A.op
      { OpFiles.saved n b r with
        commitIntent := some i, exchange := some x, commitBinding := some p } files) :
    (recoverPublications P dirs).run files = .done files (.ok ()) := by
  rw [run_recoverPublications_commit h hbase hother rfl rfl hp (by simpa using hi)]
  simp [recoverCommitPublication, run_bind, commitPublication, commitBinding_backup,
    openIdentityAt_canonical h rfl hr, openIdentityAt_exchange h rfl hx,
    identity_committed_ne hr hother, hne]

section

variable (hinv : A.Covers base false gap inv) (hbase : Settled P base)

include hinv hbase

/-- A committed record that is bound and not exchanged is taken back. -/
theorem meets_recoverPublications_commitBound {b i} (hb : A.IsBackup b)
    (hr : A.IsRecord r) (hn : A.IsInstalled n)
    (hi : A.IsCommitIntent i) (hx : A.IsCommitted x)
    (hp : A.BindsCommit x p) (hfits : A.Fits)
    (h : Shape base A.op
      { OpFiles.saved n b r with
        commitIntent := some i, exchange := some x, commitBinding := some p } files)
    (hok : A.EndsAt base post (.saved n b r)) :
    ((recoverPublications P dirs).run files).Meets inv post := by
  rw [run_recoverPublications_commit h hbase hx rfl rfl hp (by simpa using hi)]
  simp only [recoverCommitPublication, meets_bind, run_read, commitPublication,
    commitBinding_backup, openIdentityAt_canonical h rfl hr, openIdentityAt_exchange h rfl hx,
    meets_done, afterwards_ok, Option.map_some, commitValid_recordSha256,
    stateIdentityMatches_record hr, bindingIdentityMatches_commitBinding, decide_true,
    Bool.and_true, Bool.true_or, if_true]
  refine hinv.meets_unlink h (.commitBound hb hr hn hi hx hp hfits) .exchange rfl rfl hx rfl ?_
  intro files₁ h₁
  simp only [afterwards_ok, finishRecoveredPublication, meets_bind]
  refine hinv.meets_unlink h₁ (.committing hb hr hn hi (commitOrphan_some hx hp) hfits)
    .commitIntent rfl rfl hi rfl ?_
  intro files₂ h₂
  exact hinv.meets_unlink h₂ (.installed hb hr hn (commitOrphan_some hx hp) hfits) .commitBinding
    rfl rfl hp rfl hok

/-- A committed record that is in place is kept. -/
theorem meets_recoverPublications_commitExchanged {b i r} (hb : A.IsBackup b)
    (hr : ∀ file ∈ r, A.IsRecord file) (hn : A.IsInstalled n)
    (hi : A.IsCommitIntent i) (hx : A.IsCommitted x)
    (hp : A.BindsCommit x p) (hfits : A.Fits)
    (h : Shape base A.op
      { OpFiles.saved n b x with commitIntent := some i, exchange := r, commitBinding := some p }
      files)
    (hok : A.EndsAt base post (.saved n b x)) :
    ((recoverPublications P dirs).run files).Meets inv post := by
  have hfinish : ∀ files₁, Shape base A.op
      { OpFiles.saved n b x with commitIntent := some i, commitBinding := some p } files₁ →
      ((finishRecoveredPublication P (some (A.commitValid i)) (A.commitPublication x p)).run
        files₁).Meets inv post := by
    intro files₁ h₁
    simp only [finishRecoveredPublication, meets_bind]
    refine hinv.meets_unlink h₁ (.commitDisplaced hb hn hi hx hp hfits) .commitIntent rfl rfl hi rfl
      ?_
    intro files₂ h₂
    exact hinv.meets_unlink h₂ (.commitPublished hb hn hx hp hfits) .commitBinding rfl rfl hp rfl
      hok
  rw [run_recoverPublications_commit h hbase hx rfl rfl hp (by simpa using hi)]
  cases r with
  | none =>
    simp only [recoverCommitPublication, meets_bind, run_read, commitPublication,
      commitBinding_backup, openIdentityAt_canonical h rfl hx, openIdentityAt_noExchange h rfl,
      meets_done, afterwards_ok, Option.map_some, bindingIdentityMatches_commitBinding,
      decide_true, if_true]
    exact hfinish files h
  | some r =>
    have hr := hr r rfl
    simp only [recoverCommitPublication, meets_bind, run_read, commitPublication,
      commitBinding_backup, openIdentityAt_canonical h rfl hx, openIdentityAt_exchange h rfl hr,
      meets_done, afterwards_ok, Option.map_some, commitValid_recordSha256,
      stateIdentityMatches_record hr, bindingIdentityMatches_commitBinding, decide_true,
      Bool.and_true, Bool.or_true, if_true]
    exact hinv.meets_unlink h (.commitExchanged hb hr hn hi hx hp hfits) .exchange rfl rfl hr rfl
      hfinish

theorem meets_recoverPublications_commitPublished {b} (hb : A.IsBackup b) (hn : A.IsInstalled n)
    (hx : A.IsCommitted x) (hp : A.BindsCommit x p)
    (hfits : A.Fits)
    (h : Shape base A.op { OpFiles.saved n b x with commitBinding := some p } files)
    (hok : A.EndsAt base post (.saved n b x)) :
    ((recoverPublications P dirs).run files).Meets inv post := by
  rw [run_recoverPublications_commit h hbase hx rfl rfl hp (by simp)]
  simp only [recoverCommitPublication, meets_bind, run_read, commitPublication,
    commitBinding_backup, openIdentityAt_canonical h rfl hx, openIdentityAt_noExchange h rfl,
    meets_done, afterwards_ok, Option.map_none, bindingIdentityMatches_commitBinding, decide_true,
    if_true, finishRecoveredPublication]
  exact hinv.meets_unlink h (.commitPublished hb hn hx hp hfits) .commitBinding rfl rfl hp rfl hok

end

end Addition

end Facelock.Store
