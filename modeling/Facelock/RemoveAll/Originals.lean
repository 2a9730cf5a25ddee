import Facelock.RemoveAll.Run
import Facelock.Store.Footprint

/-!
# The originals of the machine-wide removal

Until the marker exists, every file that the removal has displaced must be
there for the rollback.  The original of a target is linked under one of
two names: the service, before the exchange and after the rollback, and
the temporary name of the replacement in between.

Both directions keep this, one target at a time.  The forward exchange
starts from an original under the service name (`InPlace`) and moves it to
the temporary name; the rollback moves it back, and unlinks the temporary
name only once it has read the original under the service.  The names of
one target are not those of another (`Separate`), so the other targets
need no attention.
-/

namespace Facelock.Store

open Facelock.Crash List
open Facelock.Pam (Bytes)

variable {P : Platform}

/-- A regular file with this identity has the name. -/
def Holds (P : Platform) (files : Files) (name : Name) (identity : FileIdentity) : Prop :=
  ∃ file, files.get name = some (.regular file) ∧ file.identity P = identity

namespace RemoveAllJournalTarget

def serviceName (target : RemoveAllJournalTarget) : Name := .pam (.service target.service)

def tempName (target : RemoveAllJournalTarget) : Name := .pam (.pamReplace target.backup)

end RemoveAllJournalTarget

/-- The original is linked under one of the names of its target. -/
def Linked (P : Platform) (target : RemoveAllJournalTarget) (files : Files) : Prop :=
  Holds P files target.serviceName target.original ∨ Holds P files target.tempName target.original

def LinkedAll (P : Platform) (targets : List RemoveAllJournalTarget) (files : Files) : Prop :=
  ∀ target ∈ targets, Linked P target files

/-- No two targets share a service or a backup. -/
structure Separate (targets : List RemoveAllJournalTarget) : Prop where
  services : (targets.map (·.service)).Nodup
  backups : ∀ target ∈ targets, target.backup.service = target.service

theorem Separate.service_ne {targets} (h : Separate targets) {target other} (ht : target ∈ targets)
    (ho : other ∈ targets) (hne : other ≠ target) : other.service ≠ target.service := by
  intro heq
  exact hne (inj_on_of_nodup_map h.services ho ht heq)

/-! ## One target among the others -/

def OthersLinked (P : Platform) (targets : List RemoveAllJournalTarget)
    (target : RemoveAllJournalTarget) (files : Files) : Prop :=
  ∀ other ∈ targets, other ≠ target → Linked P other files

/-- The original of a target is under its service name. -/
def InPlace (P : Platform) (targets : List RemoveAllJournalTarget)
    (target : RemoveAllJournalTarget) (files : Files) : Prop :=
  OthersLinked P targets target files ∧ Holds P files target.serviceName target.original

/-- The original of a target is under its temporary name. -/
def Displaced (P : Platform) (targets : List RemoveAllJournalTarget)
    (target : RemoveAllJournalTarget) (files : Files) : Prop :=
  OthersLinked P targets target files ∧ Holds P files target.tempName target.original

/-- The names that the removal touches for one target. -/
def RemoveAllJournalTarget.touched (target : RemoveAllJournalTarget) : Set Name :=
  {name | (∃ state, name = .state state) ∨ name = target.serviceName ∨ name = target.tempName}

/-- The same without the service name. -/
def RemoveAllJournalTarget.besides (target : RemoveAllJournalTarget) : Set Name :=
  {name | (∃ state, name = .state state) ∨ name = target.tempName}

section Target

variable {targets : List RemoveAllJournalTarget} {target : RemoveAllJournalTarget} {files : Files}

theorem LinkedAll.others (h : LinkedAll P targets files) : OthersLinked P targets target files :=
  fun other hother _ => h other hother

theorem OthersLinked.linkedAll (h : OthersLinked P targets target files)
    (htarget : Linked P target files) : LinkedAll P targets files := by
  intro other hother
  by_cases heq : other = target
  · rw [heq]
    exact htarget
  · exact h other hother heq

theorem InPlace.linkedAll (h : InPlace P targets target files) : LinkedAll P targets files :=
  h.1.linkedAll (.inl h.2)

theorem Displaced.linkedAll (h : Displaced P targets target files) : LinkedAll P targets files :=
  h.1.linkedAll (.inr h.2)

variable {name : Name} {identity : FileIdentity}

theorem Holds.congr {files'} (h : Holds P files name identity)
    (hget : files'.get name = files.get name) : Holds P files' name identity := by
  obtain ⟨file, hfile, hidentity⟩ := h
  exact ⟨file, hget.trans hfile, hidentity⟩

theorem Linked.congr {files'} (h : Linked P target files)
    (hservice : files'.get target.serviceName = files.get target.serviceName)
    (htemp : files'.get target.tempName = files.get target.tempName) : Linked P target files' :=
  h.imp (fun h => h.congr hservice) fun h => h.congr htemp

theorem Separate.names_not_touched (hsep : Separate targets) {other} (ht : target ∈ targets)
    (ho : other ∈ targets) (hne : other ≠ target) :
    other.serviceName ∉ target.touched ∧ other.tempName ∉ target.touched := by
  have hservice := hsep.service_ne ht ho hne
  have hbackup : other.backup ≠ target.backup := by
    intro heq
    apply hservice
    rw [← hsep.backups other ho, ← hsep.backups target ht, heq]
  simp [RemoveAllJournalTarget.touched, RemoveAllJournalTarget.serviceName,
    RemoveAllJournalTarget.tempName, hservice, hbackup]

theorem ignores_othersLinked (hsep : Separate targets) (ht : target ∈ targets) :
    Ignores target.touched (OthersLinked P targets target) := by
  intro files files' hsame h other ho hne
  obtain ⟨hservice, htemp⟩ := hsep.names_not_touched ht ho hne
  exact (h other ho hne).congr (hsame _ hservice) (hsame _ htemp)

theorem ignores_inPlace (hsep : Separate targets) (ht : target ∈ targets) :
    Ignores target.besides (InPlace P targets target) := by
  intro files files' hsame h
  refine ⟨ignores_othersLinked hsep ht files files' ?_ h.1, h.2.congr (hsame _ ?_)⟩
  · intro name hname
    apply hsame
    intro hbesides
    exact hname (hbesides.imp id .inr)
  · simp [RemoveAllJournalTarget.besides, RemoveAllJournalTarget.serviceName,
      RemoveAllJournalTarget.tempName]

theorem state_mem_besides (name : StateName) : Name.state name ∈ target.besides :=
  .inl ⟨name, rfl⟩

theorem tempName_mem_besides : target.tempName ∈ target.besides :=
  .inr rfl

theorem ignores_linkedAll : Ignores (Set.range Name.state) (LinkedAll P targets) := by
  intro files files' hsame h other ho
  refine (h other ho).congr (hsame _ ?_) (hsame _ ?_)
  · simp [RemoveAllJournalTarget.serviceName]
  · simp [RemoveAllJournalTarget.tempName]

theorem state_mem_range (name : StateName) : Name.state name ∈ Set.range Name.state :=
  ⟨name, rfl⟩

/-! ## Reading -/

theorem holds_of_identityAt (h : identityAt P name none files = .ok identity) :
    Holds P files name identity := by
  obtain ⟨file, ⟨hget, -⟩, -, hidentity⟩ := identityAt_eq_ok.mp h
  exact ⟨file, hget, hidentity⟩

theorem holds_of_openIdentityAt {limit}
    (h : openIdentityAt P name limit files = .ok (some identity)) :
    Holds P files name identity := by
  obtain ⟨file, ⟨hget, -⟩, -, hidentity⟩ := openIdentityAt_eq_some.mp h
  exact ⟨file, hget, hidentity⟩

theorem holds_of_requireService {service} (h : requireService P service files = .ok identity) :
    Holds P files (.pam (.service service)) identity := by
  unfold requireService at h
  split at h
  next => cases h
  next => cases h
  next found hfound =>
    cases h
    exact holds_of_openIdentityAt hfound

theorem holds_of_readRegularNofollow {service content}
    (h : readRegularNofollow P service files = .ok (content, identity)) :
    Holds P files (.pam (.service service)) identity := by
  unfold readRegularNofollow at h
  split at h
  next file hopen =>
    split at h
    next =>
      cases h
      exact ⟨file, (openRegularAt_eq_ok.mp hopen).1, rfl⟩
    next => cases h
  next => cases h

/-- A service name that has passed the check holds the original. -/
theorem LinkedAll.inPlace (h : LinkedAll P targets files)
    (hmatches : ¬ (!identityMatches target.original identity) = true)
    (hholds : Holds P files target.serviceName identity) : InPlace P targets target files := by
  have heq : target.original = identity := by simpa [identityMatches] using hmatches
  exact ⟨h.others, heq ▸ hholds⟩

/-! ## The exchange -/

/-- An exchange of the two names of a target moves the original from one
to the other. -/
theorem renameExchange_ok (hsep : Separate targets) (ht : target ∈ targets)
    {next leftEntry rightEntry}
    (hnext : next = files.exchange target.tempName target.serviceName leftEntry rightEntry)
    (hleft : files.get target.tempName = some leftEntry)
    (hright : files.get target.serviceName = some rightEntry) :
    (InPlace P targets target files → Displaced P targets target next) ∧
      (Displaced P targets target files → InPlace P targets target next) := by
  have hne : target.tempName ≠ target.serviceName := by
    simp [RemoveAllJournalTarget.tempName, RemoveAllJournalTarget.serviceName]
  have htemp : next.get target.tempName = files.get target.serviceName := by
    rw [hnext, Dir.exchange, Dir.get_set_of_ne _ _ hne, Dir.get_set_self, hright]
  have hservice : next.get target.serviceName = files.get target.tempName := by
    rw [hnext, Dir.exchange, Dir.get_set_self, hleft]
  have hothers : OthersLinked P targets target files → OthersLinked P targets target next := by
    apply ignores_othersLinked hsep ht
    intro name hname
    have hname' : name ≠ target.serviceName ∧ name ≠ target.tempName := by
      constructor
      · intro heq
        exact hname (.inr (.inl heq))
      · intro heq
        exact hname (.inr (.inr heq))
    rw [hnext, Dir.exchange, Dir.get_set_of_ne _ _ hname'.1, Dir.get_set_of_ne _ _ hname'.2]
  constructor
  · intro h
    obtain ⟨file, hfile, hidentity⟩ := h.2
    exact ⟨hothers h.1, file, htemp.trans hfile, hidentity⟩
  · intro h
    obtain ⟨file, hfile, hidentity⟩ := h.2
    exact ⟨hothers h.1, file, hservice.trans hfile, hidentity⟩

theorem meets_renameExchange (before after : Files → Prop) (hfiles : before files)
    (hswap : ∀ next leftEntry rightEntry,
      next = files.exchange target.tempName target.serviceName leftEntry rightEntry →
      files.get target.tempName = some leftEntry →
      files.get target.serviceName = some rightEntry → after next) :
    ((renameExchangeAt target.tempName target.serviceName).run files).Meets before
      fun result final => (∀ value, result = .ok value → after final) ∧
        ∀ e, result = .error e → before final := by
  unfold renameExchangeAt
  cases hleft : files.get target.tempName with
  | none =>
    rw [run_act_error (e := .notFound) (by simp [hleft])]
    exact ⟨by simp, fun _ _ => hfiles⟩
  | some left =>
    cases hright : files.get target.serviceName with
    | none =>
      rw [run_act_error (e := .notFound) (by simp [hright])]
      exact ⟨by simp, fun _ _ => hfiles⟩
    | some right =>
      rw [run_act_ok (by simp only [hleft, hright]; rfl)]
      exact ⟨hfiles, fun _ _ => hswap _ left right rfl hleft hright, by simp⟩

/-! ## Forward -/

section Forward

variable (hsep : Separate targets) (ht : target ∈ targets)

include hsep ht

theorem keeps_createTempAt (content : Bytes) (model : FileIdentity) :
    (createTempAt P (.pamReplace target.backup) content model).Keeps
      (InPlace P targets target) := by
  have hignores := ignores_inPlace (P := P) hsep ht
  refine keeps_reading fun file => ?_
  refine keeps_bind (keeps_create hignores tempName_mem_besides _) fun _ => ?_
  refine keeps_ite ?_ (keeps_pure _)
  exact keeps_bind (keeps_cleanupUnpublishedTemp hignores tempName_mem_besides _ _ _) fun _ =>
    keeps_fail _

/-- The replacement is written only over an original that is in place. -/
theorem meets_createReplacement (content : Bytes) (h : LinkedAll P targets files) :
    ((createReplacement P target.service target.original content
        (.pamReplace target.backup)).run files).Yields (LinkedAll P targets) fun _ final =>
      InPlace P targets target final := by
  refine yields_read_bind h fun source hsource => ?_
  split
  next => exact yields_error h
  next hmatches =>
    refine Prog.Keeps.meets ?_ (h.inPlace hmatches (holds_of_identityAt hsource))
      (fun _ hs => hs.linkedAll) fun _ _ hs => ⟨hs.linkedAll, fun _ _ => hs⟩
    refine keeps_bind (keeps_createTempAt hsep ht _ _) fun created => ?_
    exact keeps_reading fun replacement => keeps_ite (keeps_pure _) (keeps_fail _)

theorem keeps_bindReplacement (role : PublicationRole) (intent : StateIntent)
    (replacement : FileIdentity) (message : String) :
    (bindReplacement P role intent (.pamReplace target.backup) replacement message).Keeps
      (InPlace P targets target) := by
  have hignores := ignores_inPlace (P := P) hsep ht
  refine keeps_attempt_bind (keeps_createPublicationBinding hignores state_mem_besides _ _ _)
    (fun _ => keeps_pure _) fun e => keeps_ite (keeps_fail _) ?_
  exact keeps_bind (keeps_cleanupUnpublishedTemp hignores tempName_mem_besides _ _ _) fun _ =>
    keeps_fail _

/-- A publication that the hook stops after the exchange. -/
theorem meets_exchangeReplacement (replacement : FileIdentity) (e : IoError)
    (h : InPlace P targets target files) :
    ((exchangeReplacement P target.service target.original (.pamReplace target.backup) replacement
        (.error e)).run files).Meets (LinkedAll P targets) fun _ final =>
      LinkedAll P targets final := by
  have hcleanup : ∀ message e, ((cleanupUnpublishedTemp P target.tempName replacement
      maxBackupBytes message >>= fun _ => Prog.fail e).run files).Meets (LinkedAll P targets)
        fun (_ : Except IoError Unit) final => LinkedAll P targets final := by
    intro message e
    refine Prog.Keeps.meets ?_ h (fun _ hs => hs.linkedAll) fun _ _ hs => hs.linkedAll
    exact keeps_bind (keeps_cleanupUnpublishedTemp (ignores_inPlace hsep ht)
      tempName_mem_besides _ _ _) fun _ => keeps_fail _
  simp only [exchangeReplacement, meets_bind, meets_attempt, run_read, meets_done, afterwards_ok]
  cases hsource : identityAt P (.pam (.service target.service)) none files with
  | error e => exact hcleanup _ _
  | ok source =>
    dsimp only
    split
    next => exact hcleanup _ _
    next =>
      simp only [meets_bind, meets_attempt]
      refine (meets_renameExchange (InPlace P targets target) (Displaced P targets target) h
        ?_).mono (fun _ hs => hs.linkedAll) ?_
      · intro next left right hnext hleft hright
        exact (renameExchange_ok hsep ht hnext hleft hright).1 h
      · rintro (e' | value) final ⟨hok, herror⟩
        · refine Prog.Keeps.meets ?_ (herror _ rfl) (fun _ hs => hs.linkedAll)
            fun _ _ hs => hs.linkedAll
          exact keeps_bind (keeps_cleanupUnpublishedTemp (ignores_inPlace hsep ht)
            tempName_mem_besides _ _ _) fun _ => keeps_fail _
        · exact (hok value rfl).linkedAll

/-- A replacement that is held back keeps the originals of all targets. -/
theorem keeps_mutatePam (intent : StateIntent) (content : Bytes) (e : IoError)
    (hservice : intent.service = target.service) (hbackup : intent.backup = target.backup) :
    (mutatePamWithIntent P pamReplaceKind intent target.original content (.error e)
      fun _ => pure ()).Keeps (LinkedAll P targets) := by
  have hignores : Ignores _ (LinkedAll P targets) := ignores_linkedAll
  refine keeps_bind (keeps_atomicStateCreate hignores state_mem_range _ _) fun identity => ?_
  intro files h
  rw [hservice, hbackup, meets_bind, meets_attempt]
  refine (meets_createReplacement hsep ht content h).mono (fun _ hs => hs) ?_
  rintro (e' | replacement) files₁ ⟨h₁, hplace⟩
  · exact keeps_concludeMutation hignores state_mem_range _ _ _ _ _ files₁ h₁
  rw [afterwards_ok, meets_bind, meets_attempt]
  refine Prog.Keeps.meets (keeps_bindReplacement hsep ht _ _ _ _) (hplace _ rfl)
    (fun _ hs => hs.linkedAll) ?_
  rintro (e' | publication) files₂ h₂
  · exact keeps_concludeMutation hignores state_mem_range _ _ _ _ _ files₂ h₂.linkedAll
  have hconclude : ∀ result, (concludeMutation P pamReplaceKind intent identity (some publication)
      result).Keeps (LinkedAll P targets) :=
    fun result => keeps_concludeMutation hignores state_mem_range _ _ _ _ _
  rw [afterwards_ok, meets_bind, meets_attempt, meets_bind]
  refine (meets_exchangeReplacement hsep ht replacement e h₂).mono (fun _ hs => hs) ?_
  rintro (e' | value) files₃ h₃
  · exact hconclude _ files₃ h₃
  · refine (keeps_bind (keeps_requirePublished _ _ _ _ _) fun _ =>
      keeps_pure ()).meets h₃ (fun _ hs => hs) ?_
    intro result files₄ h₄
    exact hconclude result files₄ h₄

theorem keeps_replacePamWithIntent {prepared} (content : Bytes) (e : IoError)
    (hservice : prepared.provenance.service = target.service)
    (hbackup : prepared.backup = target.backup) :
    (replacePamWithIntent P prepared target.original content (.error e)).Keeps
      (LinkedAll P targets) :=
  keeps_ite (keeps_fail _) (keeps_mutatePam hsep ht _ content e hservice hbackup)

end Forward

/-! ## Rolling back -/

/-- The originals of the targets are under their service names. -/
def Restored (P : Platform) (done : List RemoveAllJournalTarget) (files : Files) : Prop :=
  ∀ target ∈ done, Holds P files target.serviceName target.original

theorem ignores_restored {done : List RemoveAllJournalTarget} :
    Ignores (Set.range Name.state) (Restored P done) := by
  intro files files' hsame h other ho
  exact (h other ho).congr (hsame _ (by simp [RemoveAllJournalTarget.serviceName]))

theorem keeps_finishRolledBack {inv} (h : Ignores target.besides inv)
    (publication : ValidPublication) :
    (finishRolledBackRemoveAllPublication P target publication).Keeps inv := by
  have hrest : Prog.Keeps inv (do
      unlinkStateIfIdentityMatches P publication.name publication.identity
      let current ← Prog.read (requireService P target.service)
      let recovered ← recoverUnstartedRemoveAllPublication P target current
      if recovered then pure ()
      else Prog.fail (.other "rolled-back PAM intent is not exact unstarted evidence")) := by
    refine keeps_bind (keeps_unlinkState h state_mem_besides _ _) fun _ => ?_
    refine keeps_reading fun current => ?_
    refine keeps_bind (keeps_recoverUnstarted h state_mem_besides _ _) fun _ => ?_
    exact keeps_ite (keeps_pure _) (keeps_fail _)
  refine keeps_reading fun current => keeps_ite (keeps_fail _) (keeps_reading fun temp => ?_)
  cases temp with
  | none => exact hrest
  | some temp =>
    refine keeps_ite (keeps_fail _) ?_
    exact keeps_bind (keeps_unlinkAtIfIdentityMatches h tempName_mem_besides _ _) fun _ => hrest

/-- A round of the rollback touches the names of its target. -/
theorem keeps_rollbackTarget {inv} (h : Ignores target.touched inv) :
    (rollbackTarget P target).Keeps inv := by
  have hbesides : Ignores target.besides inv := fun files files' hsame =>
    h files files' fun name hname => hsame name fun hmem => hname (hmem.imp id .inr)
  have hfinish : ∀ publication, (finishRolledBackRemoveAllPublication P target publication >>=
      fun _ => pure (none : Option String)).Keeps inv :=
    fun publication =>
      keeps_bind (keeps_finishRolledBack hbesides publication) fun _ => keeps_pure _
  refine keeps_attempt_bind (keeps_read _) (fun found => ?_) fun _ => keeps_pure _
  refine keeps_attempt_bind (keeps_recoverUnstarted hbesides state_mem_besides _ _)
    (fun recovered => ?_) fun _ => keeps_pure _
  cases recovered with
  | true => exact keeps_pure _
  | false =>
    refine keeps_attempt_bind (keeps_read _) (fun evidence => ?_) fun _ => keeps_pure _
    cases evidence with
    | none => exact keeps_ite (keeps_pure _) (keeps_pure _)
    | some evidence =>
      refine keeps_attempt_bind (keeps_read _) (fun temp => ?_) fun _ => keeps_pure _
      refine keeps_ite ?_ (keeps_ite (keeps_pure _) (hfinish _))
      exact keeps_attempt_bind (keeps_renameExchangeAt h (.inr (.inr rfl)) (.inr (.inl rfl)))
        (fun _ => hfinish _) fun _ => keeps_pure _

theorem keeps_rollbackTargets {inv : Files → Prop} {some : List RemoveAllJournalTarget}
    (h : ∀ target ∈ some, Ignores target.touched inv) : (rollbackTargets P some).Keeps inv := by
  induction some with
  | nil => exact keeps_pure _
  | cons target rest ih =>
    obtain ⟨htarget, hrest⟩ := forall_mem_cons.mp h
    refine keeps_bind (keeps_rollbackTarget htarget) fun _ => ?_
    exact keeps_bind (ih hrest) fun _ => keeps_pure _

section Back

variable (hsep : Separate targets) (ht : target ∈ targets)

include hsep ht

/-- Only an original in place passes the check of the service name. -/
theorem meets_finishRolledBack (publication : ValidPublication) (h : LinkedAll P targets files) :
    ((finishRolledBackRemoveAllPublication P target publication).run files).Yields
      (LinkedAll P targets) fun _ final => Holds P final target.serviceName target.original := by
  by_cases hplace : InPlace P targets target files
  · exact (keeps_finishRolledBack (ignores_inPlace hsep ht) publication).meets hplace
      (fun _ hs => hs.linkedAll) fun _ _ hs => ⟨hs.linkedAll, fun _ _ => hs.2⟩
  · refine yields_read_bind h fun current hcurrent => ?_
    split
    next => exact yields_error h
    next hmatches => exact absurd (h.inPlace hmatches (holds_of_requireService hcurrent)) hplace

/-- The answer of a round that has restored its target. -/
abbrev Restores (P : Platform) (target : RemoveAllJournalTarget) (message : Option String)
    (files : Files) : Prop :=
  message = none → Holds P files target.serviceName target.original

theorem meets_rollbackPublication (current : FileIdentity) (publication : ValidPublication)
    (h : LinkedAll P targets files) :
    ((rollbackPublication P target current publication).run files).Yields (LinkedAll P targets)
      (Restores P target) := by
  have hfinish : ∀ {files'}, LinkedAll P targets files' →
      ((finishRolledBackRemoveAllPublication P target publication >>= fun _ =>
        pure (none : Option String)).run files').Yields (LinkedAll P targets) (Restores P target) :=
    fun h' => (meets_finishRolledBack hsep ht publication h').bind fun _ _ hs hplace =>
      yields_ok hs fun _ => hplace
  rw [Run.Yields, rollbackPublication, meets_bind, meets_attempt, run_read, meets_done,
    afterwards_ok]
  cases htemp : openIdentityAt P (.pam (.pamReplace target.backup)) maxBackupBytes files with
  | error e => exact yields_ok h nofun
  | ok temp =>
    dsimp only
    split
    next hinstalled =>
      have hdisplaced : Displaced P targets target files := by
        refine ⟨h.others, ?_⟩
        rw [Bool.and_eq_true, decide_eq_true_eq] at hinstalled
        rw [hinstalled.2] at htemp
        exact holds_of_openIdentityAt htemp
      rw [meets_bind, meets_attempt]
      refine (meets_renameExchange (Displaced P targets target) (InPlace P targets target)
        hdisplaced ?_).mono (fun _ hs => hs.linkedAll) ?_
      · intro next left right hnext hleft hright
        exact (renameExchange_ok hsep ht hnext hleft hright).2 hdisplaced
      · rintro (e | value) final ⟨hok, herror⟩
        · exact yields_ok (herror _ rfl).linkedAll nofun
        · exact hfinish (hok value rfl).linkedAll
    next => exact yields_ite (fun _ => yields_ok h nofun) fun _ => hfinish h

/-- A round keeps the originals, and has restored its target if it reports
nothing. -/
theorem meets_rollbackTarget (h : LinkedAll P targets files) :
    ((rollbackTarget P target).run files).Yields (LinkedAll P targets) (Restores P target) := by
  rw [Run.Yields, rollbackTarget, meets_bind, meets_attempt, run_read, meets_done, afterwards_ok]
  cases hread : readRegularNofollow P target.service files with
  | error e => exact yields_ok h nofun
  | ok found =>
    obtain ⟨content, current⟩ := found
    have hcurrent : Holds P files target.serviceName current := holds_of_readRegularNofollow hread
    have hignores : Ignores (Set.range Name.state) fun files =>
        Holds P files target.serviceName current :=
      fun _ _ hsame hs => hs.congr (hsame _ (by simp [RemoveAllJournalTarget.serviceName]))
    rw [meets_bind, meets_attempt]
    refine ((meets_recoverUnstarted ignores_linkedAll state_mem_range target current h).and_keeps
      (keeps_recoverUnstarted hignores state_mem_range target current files hcurrent)).mono
      (fun _ hs => hs) ?_
    rintro (e | recovered) files₁ ⟨h₁, hrecovered⟩
    · exact yields_ok h₁ nofun
    obtain ⟨horiginal, hcurrent₁⟩ := hrecovered recovered rfl
    cases recovered with
    | true => exact yields_ok h₁ fun _ => horiginal rfl ▸ hcurrent₁
    | false =>
      rw [afterwards_ok, meets_bind, meets_attempt, run_read, meets_done, afterwards_ok]
      rcases exactBatchPublication P target files₁ with e | _ | evidence
      · exact yields_ok h₁ nofun
      · refine yields_ite (fun hmatches => yields_ok h₁ fun _ => ?_) fun _ => yields_ok h₁ nofun
        have heq : target.original = current := by simpa [identityMatches] using hmatches
        exact heq ▸ hcurrent₁
      · exact meets_rollbackPublication hsep ht current evidence.2 h₁

end Back

variable {some : List RemoveAllJournalTarget}

/-- The loop of the rollback.  A target that is restored is not touched by
the rounds of the others. -/
theorem meets_rollbackTargets (hsep : Separate targets) (hsome : ∀ target ∈ some, target ∈ targets)
    (hnodup : some.Nodup) (h : LinkedAll P targets files) :
    ((rollbackTargets P some).run files).Yields (LinkedAll P targets) fun messages final =>
      messages = [] → Restored P some final := by
  induction some generalizing files with
  | nil => exact yields_ok h fun _ => nofun
  | cons target rest ih =>
    obtain ⟨ht, hrest⟩ := forall_mem_cons.mp hsome
    obtain ⟨hnew, hnodup⟩ := nodup_cons.mp hnodup
    refine (meets_rollbackTarget hsep ht h).bind fun message files₁ h₁ hmessage => ?_
    cases message with
    | some message =>
      exact (ih hrest hnodup h₁).bind fun messages files₂ h₂ _ => yields_ok h₂ nofun
    | none =>
      have hframe : (rollbackTargets P rest).Keeps fun files =>
          Holds P files target.serviceName target.original := by
        refine keeps_rollbackTargets fun other ho _ _ hsame hs => hs.congr (hsame _ ?_)
        exact (hsep.names_not_touched (hrest other ho) ht fun heq => hnew (heq ▸ ho)).1
      refine ((ih hrest hnodup h₁).and_keeps (hframe files₁ (hmessage rfl))).bind
        fun messages files₂ h₂ hmessages => yields_ok h₂ fun hnone => ?_
      exact forall_mem_cons.mpr ⟨hmessages.2, hmessages.1 hnone⟩

/-- A rollback keeps the originals, and has restored them if it succeeds. -/
theorem meets_rollbackFiles {journal} (hsep : Separate journal.targets)
    (h : LinkedAll P journal.targets files) :
    ((rollbackFiles P journal).run files).Yields (LinkedAll P journal.targets) fun _ final =>
      Restored P journal.targets final := by
  have hnodup : journal.targets.reverse.Nodup :=
    nodup_reverse.mpr (List.Nodup.of_map _ hsep.services)
  refine (meets_rollbackTargets hsep (fun _ => mem_reverse.mp) hnodup h).bind
    fun messages files₁ h₁ hmessages => yields_ite (fun _ => yields_error h₁) fun hnone => ?_
  have hrestored : Restored P journal.targets files₁ := fun target ht =>
    hmessages (by simpa using hnone) target (mem_reverse.mpr ht)
  have hcleanup : ∀ {inv}, Ignores (Set.range Name.state) inv →
      (journal.targets.forM (cleanupRemoveAllPair P)).Keeps inv := fun hignores =>
    keeps_forM fun _ _ => keeps_cleanupRemoveAllPair hignores state_mem_range _
  refine (((hcleanup ignores_linkedAll).yields h₁).and_keeps
    (hcleanup ignores_restored files₁ hrestored)).mono (fun _ hs => hs) ?_
  exact fun _ _ hs => ⟨hs.1, fun value hvalue => (hs.2 value hvalue).2⟩

end Target

end Facelock.Store
