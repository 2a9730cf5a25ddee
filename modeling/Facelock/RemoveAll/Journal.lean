import Facelock.RemoveAll.Originals

/-!
# Recovery and the journal

What the recovery of the machine-wide removal does to the reserved names,
and that it keeps the originals of a journal without a marker.

`Loads` says what `load_remove_all_state` has found out when it succeeds:
every reserved name is accounted for, so there is at most one journal and
at most one marker, and a marker belongs to the journal.  Hence recovery
goes forward only if every journal has its marker, and it goes back only
over the journal that it has loaded.
-/

namespace Facelock.Store

open Facelock.Crash
open Facelock.Pam (Bytes)

variable {P : Platform} {dirs : PamDirs} {batch : Batch}

/-! ## What the reserved names hold -/

/-- Every reserved name is one that the store could have made. -/
def ValidNames (batch : Batch) : Prop :=
  ∀ name, batch.get name ≠ none → validRemoveAllOperation name.operation = true

def NoJournal (batch : Batch) : Prop :=
  ∀ operation, batch.get (.journal operation) = none

/-- Every journal has its marker. -/
def JournalsMarked (batch : Batch) : Prop :=
  ∀ operation, batch.get (.journal operation) ≠ none → batch.get (.commit operation) ≠ none

/-- Every journal is the given one, under its own name. -/
def Sole (batch : Batch) (journal : RemoveAllJournal) : Prop :=
  ∀ operation entry, batch.get (.journal operation) = some entry →
    operation = journal.operation ∧
      ∃ file, entry = .regular file ∧ file.content = .journal journal

/-- A journal without its marker. -/
def Uncommitted (fs : FileSystem) (journal : RemoveAllJournal) : Prop :=
  ∃ operation file, fs.batch.get (.journal operation) = some (.regular file) ∧
    file.content = .journal journal ∧ fs.batch.get (.commit operation) = none

/-- The reserved names are valid, and every journal without its marker has
its originals. -/
structure Sound (P : Platform) (fs : FileSystem) : Prop where
  names : ValidNames fs.batch
  originals : ∀ journal, Uncommitted fs journal → LinkedAll P journal.targets fs.files

theorem ValidNames.remove (h : ValidNames batch) (name : BatchName) :
    ValidNames (batch.remove name) := by
  intro other hother
  apply h
  rw [Dir.get_remove] at hother
  split at hother
  · exact absurd rfl hother
  · exact hother

variable {name : BatchName}

theorem ValidNames.set (h : ValidNames batch) (entry : Entry)
    (hname : validRemoveAllOperation name.operation = true) :
    ValidNames (batch.set name entry) := by
  intro other hother
  rw [Dir.get_set] at hother
  split at hother
  next heq => rw [heq, hname]
  next => exact h other hother

theorem NoJournal.remove (h : NoJournal batch) (name : BatchName) :
    NoJournal (batch.remove name) := by
  intro operation
  rw [Dir.get_remove, h]
  split <;> rfl

theorem NoJournal.marked (h : NoJournal batch) : JournalsMarked batch :=
  fun operation hne => absurd (h operation) hne

theorem JournalsMarked.not_uncommitted {fs : FileSystem} (h : JournalsMarked fs.batch)
    (journal : RemoveAllJournal) : ¬Uncommitted fs journal := by
  rintro ⟨operation, file, hget, -, hcommit⟩
  exact h operation (by simp [hget]) hcommit

theorem JournalsMarked.sound (h : JournalsMarked batch) (hnames : ValidNames batch)
    (files : Files) : Sound P ⟨files, batch⟩ where
  names := hnames
  originals := fun journal hjournal => absurd hjournal (h.not_uncommitted journal)

theorem Sole.eq_of_uncommitted {fs : FileSystem} {journal other} (h : Sole fs.batch journal)
    (hother : Uncommitted fs other) : other = journal := by
  obtain ⟨operation, file, hget, hcontent, -⟩ := hother
  obtain ⟨-, found, hentry, hfound⟩ := h operation _ hget
  cases hentry
  exact Content.journal.inj (hcontent.symm.trans hfound)

theorem Sole.sound {journal} (h : Sole batch journal) (hnames : ValidNames batch) {files}
    (hlinked : LinkedAll P journal.targets files) :
    Sound P ⟨files, batch⟩ where
  names := hnames
  originals := by
    intro other hother
    rw [h.eq_of_uncommitted hother]
    exact hlinked

theorem noJournal_remove
    (h : ∀ operation, batch.get (.journal operation) ≠ none → name = .journal operation) :
    NoJournal (batch.remove name) := by
  intro operation
  rw [Dir.get_remove]
  split
  next => rfl
  next hne =>
    by_contra hpresent
    exact hne (h operation hpresent).symm

/-! ## Loading -/

/-- A loaded journal is the content of its name. -/
structure IsJournal (batch : Batch) (operation : Operation)
    (journal : LoadedRemoveAll RemoveAllJournal) : Prop where
  name : journal.name = .journal operation
  isOperation : journal.value.operation = operation
  valid : validRemoveAllJournal journal.value = true
  content : ∃ file, batch.get (.journal operation) = some (.regular file) ∧
    file.content = .journal journal.value

structure IsCommit (batch : Batch) (operation : Operation)
    (commit : LoadedRemoveAll RemoveAllCommit) : Prop where
  isOperation : commit.value.operation = operation
  present : batch.get (.commit operation) ≠ none

/-- A name that has had its turn is the one that was loaded. -/
def Accounted (batch : Batch) (loaded : LoadedState) : BatchName → Prop
  | .journal operation => ∃ journal, loaded.journal = some journal ∧
      IsJournal batch operation journal
  | .commit operation => ∃ commit, loaded.commit = some commit ∧ IsCommit batch operation commit

theorem openBatchAt_ok {file} (h : openBatchAt name batch = .ok file) :
    batch.get name = some (.regular file) := by
  unfold openBatchAt at h
  split at h
  next => cases h
  next => cases h
  next found hget =>
    split at h
    · cases h
      exact hget
    · cases h

variable {loaded next : LoadedState}

theorem loadEntry_cases (hvalid : validRemoveAllOperation name.operation = true)
    (h : loadEntry P batch loaded name = .ok next) :
    (∃ operation commit, name = .commit operation ∧ loaded.commit = none ∧
      next = { loaded with commit := some commit } ∧ IsCommit batch operation commit) ∨
    (∃ operation journal, name = .journal operation ∧ loaded.journal = none ∧
      next = { loaded with journal := some journal } ∧ IsJournal batch operation journal) := by
  unfold loadEntry at h
  rw [if_pos hvalid] at h
  split at h
  next => cases h
  next file hopen =>
    have hget := openBatchAt_ok hopen
    dsimp only at h
    split at h
    next =>
      split at h
      next operation value hcontent =>
        split at h
        next hcommit =>
          split at h
          next => cases h
          next hnone =>
            cases h
            refine .inl ⟨operation, _, rfl, ?_, rfl, hcommit.1.symm, by simp [hget]⟩
            simpa using hnone
        next => cases h
      next operation value hcontent =>
        split at h
        next hjournal =>
          split at h
          next => cases h
          next hnone =>
            cases h
            refine .inr ⟨operation, _, rfl, ?_, rfl, rfl, hjournal.1.symm, hjournal.2, file, hget,
              hcontent⟩
            simpa using hnone
        next => cases h
      next => cases h
      next => cases h
    next => cases h

/-- What was loaded stays loaded. -/
structure Extends (loaded next : LoadedState) : Prop where
  journal : ∀ journal, loaded.journal = some journal → next.journal = some journal
  commit : ∀ commit, loaded.commit = some commit → next.commit = some commit

theorem Accounted.extends (h : Accounted batch loaded name) (hnext : Extends loaded next) :
    Accounted batch next name := by
  cases name with
  | journal operation =>
    obtain ⟨journal, hjournal, hisJournal⟩ := h
    exact ⟨journal, hnext.journal journal hjournal, hisJournal⟩
  | commit operation =>
    obtain ⟨commit, hcommit, hisCommit⟩ := h
    exact ⟨commit, hnext.commit commit hcommit, hisCommit⟩

/-- What is loaded is the content of some name. -/
structure FromBatch (batch : Batch) (loaded : LoadedState) : Prop where
  journal : ∀ journal, loaded.journal = some journal →
    ∃ operation, IsJournal batch operation journal
  commit : ∀ commit, loaded.commit = some commit → ∃ operation, IsCommit batch operation commit

theorem loadEntry_ok (hvalid : validRemoveAllOperation name.operation = true)
    (hfrom : FromBatch batch loaded) (h : loadEntry P batch loaded name = .ok next) :
    Accounted batch next name ∧ Extends loaded next ∧ FromBatch batch next := by
  rcases loadEntry_cases hvalid h with
    ⟨operation, commit, rfl, hnone, rfl, hisCommit⟩ |
    ⟨operation, journal, rfl, hnone, rfl, hisJournal⟩
  · refine ⟨⟨commit, rfl, hisCommit⟩, ⟨fun _ hj => hj, ?_⟩, ⟨hfrom.journal, ?_⟩⟩
    · intro other hother
      rw [hnone] at hother
      cases hother
    · rintro _ ⟨⟩
      exact ⟨operation, hisCommit⟩
  · refine ⟨⟨journal, rfl, hisJournal⟩, ⟨?_, fun _ hc => hc⟩, ⟨?_, hfrom.commit⟩⟩
    · intro other hother
      rw [hnone] at hother
      cases hother
    · rintro _ ⟨⟩
      exact ⟨operation, hisJournal⟩

theorem loadEntries_ok {names : List BatchName} {final}
    (hvalid : ∀ name ∈ names, validRemoveAllOperation name.operation = true)
    (hfrom : FromBatch batch loaded) (h : names.foldlM (loadEntry P batch) loaded = .ok final) :
    (∀ name ∈ names, Accounted batch final name) ∧ Extends loaded final ∧
      FromBatch batch final := by
  induction names generalizing loaded with
  | nil =>
    cases h
    exact ⟨nofun, ⟨fun _ hj => hj, fun _ hc => hc⟩, hfrom⟩
  | cons name names ih =>
    obtain ⟨next, hround, h⟩ := bind_eq_ok h
    obtain ⟨hvalidName, hvalid⟩ := List.forall_mem_cons.mp hvalid
    obtain ⟨hname, hnext, hfromNext⟩ := loadEntry_ok hvalidName hfrom hround
    obtain ⟨hnames, hfinal, hfromFinal⟩ := ih hvalid hfromNext h
    refine ⟨List.forall_mem_cons.mpr ⟨hname.extends hfinal, hnames⟩, ⟨?_, ?_⟩, hfromFinal⟩
    · intro journal hjournal
      exact hfinal.journal journal (hnext.journal journal hjournal)
    · intro commit hcommit
      exact hfinal.commit commit (hnext.commit commit hcommit)

/-- What a successful load says about the reserved names. -/
structure Loads (batch : Batch) (loaded : LoadedState) : Prop where
  journals : ∀ operation, batch.get (.journal operation) ≠ none →
    ∃ journal, loaded.journal = some journal ∧ IsJournal batch operation journal
  commits : ∀ operation, batch.get (.commit operation) ≠ none →
    ∃ commit, loaded.commit = some commit ∧ IsCommit batch operation commit
  same : ∀ journal commit, loaded.journal = some journal → loaded.commit = some commit →
    commit.value.operation = journal.value.operation
  source : FromBatch batch loaded

theorem loads_of_load (hnames : ValidNames batch) (h : loadRemoveAllState P batch = .ok loaded) :
    Loads batch loaded := by
  unfold loadRemoveAllState at h
  split at h
  next => cases h
  next found hfold =>
    have hempty : FromBatch batch { journal := none, commit := none } := ⟨nofun, nofun⟩
    obtain ⟨haccounted, -, hsource⟩ := loadEntries_ok (fun name hname =>
      hnames name ((P.mem_readBatch batch name).mp hname)) hempty hfold
    have hall : ∀ name, batch.get name ≠ none → Accounted batch found name :=
      fun name hname => haccounted name ((P.mem_readBatch batch name).mpr hname)
    have hfound : found = loaded ∧ ∀ journal commit, found.journal = some journal →
        found.commit = some commit → corresponding P journal commit = true := by
      split at h
      next journal commit hjournal hcommit =>
        split at h
        next hcorresponding =>
          refine ⟨Except.ok.inj h, ?_⟩
          intro j c hj hc
          rw [hjournal] at hj
          rw [hcommit] at hc
          cases hj
          cases hc
          exact hcorresponding
        next => cases h
      next hnot => exact ⟨Except.ok.inj h, fun j c hj hc => absurd hc (hnot j c hj)⟩
    obtain ⟨rfl, hcorresponding⟩ := hfound
    refine ⟨fun operation => hall (.journal operation), fun operation => hall (.commit operation),
      ?_, hsource⟩
    intro journal commit hjournal hcommit
    have hsame := hcorresponding journal commit hjournal hcommit
    simp only [corresponding, Bool.and_eq_true, decide_eq_true_eq] at hsame
    exact hsame.1.1.1.1

theorem Loads.sole (h : Loads batch loaded) {journal}
    (hjournal : loaded.journal = some journal) : Sole batch journal.value := by
  intro operation entry hentry
  obtain ⟨found, hfound, hisJournal⟩ := h.journals operation (by simp [hentry])
  cases hjournal.symm.trans hfound
  obtain ⟨file, hget, hcontent⟩ := hisJournal.content
  refine ⟨hisJournal.isOperation.symm, file, ?_, hcontent⟩
  exact Option.some.inj (hentry.symm.trans hget)

variable {commit : LoadedRemoveAll RemoveAllCommit}

/-- Next to a loaded marker every journal has its marker. -/
theorem Loads.marked (h : Loads batch loaded) (hcommit : loaded.commit = some commit) :
    JournalsMarked batch := by
  obtain ⟨operation, hisCommit⟩ := h.source.commit commit hcommit
  intro other hother
  obtain ⟨journal, hjournal, hisJournal⟩ := h.journals other hother
  have hsame := h.same journal commit hjournal hcommit
  rw [hisCommit.isOperation, hisJournal.isOperation] at hsame
  rw [← hsame]
  exact hisCommit.present

theorem Loads.noJournal (h : Loads batch loaded) (hjournal : loaded.journal = none) :
    NoJournal batch := by
  intro operation
  by_contra hne
  obtain ⟨journal, hsome, -⟩ := h.journals operation hne
  rw [hjournal] at hsome
  cases hsome

/-! ## Recovery -/

variable {inv : FileSystem → Prop} {fs : FileSystem}

theorem meets_onFiles {α : Type} {post} {action : Action α} :
    ((onFiles action).run fs).Meets inv post ↔
      (action.run fs.files).Meets (fun files => inv ⟨files, fs.batch⟩)
        fun result files => post result ⟨files, fs.batch⟩ :=
  meets_zoom

/-- A program on the files, where only the reserved names matter. -/
theorem meets_onFiles_of_batch {α : Type} {post : Except IoError α → FileSystem → Prop}
    (action : Action α) (hinv : ∀ files, inv ⟨files, fs.batch⟩)
    (hpost : ∀ result files, post result ⟨files, fs.batch⟩) :
    ((onFiles action).run fs).Meets inv post := by
  rw [meets_onFiles]
  induction action.run fs.files with
  | done state result => exact hpost result state
  | step state rest ih => exact ⟨hinv state, ih⟩

theorem meets_unlinkRemoveAllState {post} (name : BatchName) (expected : FileIdentity)
    (hinv : inv fs) (hok : post (.ok ()) ⟨fs.files, fs.batch.remove name⟩)
    (herror : ∀ e, post (.error e) fs) :
    ((unlinkRemoveAllState P name expected).run fs).Meets inv post := by
  unfold unlinkRemoveAllState
  cases hopen : openBatchAt name fs.batch with
  | error e =>
    rw [run_act_error (e := e) (by simp [hopen])]
    exact herror e
  | ok file =>
    by_cases hmatches : identityMatches expected (file.identity P) = true
    · rw [run_act_ok (by simp only [hopen, hmatches, if_true]; rfl)]
      exact ⟨hinv, hok⟩
    · rw [run_act_error (e := .other "state entry changed before owned cleanup")
        (by simp [hopen, hmatches])]
      exact herror _

theorem separate_of_valid {journal}
    (h : validRemoveAllJournal journal = true) : Separate journal.targets := by
  simp only [validRemoveAllJournal, Bool.and_eq_true, decide_eq_true_eq, List.all_eq_true] at h
  obtain ⟨⟨-, htargets⟩, hservices⟩ := h
  refine ⟨hservices, ?_⟩
  intro target htarget
  have hvalid := htargets target htarget
  simp only [validRemoveAllTarget, validBackupName, Bool.and_eq_true, decide_eq_true_eq] at hvalid
  exact hvalid.1.1.2.1.1

/-- The run keeps `inv`, and leaves no journal if it succeeds. -/
def Clears (inv : FileSystem → Prop) (run : Run FileSystem IoError Unit) : Prop :=
  run.Yields inv fun _ final => NoJournal final.batch

/-- The run keeps the originals.  If it succeeds, it leaves no journal, and
the originals of the targets are back. -/
def RollsBack (P : Platform) (targets : List RemoveAllJournalTarget)
    (run : Run FileSystem IoError Unit) : Prop :=
  run.Yields (Sound P) fun _ final => NoJournal final.batch ∧ Restored P targets final.files

theorem meets_rollbackRemoveAll {journal : LoadedRemoveAll RemoveAllJournal}
    (hname : journal.name = .journal journal.value.operation)
    (hsep : Separate journal.value.targets) (hsole : Sole fs.batch journal.value)
    (hnames : ValidNames fs.batch) (hlinked : LinkedAll P journal.value.targets fs.files) :
    RollsBack P journal.value.targets ((rollbackRemoveAll P journal).run fs) := by
  rw [RollsBack, Run.Yields, rollbackRemoveAll, meets_bind, meets_onFiles]
  refine (meets_rollbackFiles hsep hlinked).mono (fun files h => hsole.sound hnames h) ?_
  rintro (e | value) files ⟨h, hrestored⟩
  · exact ⟨hsole.sound hnames h, by simp⟩
  · -- the journal that goes last is the only one
    have hnone : NoJournal (fs.batch.remove journal.name) := by
      apply noJournal_remove
      intro other hother
      obtain ⟨entry, hentry⟩ := Option.ne_none_iff_exists'.mp hother
      rw [hname, (hsole other entry hentry).1]
    refine meets_unlinkRemoveAllState _ _ (hsole.sound hnames h)
      ⟨?_, fun _ _ => ⟨hnone, hrestored value rfl⟩⟩ fun e => ⟨hsole.sound hnames h, by simp⟩
    exact hnone.marked.sound (hnames.remove _) files

/-- The reserved names are valid, and every journal has its marker. -/
def Marked (fs : FileSystem) : Prop :=
  ValidNames fs.batch ∧ JournalsMarked fs.batch

/-- Going forward unlinks the journal before its marker. -/
theorem meets_finishCommittedRemoveAll {journal}
    (h : Marked fs)
    (hjournal : ∀ operation, fs.batch.get (.journal operation) ≠ none →
      ∃ loaded, journal = some loaded ∧ loaded.name = .journal operation) :
    Clears Marked ((finishCommittedRemoveAll P dirs journal commit).run fs) := by
  rw [Clears, Run.Yields, finishCommittedRemoveAll, meets_bind]
  refine meets_onFiles_of_batch _ (fun _ => h) ?_
  intro result files
  cases result with
  | error e => exact ⟨h, by simp⟩
  | ok value =>
    -- What is left once there is no journal: the marker goes.
    have hcommit : ∀ batch, ValidNames batch → NoJournal batch →
        Clears Marked ((unlinkRemoveAllState P commit.name commit.identity).run ⟨files, batch⟩) := by
      intro batch hnames hnone
      refine meets_unlinkRemoveAllState _ _ ⟨hnames, hnone.marked⟩ ?_
        fun e => ⟨⟨hnames, hnone.marked⟩, by simp⟩
      exact ⟨⟨hnames.remove _, (hnone.remove _).marked⟩, fun _ _ => hnone.remove _⟩
    cases journal with
    | none =>
      refine hcommit fs.batch h.1 ?_
      intro operation
      by_contra hne
      obtain ⟨loaded, hloaded, -⟩ := hjournal operation hne
      cases hloaded
    | some journal =>
      rw [afterwards_ok, meets_bind]
      have hnone : NoJournal (fs.batch.remove journal.name) := by
        apply noJournal_remove
        intro operation hpresent
        obtain ⟨loaded, hloaded, hname⟩ := hjournal operation hpresent
        cases hloaded
        exact hname
      refine meets_unlinkRemoveAllState _ _ h ?_ fun e => ⟨h, by simp⟩
      exact hcommit _ (h.1.remove _) hnone

theorem Marked.sound (h : Marked fs) : Sound P fs :=
  h.2.sound h.1 fs.files

theorem Loads.meets_finish (h : Loads fs.batch loaded) (hnames : ValidNames fs.batch)
    (hcommit : loaded.commit = some commit) :
    Clears Marked ((finishCommittedRemoveAll P dirs loaded.journal commit).run fs) := by
  refine meets_finishCommittedRemoveAll ⟨hnames, h.marked hcommit⟩ ?_
  intro operation hne
  obtain ⟨journal, hjournal, hisJournal⟩ := h.journals operation hne
  exact ⟨journal, hjournal, hisJournal.name⟩

/-- Recovery keeps the originals.  If it succeeds, it leaves no journal, and
what a journal without its marker had as originals is back. -/
theorem meets_recoverRemoveAllLocked (h : Sound P fs) :
    ((recoverRemoveAllLocked P dirs).run fs).Yields (Sound P) fun _ final =>
      NoJournal final.batch ∧
        ∀ journal, Uncommitted fs journal → Restored P journal.targets final.files := by
  refine yields_read_bind h fun loaded hload => ?_
  have hloads := loads_of_load h.names hload
  cases hcommit : loaded.commit with
  | some commit =>
    refine (hloads.meets_finish h.names hcommit).mono (fun _ hs => hs.sound) ?_
    intro result final hfinal
    refine ⟨hfinal.1.sound, fun value hvalue => ⟨hfinal.2 value hvalue, fun journal hjournal => ?_⟩⟩
    exact absurd hjournal ((hloads.marked hcommit).not_uncommitted journal)
  | none =>
    cases hjournal : loaded.journal with
    | none =>
      have hnone := hloads.noJournal hjournal
      exact yields_ok h ⟨hnone, fun journal hother =>
        absurd hother (hnone.marked.not_uncommitted journal)⟩
    | some journal =>
      obtain ⟨operation, hisJournal⟩ := hloads.source.journal journal hjournal
      obtain ⟨file, hget, hcontent⟩ := hisJournal.content
      have huncommitted : Uncommitted fs journal.value := by
        refine ⟨operation, file, hget, hcontent, ?_⟩
        by_contra hne
        obtain ⟨commit, hsome, -⟩ := hloads.commits operation hne
        rw [hcommit] at hsome
        cases hsome
      have hsole := hloads.sole hjournal
      refine (meets_rollbackRemoveAll ?_ (separate_of_valid hisJournal.valid) hsole h.names
        (h.originals _ huncommitted)).mono (fun _ hs => hs) ?_
      · rw [hisJournal.name, hisJournal.isOperation]
      · intro result final hfinal
        refine ⟨hfinal.1, fun value hvalue => ⟨(hfinal.2 value hvalue).1, fun other hother => ?_⟩⟩
        rw [hsole.eq_of_uncommitted hother]
        exact (hfinal.2 value hvalue).2

/-- From a state where every journal is marked, recovery only goes
forward. -/
theorem meets_recoverRemoveAllLocked_of_marked (h : Marked fs) :
    Clears Marked ((recoverRemoveAllLocked P dirs).run fs) := by
  refine yields_read_bind h fun loaded hload => ?_
  have hloads := loads_of_load h.1 hload
  cases hcommit : loaded.commit with
  | some commit => exact hloads.meets_finish h.1 hcommit
  | none =>
    cases hjournal : loaded.journal with
    | none => exact yields_ok h (hloads.noJournal hjournal)
    | some journal =>
      obtain ⟨operation, hisJournal⟩ := hloads.source.journal journal hjournal
      obtain ⟨file, hget, -⟩ := hisJournal.content
      obtain ⟨commit, hsome, -⟩ := hloads.commits operation (h.2 operation (by simp [hget]))
      rw [hcommit] at hsome
      cases hsome

theorem meets_transaction_of_recover (hmarked : ∀ state, Marked state → inv state)
    (hnames : ∀ state, inv state → ValidNames state.batch)
    (h : Clears inv ((recoverRemoveAllLocked P dirs).run fs)) :
    Clears inv ((transaction P dirs).run fs) := by
  refine h.bind fun _ final hfinal hnone => ?_
  have hinv : ∀ files, inv ⟨files, final.batch⟩ := fun files =>
    hmarked _ ⟨hnames final hfinal, hnone.marked⟩
  exact meets_onFiles_of_batch _ hinv fun _ files => ⟨hinv files, fun _ _ => hnone⟩

theorem meets_transaction_of_sound (h : Sound P fs) :
    Clears (Sound P) ((transaction P dirs).run fs) :=
  meets_transaction_of_recover (fun _ hs => hs.sound) (fun _ hs => hs.names)
    ((meets_recoverRemoveAllLocked h).mono (fun _ hs => hs) fun _ _ hs =>
      ⟨hs.1, fun value hvalue => (hs.2 value hvalue).1⟩)

theorem keeps_transaction_marked : (transaction P dirs).Keeps Marked := by
  intro fs h
  exact (meets_transaction_of_recover (fun _ hs => hs) (fun _ hs => hs.1)
    (meets_recoverRemoveAllLocked_of_marked h)).keeps

end Facelock.Store
