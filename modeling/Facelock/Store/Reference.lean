import Facelock.Store.Files
import Mathlib.Data.Countable.Basic
import Mathlib.Logic.Equiv.List
import Mathlib.Tactic.DeriveCountable

/-!
# A platform

The assumptions of `Platform` can be met together: contents are countable,
so a digest without collisions exists; a directory is finite, so there is
always an unused inode number and an unused time stamp.
-/

namespace Facelock.Store

instance countableUInt8 : Countable UInt8 :=
  Function.Injective.countable (f := UInt8.toNat) fun _ _ h => UInt8.toNat_inj.mp h

instance countableChar : Countable Char :=
  Function.Injective.countable (f := Char.toNat) fun _ _ h => Char.ext (UInt32.toNat_inj.mp h)

instance countableString : Countable String :=
  Function.Injective.countable (f := String.toList) fun _ _ h => String.ext h

instance : Countable Pam.Bytes := inferInstanceAs (Countable (List UInt8))

deriving instance Countable for BackupName, Operation, IntentRole, PublicationRole,
  ProvenanceState, ProvenanceRecord, StateIntent, FileIdentity, PublicationBinding,
  RemoveAllJournalTarget, RemoveAllJournal, RemoveAllCommittedTarget, RemoveAllCommit, Content

/-- The names of the state directory among the names in use. -/
def stateNames : Name → Option StateName
  | .state name => some name
  | .pam _ => none

def pamNames : Name → Option PamName
  | .state _ => none
  | .pam name => some name

def inodeAt (files : Files) (name : Name) : Nat :=
  match files.get name with
  | some (.regular file) => file.inode
  | _ => 0

def stampOf : Name → Nat
  | .state (.temp _ _ stamp) => stamp
  | .state (.batchTemp _ _ stamp) => stamp
  | _ => 0

theorem exists_freshInode (files : Files) :
    ∃ inode, ∀ name file, files.get name = some (.regular file) → file.inode ≠ inode := by
  obtain ⟨inode, hinode⟩ := Infinite.exists_notMem_finset (files.names.image (inodeAt files))
  refine ⟨inode, ?_⟩
  rintro name file hfile rfl
  apply hinode
  rw [Finset.mem_image]
  refine ⟨name, (files.mem_names name).mpr (by simp [hfile]), ?_⟩
  simp [inodeAt, hfile]

theorem exists_freshStamp (files : Files) :
    ∃ stamp, ∀ name, stampOf name = stamp → files.get name = none := by
  obtain ⟨stamp, hstamp⟩ := Infinite.exists_notMem_finset (files.names.image stampOf)
  refine ⟨stamp, ?_⟩
  intro name hname
  by_contra hne
  apply hstamp
  rw [Finset.mem_image]
  exact ⟨name, (files.mem_names name).mpr hne, hname⟩

theorem nodup_filterMap_names {α : Type} {f : Name → Option α} (files : Files)
    (hf : ∀ name name' value, f name = some value → f name' = some value → name = name') :
    (files.names.toList.filterMap f).Nodup := by
  refine files.names.nodup_toList.filterMap ?_
  intro name name' value h h'
  exact hf name name' value h h'

/-- A platform with the clock at zero. -/
noncomputable def referencePlatform : Platform where
  sha256 := (exists_injective_nat Content).choose
  sha256_injective := (exists_injective_nat Content).choose_spec
  freshInode files := (exists_freshInode files).choose
  freshInode_unused files := (exists_freshInode files).choose_spec
  stamp files := (exists_freshStamp files).choose
  stamp_unused files _ _ := (exists_freshStamp files).choose_spec _ rfl
  batchStamp_unused files _ _ := (exists_freshStamp files).choose_spec _ rfl
  clock _ := epoch
  today _ := Pam.ascii "1970-01-01"
  readDir files := files.names.toList.filterMap stateNames
  mem_readDir files name := by
    rw [List.mem_filterMap, ← files.mem_names]
    constructor
    · rintro ⟨found, hfound, hname⟩
      cases found with
      | state found =>
        obtain rfl := Option.some.inj hname
        exact Finset.mem_toList.mp hfound
      | pam found => cases hname
    · intro hname
      exact ⟨_, Finset.mem_toList.mpr hname, rfl⟩
  nodup_readDir files := by
    apply nodup_filterMap_names
    intro name name' value h h'
    cases name <;> cases name' <;> simp_all [stateNames]
  readPam files := files.names.toList.filterMap pamNames
  readBatch batch := batch.names.toList
  mem_readBatch batch name := by rw [Finset.mem_toList, batch.mem_names]
  expectedOwner := (0, 0)
  stateDevice := 0
  pamDevice := 0

end Facelock.Store
