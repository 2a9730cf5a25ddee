import Mathlib.Data.Finmap

/-!
# Directories

A directory is a finite map from names to entries.  The four operations
that a directory offers are the ones a file system makes atomic: create a
name, unlink a name, move a name to a free one, and exchange two names.
Each of them is total here; the caller checks what the system call
checks.

Two directories with the same entry under every name are equal
(`Dir.ext_get`), and every operation is known by its effect on `get`.

`Dir.Within` bounds a directory from above: it says for each name which
entries may stand under it.  Removing a name never breaks such a bound,
and a move keeps it if what the first name may hold the second may hold
too.
-/

namespace Facelock

/-- A finite map from names to entries. -/
structure Dir (ν ε : Type) where
  entries : Finmap fun _ : ν => ε

namespace Dir

variable {ν ε : Type} [DecidableEq ν]

instance : EmptyCollection (Dir ν ε) := ⟨⟨∅⟩⟩

variable (dir : Dir ν ε) (name : ν)

def get : Option ε :=
  dir.entries.lookup name

def set (entry : ε) : Dir ν ε :=
  ⟨dir.entries.insert name entry⟩

def remove : Dir ν ε :=
  ⟨dir.entries.erase name⟩

/-- `RENAME_NOREPLACE` of an entry that is there to a name that is free. -/
def rename (source destination : ν) (entry : ε) : Dir ν ε :=
  (dir.remove source).set destination entry

/-- `RENAME_EXCHANGE` of two names that are there. -/
def exchange (left right : ν) (leftEntry rightEntry : ε) : Dir ν ε :=
  (dir.set left rightEntry).set right leftEntry

theorem ext_get {dir dir' : Dir ν ε} (h : ∀ name, dir.get name = dir'.get name) : dir = dir' := by
  cases dir
  cases dir'
  congr 1
  exact Finmap.ext_lookup h

@[simp] theorem get_empty : (∅ : Dir ν ε).get name = none := rfl

theorem get_set (entry : ε) (other : ν) :
    (dir.set name entry).get other = if other = name then some entry else dir.get other := by
  unfold get set
  split
  next h => rw [h, Finmap.lookup_insert]
  next h => rw [Finmap.lookup_insert_of_ne _ h]

@[simp] theorem get_set_self (entry : ε) : (dir.set name entry).get name = some entry := by
  simp [get_set]

theorem get_set_of_ne {name other} (entry : ε) (h : other ≠ name) :
    (dir.set name entry).get other = dir.get other := by
  simp [get_set, h]

theorem get_remove (name other : ν) :
    (dir.remove name).get other = if other = name then none else dir.get other := by
  unfold get remove
  split
  next h => rw [h, Finmap.lookup_erase]
  next h => rw [Finmap.lookup_erase_ne h]

@[simp] theorem get_remove_self : (dir.remove name).get name = none := by
  simp [get_remove]

theorem get_remove_of_ne {name other} (h : other ≠ name) :
    (dir.remove name).get other = dir.get other := by
  simp [get_remove, h]

theorem remove_set {name : ν} (entry : ε) (h : dir.get name = none) :
    (dir.set name entry).remove name = dir := by
  apply ext_get
  intro other
  rw [get_remove, get_set]
  split
  next hother => rw [hother, h]
  next => rfl

def names : Finset ν :=
  dir.entries.keys

theorem mem_names : name ∈ dir.names ↔ dir.get name ≠ none := by
  rw [names, Finmap.mem_keys, get, ne_eq, Finmap.lookup_eq_none, not_not]

/-! ## Bounds -/

/-- Every entry is one that is accepted under its name. -/
def Within (accepted : ν → ε → Prop) (dir : Dir ν ε) : Prop :=
  ∀ name entry, dir.get name = some entry → accepted name entry

section Within

variable {dir : Dir ν ε} {accepted accepted' : ν → ε → Prop}

theorem Within.mono (h : dir.Within accepted)
    (haccepted : ∀ name entry, accepted name entry → accepted' name entry) : dir.Within accepted' :=
  fun name entry hget => haccepted name entry (h name entry hget)

theorem Within.remove (h : dir.Within accepted) (name : ν) : (dir.remove name).Within accepted := by
  intro other entry hget
  rw [get_remove] at hget
  split at hget
  · cases hget
  · exact h other entry hget

/-- A new entry, under a bound that may be another one for its name. -/
theorem Within.set (h : dir.Within accepted) {name entry} (hentry : accepted' name entry)
    (hother : ∀ other, other ≠ name → ∀ e, accepted other e → accepted' other e) :
    (dir.set name entry).Within accepted' := by
  intro other e hget
  rw [get_set] at hget
  split at hget
  · rename_i hname
    subst hname
    cases hget
    exact hentry
  · rename_i hne
    exact hother other hne e (h other e hget)

theorem Within.exchange (h : dir.Within accepted) {left right leftEntry rightEntry}
    (hleft : dir.get left = some leftEntry) (hright : dir.get right = some rightEntry)
    (hmove : ∀ e, accepted left e ↔ accepted right e) :
    (dir.exchange left right leftEntry rightEntry).Within accepted := by
  have hfirst : (dir.set left rightEntry).Within accepted :=
    h.set ((hmove rightEntry).mpr (h right rightEntry hright)) fun _ _ _ hentry => hentry
  exact hfirst.set ((hmove leftEntry).mp (h left leftEntry hleft)) fun _ _ _ hentry => hentry

end Within

end Dir

end Facelock
