import Mathlib.Data.List.Pairwise
import Mathlib.Data.List.Nodup
import Facelock.Lib.Text

/-!
# The filesystem of a purge

Objects, the names that lead to them, and the descriptors that the purge
holds.  A `Node` is one object for as long as the system runs.  Its inode
number is an attribute: after the last name of an object is gone and its
last descriptor is closed, a new object may get the same number.  The
fields of `Filesystem` say what the kernel guarantees at every moment:

* a directory has at most one entry of a name (`unique`), and a directory
  is the entry of at most one (`once`);
* two objects that are both in use have different numbers (`apart`);
* a new object is none of those that were ever in use (`allocated`).

An object that is seen through another mount counts as another object, so
the mount ID of a descriptor is an attribute too.  The link count of an
object is the number of its entries.

`Move` is what another process can do between two calls of the purge:
create, rename (also over an existing name), hard-link and remove.  The
names it uses are public: none starts with the stem of the quarantine
names.  `Undisturbed` collects what a move leaves alone.
-/

namespace Facelock.Purge

open List

/-! ## Names and objects -/

/-- A directory entry's name.  A name that is not valid UTF-8 is kept as
its bytes. -/
inductive Name where
  | text (characters : String)
  | raw (bytes : List UInt8)
  deriving DecidableEq

def quarantineStem : String := ".facelock-purge-"

/-- The names that other processes never touch. -/
def Name.isQuarantine : Name → Bool
  | .text characters => Text.startsWith characters quarantineStem
  | .raw bytes => decide (quarantineStem.toList.map (fun c => c.toNat.toUInt8) <+: bytes)

/-- An object, for as long as the system runs. -/
abbrev Node := Nat

structure Attributes where
  dev : Nat
  ino : Nat
  mount : Nat
  mode : Nat
  uid : Nat
  gid : Nat
  content : List UInt8 := []

/-- What the purge reads of an object. -/
structure Stat where
  dev : Nat
  ino : Nat
  mode : Nat
  nlink : Nat
  uid : Nat
  gid : Nat
  size : Nat
  deriving DecidableEq

namespace Stat

def isDir (st : Stat) : Bool := st.mode &&& 0o170000 == 0o040000

def isRegular (st : Stat) : Bool := st.mode &&& 0o170000 == 0o100000

def isSymlink (st : Stat) : Bool := st.mode &&& 0o170000 == 0o120000

/-- All of the identity, with the link count. -/
def sameIdentity (st other : Stat) : Bool :=
  st.dev == other.dev && st.ino == other.ino && st.mode == other.mode &&
    st.nlink == other.nlink && st.uid == other.uid && st.gid == other.gid

/-- The identity of a directory leaves the link count out. -/
def sameDirectoryIdentity (st other : Stat) : Bool :=
  st.dev == other.dev && st.ino == other.ino && st.mode == other.mode &&
    st.uid == other.uid && st.gid == other.gid

theorem sameDirectoryIdentity_of_sameIdentity {st other : Stat} (h : st.sameIdentity other) :
    st.sameDirectoryIdentity other := by
  simp only [sameIdentity, sameDirectoryIdentity, Bool.and_eq_true] at h ⊢
  exact ⟨⟨h.1.1.1, h.1.2⟩, h.2⟩

theorem sameDirectoryIdentity_number {st other : Stat} (h : st.sameDirectoryIdentity other) :
    st.dev = other.dev ∧ st.ino = other.ino := by
  simp only [sameDirectoryIdentity, Bool.and_eq_true, beq_iff_eq] at h
  exact h.1.1.1

end Stat

def Attributes.isDir (attributes : Attributes) : Bool :=
  attributes.mode &&& 0o170000 == 0o040000

def Attributes.isSymlink (attributes : Attributes) : Bool :=
  attributes.mode &&& 0o170000 == 0o120000

/-- One entry of a directory. -/
structure Link where
  dir : Node
  name : Name
  node : Node
  deriving DecidableEq

def Link.key (link : Link) : Node × Name := (link.dir, link.name)

/-- The entry at `source` is now the entry at `target`. -/
def Link.moved (source target : Node × Name) (link : Link) : Link :=
  if link.key = source then ⟨target.1, target.2, link.node⟩ else link

@[simp] theorem Link.moved_node (source target : Node × Name) (link : Link) :
    (link.moved source target).node = link.node := by
  unfold moved
  split <;> rfl

variable {source target : Node × Name} {link : Link}

theorem Link.moved_of_ne (h : link.key ≠ source) : link.moved source target = link :=
  if_neg h

/-- The object has a name or a descriptor, or is the fixed anchor. -/
def InUse (anchor : Node) (links : List Link) (held : List Node) (node : Node) : Prop :=
  node = anchor ∨ (∃ link ∈ links, link.node = node) ∨ node ∈ held

/-! ## The state -/

structure Filesystem where
  /-- The directory that absolute paths start from. -/
  anchor : Node
  attributes : Node → Attributes
  links : List Link
  /-- The descriptors that the purge holds, the last one first. -/
  held : List Node
  /-- The object that is created next. -/
  next : Node
  unique : links.Pairwise fun a b => a.key ≠ b.key
  once : ∀ a ∈ links, ∀ b ∈ links, a.node = b.node → (attributes a.node).isDir → a = b
  allocated : ∀ node, InUse anchor links held node → node < next
  apart : ∀ a b, InUse anchor links held a → InUse anchor links held b →
    (attributes a).dev = (attributes b).dev → (attributes a).ino = (attributes b).ino →
    (attributes a).mount = (attributes b).mount → a = b
  anchor_unlinked : ∀ link ∈ links, link.node ≠ anchor

namespace Filesystem

variable (fs : Filesystem)

def InUse (node : Node) : Prop := Purge.InUse fs.anchor fs.links fs.held node

def find (dir : Node) (name : Name) : Option Link :=
  fs.links.find? fun link => link.key = (dir, name)

def entries (dir : Node) : List Link :=
  fs.links.filter fun link => link.dir = dir

variable (node : Node)

def nlink : Nat := fs.links.countP fun link => link.node = node

def stat : Stat :=
  let attributes := fs.attributes node
  { dev := attributes.dev
    ino := attributes.ino
    mode := attributes.mode
    nlink := fs.nlink node
    uid := attributes.uid
    gid := attributes.gid
    size := attributes.content.length }

variable {fs}

theorem key_inj {a b} (ha : a ∈ fs.links) (hb : b ∈ fs.links) (h : a.key = b.key) : a = b :=
  inj_on_of_nodup_map (pairwise_map.mpr fs.unique) ha hb h

theorem find_eq_some {dir name} :
    fs.find dir name = some link ↔ link ∈ fs.links ∧ link.key = (dir, name) := by
  constructor
  · intro h
    exact ⟨mem_of_find?_eq_some h, by simpa using find?_some h⟩
  · rintro ⟨hmem, hkey⟩
    cases hfind : fs.find dir name with
    | none => simpa [hkey] using find?_eq_none.mp hfind link hmem
    | some other =>
      have hkeys : other.key = (dir, name) := by simpa using find?_some hfind
      rw [key_inj (mem_of_find?_eq_some hfind) hmem (hkeys.trans hkey.symm)]

theorem find_eq_none {dir name} :
    fs.find dir name = none ↔ ∀ link ∈ fs.links, link.key ≠ (dir, name) := by
  simp [find]

theorem mem_of_find {dir name} (h : fs.find dir name = some link) :
    ⟨dir, name, link.node⟩ ∈ fs.links := by
  obtain ⟨hmem, hkey⟩ := find_eq_some.mp h
  obtain ⟨rfl, rfl⟩ := Prod.mk.injEq .. ▸ hkey
  exact hmem

theorem inUse_of_mem (h : link ∈ fs.links) : fs.InUse link.node :=
  .inr (.inl ⟨link, h, rfl⟩)

theorem inUse_of_held {node} (h : node ∈ fs.held) : fs.InUse node :=
  .inr (.inr h)

theorem lt_of_mem (h : link ∈ fs.links) : link.node < fs.next :=
  fs.allocated _ (inUse_of_mem h)

theorem lt_of_held {node} (h : node ∈ fs.held) : node < fs.next :=
  fs.allocated _ (inUse_of_held h)

/-! ## Changes of the entries and the descriptors -/

/-- The entry at `source` becomes the entry at `target`, which is free. -/
def relink (fs : Filesystem) (source target : Node × Name)
    (hfree : ∀ link ∈ fs.links, link.key ≠ target) : Filesystem :=
  have hused : ∀ node, Purge.InUse fs.anchor (fs.links.map (Link.moved source target)) fs.held
      node → fs.InUse node := by
    intro node hnode
    refine hnode.imp_right (Or.imp_left ?_)
    rintro ⟨_, hmem, rfl⟩
    obtain ⟨a, ha, rfl⟩ := mem_map.mp hmem
    exact ⟨a, ha, (Link.moved_node ..).symm⟩
  { fs with
    links := fs.links.map (Link.moved source target)
    unique := by
      rw [pairwise_map]
      refine fs.unique.imp_of_mem ?_
      intro a b ha hb hne
      by_cases has : a.key = source
      · have hbs : b.key ≠ source := fun hbs => hne (has.trans hbs.symm)
        rw [Link.moved_of_ne hbs, Link.moved, if_pos has]
        exact (hfree b hb).symm
      · rw [Link.moved_of_ne has]
        by_cases hbs : b.key = source
        · rw [Link.moved, if_pos hbs]
          exact hfree a ha
        · rwa [Link.moved_of_ne hbs]
    once := by
      simp only [mem_map]
      rintro _ ⟨a, ha, rfl⟩ _ ⟨b, hb, rfl⟩ hnode hdir
      rw [Link.moved_node, Link.moved_node] at hnode
      rw [Link.moved_node] at hdir
      rw [fs.once a ha b hb hnode hdir]
    allocated := fun a ha => fs.allocated a (hused a ha)
    apart := fun a b ha hb => fs.apart a b (hused a ha) (hused b hb)
    anchor_unlinked := by
      simp only [mem_map]
      rintro _ ⟨a, ha, rfl⟩
      rw [Link.moved_node]
      exact fs.anchor_unlinked a ha }

/-- Fewer entries and fewer descriptors. -/
def restrict (fs : Filesystem) (links : List Link) (held : List Node)
    (hlinks : links.Sublist fs.links) (hheld : ∀ node ∈ held, node ∈ fs.held) : Filesystem :=
  have hused : ∀ node, Purge.InUse fs.anchor links held node → fs.InUse node := fun node hnode =>
    hnode.imp_right (Or.imp (fun ⟨a, ha, h⟩ => ⟨a, hlinks.subset ha, h⟩) (hheld node))
  { fs with
    links
    held
    unique := fs.unique.sublist hlinks
    once := fun a ha b hb => fs.once a (hlinks.subset ha) b (hlinks.subset hb)
    allocated := fun a ha => fs.allocated a (hused a ha)
    apart := fun a b ha hb => fs.apart a b (hused a ha) (hused b hb)
    anchor_unlinked := fun a ha => fs.anchor_unlinked a (hlinks.subset ha) }

def detach (fs : Filesystem) (key : Node × Name) : Filesystem :=
  fs.restrict (fs.links.filter fun link => link.key ≠ key) fs.held filter_sublist
    fun _ h => h

def close (fs : Filesystem) (node : Node) : Filesystem :=
  fs.restrict fs.links (fs.held.erase node) (List.Sublist.refl _) fun _ h => mem_of_mem_erase h

def hold (fs : Filesystem) (node : Node) (hnode : fs.InUse node) : Filesystem :=
  have hused : ∀ a, Purge.InUse fs.anchor fs.links (node :: fs.held) a → fs.InUse a := by
    rintro a (ha | ha | ha)
    · exact .inl ha
    · exact .inr (.inl ha)
    · rcases mem_cons.mp ha with rfl | ha
      · exact hnode
      · exact .inr (.inr ha)
  { fs with
    held := node :: fs.held
    allocated := fun a ha => fs.allocated a (hused a ha)
    apart := fun a b ha hb => fs.apart a b (hused a ha) (hused b hb) }

theorem unique_append (link : Link) (hfree : ∀ other ∈ fs.links, other.key ≠ link.key) :
    (fs.links ++ [link]).Pairwise fun a b => a.key ≠ b.key := by
  refine pairwise_append.mpr ⟨fs.unique, pairwise_singleton _ _, ?_⟩
  intro a ha b hb
  obtain rfl := mem_singleton.mp hb
  exact hfree a ha

theorem inUse_append {link a} (h : Purge.InUse fs.anchor (fs.links ++ [link]) fs.held a) :
    fs.InUse a ∨ a = link.node := by
  rcases h with ha | ⟨other, hother, rfl⟩ | ha
  · exact .inl (.inl ha)
  · rcases mem_append.mp hother with hother | hother
    · exact .inl (inUse_of_mem hother)
    · exact .inr (by rw [mem_singleton.mp hother])
  · exact .inl (inUse_of_held ha)

/-- One more entry of an object that has one and is no directory. -/
def addLink (fs : Filesystem) (link : Link) (hfree : ∀ other ∈ fs.links, other.key ≠ link.key)
    (hnode : ∃ other ∈ fs.links, other.node = link.node)
    (hdir : (fs.attributes link.node).isDir = false) : Filesystem :=
  have hused : ∀ a, Purge.InUse fs.anchor (fs.links ++ [link]) fs.held a → fs.InUse a :=
    fun a ha => (inUse_append ha).elim id fun h => h ▸ .inr (.inl hnode)
  -- the new entry is not one of a directory
  have hold : ∀ a ∈ fs.links ++ [link], (fs.attributes a.node).isDir → a ∈ fs.links := by
    intro a ha hisDir
    rcases mem_append.mp ha with ha | ha
    · exact ha
    · rw [mem_singleton.mp ha, hdir] at hisDir
      contradiction
  { fs with
    links := fs.links ++ [link]
    unique := unique_append link hfree
    once := fun a ha b hb hnodes hisDir =>
      fs.once a (hold a ha hisDir) b (hold b hb (hnodes ▸ hisDir)) hnodes hisDir
    allocated := fun a ha => fs.allocated a (hused a ha)
    apart := fun a b ha hb => fs.apart a b (hused a ha) (hused b hb)
    anchor_unlinked := by
      intro a ha
      rcases mem_append.mp ha with ha | ha
      · exact fs.anchor_unlinked a ha
      · obtain rfl := mem_singleton.mp ha
        obtain ⟨other, hother, hsame⟩ := hnode
        rw [← hsame]
        exact fs.anchor_unlinked other hother }

/-- A new object, with a number that nothing in use has. -/
def addNode (fs : Filesystem) (key : Node × Name) (attributes : Attributes)
    (hfree : ∀ other ∈ fs.links, other.key ≠ key)
    (hnumber : ∀ node, fs.InUse node →
      ¬ ((fs.attributes node).dev = attributes.dev ∧ (fs.attributes node).ino = attributes.ino)) :
    Filesystem :=
  let given : Node → Attributes := fun node =>
    if node = fs.next then attributes else fs.attributes node
  have hgiven : ∀ node, fs.InUse node → given node = fs.attributes node := fun node hnode =>
    if_neg (Nat.ne_of_lt (fs.allocated node hnode))
  have hnext : given fs.next = attributes := if_pos rfl
  { fs with
    attributes := given
    links := fs.links ++ [⟨key.1, key.2, fs.next⟩]
    next := fs.next + 1
    unique := unique_append ⟨key.1, key.2, fs.next⟩ hfree
    once := by
      intro a ha b hb hnodes hdir
      rcases mem_append.mp ha with ha | ha <;> rcases mem_append.mp hb with hb | hb
      · rw [hgiven _ (inUse_of_mem ha)] at hdir
        exact fs.once a ha b hb hnodes hdir
      · have hlt := lt_of_mem ha
        rw [hnodes, mem_singleton.mp hb] at hlt
        exact absurd hlt (Nat.lt_irrefl _)
      · have hlt := lt_of_mem hb
        rw [← hnodes, mem_singleton.mp ha] at hlt
        exact absurd hlt (Nat.lt_irrefl _)
      · rw [mem_singleton.mp ha, mem_singleton.mp hb]
    allocated := by
      intro a ha
      rcases inUse_append ha with ha | rfl
      · exact Nat.lt_succ_of_lt (fs.allocated a ha)
      · exact Nat.lt_succ_self _
    apart := by
      intro a b ha hb hdev hino hmount
      rcases inUse_append ha with ha | rfl <;> rcases inUse_append hb with hb | rfl
      · rw [hgiven a ha, hgiven b hb] at hdev hino hmount
        exact fs.apart a b ha hb hdev hino hmount
      · rw [hgiven a ha, hnext] at hdev hino
        exact absurd ⟨hdev, hino⟩ (hnumber a ha)
      · rw [hgiven b hb, hnext] at hdev hino
        exact absurd ⟨hdev.symm, hino.symm⟩ (hnumber b hb)
      · rfl
    anchor_unlinked := by
      intro a ha
      rcases mem_append.mp ha with ha | ha
      · exact fs.anchor_unlinked a ha
      · rw [mem_singleton.mp ha]
        exact (Nat.ne_of_lt (fs.allocated _ (.inl rfl))).symm }

/-! ## Calls -/

end Filesystem

/-- The error of a call. -/
structure Errno where
  code : Nat
  text : String

def Errno.isNotFound (e : Errno) : Bool := e.code == 2

def Errno.isExists (e : Errno) : Bool := e.code == 17

def enoent : Errno := ⟨2, "No such file or directory (os error 2)"⟩

def eexist : Errno := ⟨17, "File exists (os error 17)"⟩

def enotdir : Errno := ⟨20, "Not a directory (os error 20)"⟩

def eisdir : Errno := ⟨21, "Is a directory (os error 21)"⟩

def enotempty : Errno := ⟨39, "Directory not empty (os error 39)"⟩

def eloop : Errno := ⟨40, "Too many levels of symbolic links (os error 40)"⟩

namespace Filesystem

variable {fs : Filesystem}

/-- `lstat` of a name in an opened directory. -/
def lstatAt (fs : Filesystem) (dir : Node) (name : Name) : Except Errno Stat :=
  match fs.find dir name with
  | none => .error enoent
  | some link => .ok (fs.stat link.node)

/-- `openat` with `O_DIRECTORY | O_NOFOLLOW`. -/
def openDirAt (fs : Filesystem) (dir : Node) (name : Name) : Except Errno Node × Filesystem :=
  match h : fs.find dir name with
  | none => (.error enoent, fs)
  | some link =>
    if (fs.attributes link.node).isDir then
      (.ok link.node, fs.hold link.node (inUse_of_mem (find_eq_some.mp h).1))
    else (.error enotdir, fs)

/-- `openat` with `O_NOFOLLOW | O_NONBLOCK`. -/
def openFileAt (fs : Filesystem) (dir : Node) (name : Name) : Except Errno Node × Filesystem :=
  match h : fs.find dir name with
  | none => (.error enoent, fs)
  | some link =>
    if (fs.attributes link.node).isSymlink then (.error eloop, fs)
    else (.ok link.node, fs.hold link.node (inUse_of_mem (find_eq_some.mp h).1))

/-- `renameat2` with `RENAME_NOREPLACE` inside one directory.  It returns
the object that was moved. -/
def renameNoreplace (fs : Filesystem) (dir : Node) (source target : Name) :
    Except Errno Node × Filesystem :=
  match fs.find dir source with
  | none => (.error enoent, fs)
  | some link =>
    match h : fs.find dir target with
    | some _ => (.error eexist, fs)
    | none => (.ok link.node, fs.relink (dir, source) (dir, target) (find_eq_none.mp h))

/-- `unlinkat`, with `AT_REMOVEDIR` for a directory.  It returns the object
that lost the name. -/
def unlinkAt (fs : Filesystem) (dir : Node) (name : Name) (removeDir : Bool) :
    Except Errno Node × Filesystem :=
  match fs.find dir name with
  | none => (.error enoent, fs)
  | some link =>
    if removeDir then
      if (fs.attributes link.node).isDir then
        if fs.entries link.node = [] then (.ok link.node, fs.detach (dir, name))
        else (.error enotempty, fs)
      else (.error enotdir, fs)
    else if (fs.attributes link.node).isDir then (.error eisdir, fs)
    else (.ok link.node, fs.detach (dir, name))

theorem openDirAt_cases (fs : Filesystem) (dir : Node) (name : Name) :
    (∃ e, fs.openDirAt dir name = (.error e, fs)) ∨
      ∃ node, ∃ hnode : fs.InUse node, ⟨dir, name, node⟩ ∈ fs.links ∧
        (fs.attributes node).isDir ∧ fs.openDirAt dir name = (.ok node, fs.hold node hnode) := by
  unfold openDirAt
  split
  · exact .inl ⟨_, rfl⟩
  · rename_i link hfind
    have hmem := mem_of_find hfind
    split
    · rename_i hdir
      exact .inr ⟨link.node, .inr (.inl ⟨_, hmem, rfl⟩), hmem, hdir, rfl⟩
    · exact .inl ⟨_, rfl⟩

theorem openFileAt_cases (fs : Filesystem) (dir : Node) (name : Name) :
    (∃ e, fs.openFileAt dir name = (.error e, fs)) ∨
      ∃ node, ∃ hnode : fs.InUse node, ⟨dir, name, node⟩ ∈ fs.links ∧
        fs.openFileAt dir name = (.ok node, fs.hold node hnode) := by
  unfold openFileAt
  split
  · exact .inl ⟨_, rfl⟩
  · rename_i link hfind
    have hmem := mem_of_find hfind
    split
    · exact .inl ⟨_, rfl⟩
    · exact .inr ⟨link.node, .inr (.inl ⟨_, hmem, rfl⟩), hmem, rfl⟩

theorem renameNoreplace_cases (fs : Filesystem) (dir : Node) (source target : Name) :
    (∃ e, fs.renameNoreplace dir source target = (.error e, fs)) ∨
      ∃ node, ∃ hfree : ∀ link ∈ fs.links, link.key ≠ (dir, target),
        ⟨dir, source, node⟩ ∈ fs.links ∧
        fs.renameNoreplace dir source target =
          (.ok node, fs.relink (dir, source) (dir, target) hfree) := by
  unfold renameNoreplace
  split
  · exact .inl ⟨_, rfl⟩
  · rename_i link hfind
    have hmem := mem_of_find hfind
    split
    · exact .inl ⟨_, rfl⟩
    · rename_i hfree
      exact .inr ⟨link.node, find_eq_none.mp hfree, hmem, rfl⟩

theorem unlinkAt_cases (fs : Filesystem) (dir : Node) (name : Name) (removeDir : Bool) :
    (∃ e, fs.unlinkAt dir name removeDir = (.error e, fs)) ∨
      ∃ node, ⟨dir, name, node⟩ ∈ fs.links ∧ (fs.attributes node).isDir = removeDir ∧
        fs.unlinkAt dir name removeDir = (.ok node, fs.detach (dir, name)) := by
  unfold unlinkAt
  split
  · exact .inl ⟨_, rfl⟩
  · rename_i link hfind
    have hmem := mem_of_find hfind
    cases removeDir with
    | true =>
      simp only [if_true]
      split
      · rename_i hdir
        split
        · exact .inr ⟨link.node, hmem, hdir, rfl⟩
        · exact .inl ⟨_, rfl⟩
      · exact .inl ⟨_, rfl⟩
    | false =>
      simp only [Bool.false_eq_true, if_false]
      split
      · exact .inl ⟨_, rfl⟩
      · rename_i hdir
        exact .inr ⟨link.node, hmem, Bool.eq_false_iff.mpr hdir, rfl⟩

/-! ## Other processes -/

end Filesystem

/-- One change that another process makes to a public name. -/
inductive Move where
  | create (dir : Node) (name : Name) (attributes : Attributes)
  | rename (source target : Node × Name)
  | link (node : Node) (target : Node × Name)
  | remove (key : Node × Name)

namespace Filesystem

/-- A new object gets a number that no named or opened object has. -/
def numberIsFree (fs : Filesystem) (attributes : Attributes) : Bool :=
  let differs (node : Node) : Bool :=
    (fs.attributes node).dev != attributes.dev || (fs.attributes node).ino != attributes.ino
  differs fs.anchor && fs.links.all (fun link => differs link.node) && fs.held.all differs

theorem numberIsFree_spec {fs : Filesystem} {attributes} (h : fs.numberIsFree attributes)
    (node : Node) (hnode : fs.InUse node) :
    ¬ ((fs.attributes node).dev = attributes.dev ∧ (fs.attributes node).ino = attributes.ino) := by
  simp only [numberIsFree, Bool.and_eq_true, all_eq_true, Bool.or_eq_true, bne_iff_ne] at h
  rintro ⟨hdev, hino⟩
  have hdiffers : (fs.attributes node).dev ≠ attributes.dev ∨
      (fs.attributes node).ino ≠ attributes.ino := by
    rcases hnode with rfl | ⟨link, hlink, rfl⟩ | hheld
    · exact h.1.1
    · exact h.1.2 link hlink
    · exact h.2 node hheld
  rcases hdiffers with hne | hne
  · exact hne hdev
  · exact hne hino

variable {key : Node × Name}

theorem detach_free {fs : Filesystem} : ∀ link ∈ (fs.detach key).links, link.key ≠ key := by
  intro link hlink
  simpa using (mem_filter.mp hlink).2

/-- The state after a move.  A move on a name that is not public, or that
the kernel refuses, changes nothing. -/
def move (fs : Filesystem) : Move → Filesystem
  | .create dir name attributes =>
    if h : name.isQuarantine = false ∧ (∀ other ∈ fs.links, other.key ≠ (dir, name)) ∧
        fs.numberIsFree attributes then
      fs.addNode (dir, name) attributes h.2.1 (numberIsFree_spec h.2.2)
    else fs
  | .rename source target =>
    if source.2.isQuarantine || target.2.isQuarantine || source = target ||
        (fs.find source.1 source.2).isNone then fs
    else (fs.detach target).relink source target detach_free
  | .link node target =>
    if h : target.2.isQuarantine = false ∧ (∀ other ∈ fs.links, other.key ≠ target) ∧
        (∃ other ∈ fs.links, other.node = node) ∧ (fs.attributes node).isDir = false then
      fs.addLink ⟨target.1, target.2, node⟩ h.2.1 h.2.2.1 h.2.2.2
    else fs
  | .remove key => if key.2.isQuarantine then fs else fs.detach key

/-- What the moves of other processes leave alone. -/
structure Undisturbed (a b : Filesystem) : Prop where
  anchor : b.anchor = a.anchor
  held : b.held = a.held
  next : a.next ≤ b.next
  attributes : ∀ node < a.next, b.attributes node = a.attributes node
  quarantined : ∀ link, link.name.isQuarantine → (link ∈ b.links ↔ link ∈ a.links)

theorem Undisturbed.refl (fs : Filesystem) : Undisturbed fs fs :=
  ⟨rfl, rfl, Nat.le_refl _, fun _ _ => rfl, fun _ _ => Iff.rfl⟩

theorem Undisturbed.trans {a b c} (hab : Undisturbed a b) (hbc : Undisturbed b c) :
    Undisturbed a c where
  anchor := hbc.anchor.trans hab.anchor
  held := hbc.held.trans hab.held
  next := Nat.le_trans hab.next hbc.next
  attributes node hnode :=
    (hbc.attributes node (Nat.lt_of_lt_of_le hnode hab.next)).trans (hab.attributes node hnode)
  quarantined link hlink := (hbc.quarantined link hlink).trans (hab.quarantined link hlink)

theorem mem_detach {fs : Filesystem} :
    link ∈ (fs.detach key).links ↔ link ∈ fs.links ∧ link.key ≠ key := by
  simp [detach, restrict]

theorem mem_relink_of_ne {fs : Filesystem} {hfree} (hsource : link.key ≠ source)
    (htarget : link.key ≠ target) :
    link ∈ (fs.relink source target hfree).links ↔ link ∈ fs.links := by
  simp only [relink, mem_map]
  constructor
  · rintro ⟨a, ha, rfl⟩
    by_cases has : a.key = source
    · rw [Link.moved, if_pos has] at htarget
      exact absurd rfl htarget
    · rwa [Link.moved_of_ne has]
  · intro h
    exact ⟨link, h, Link.moved_of_ne hsource⟩

theorem mem_relink_target {fs : Filesystem} {hfree node}
    (h : ⟨source.1, source.2, node⟩ ∈ fs.links) :
    ⟨target.1, target.2, node⟩ ∈ (fs.relink source target hfree).links :=
  mem_map.mpr ⟨_, h, if_pos rfl⟩

theorem ne_key_of_isQuarantine (hlink : link.name.isQuarantine)
    (hkey : key.2.isQuarantine = false) :
    link.key ≠ key := by
  rintro rfl
  rw [Link.key, hlink] at hkey
  contradiction

theorem undisturbed_move (fs : Filesystem) (move : Move) : Undisturbed fs (fs.move move) := by
  cases move with
  | create dir name attributes =>
    simp only [Filesystem.move]
    split
    · rename_i h
      refine ⟨rfl, rfl, Nat.le_succ _, fun node hnode => if_neg (Nat.ne_of_lt hnode), ?_⟩
      intro link hlink
      have hne : link.key ≠ (dir, name) := ne_key_of_isQuarantine hlink h.1
      simp only [addNode, mem_append, mem_singleton]
      refine or_iff_left ?_
      rintro rfl
      exact hne rfl
    · exact .refl fs
  | rename source target =>
    simp only [Filesystem.move]
    split
    · exact .refl fs
    · rename_i h
      simp only [Bool.or_eq_true, not_or, Bool.not_eq_true] at h
      refine ⟨rfl, rfl, Nat.le_refl _, fun _ _ => rfl, ?_⟩
      intro link hlink
      have hsource := ne_key_of_isQuarantine hlink h.1.1.1
      have htarget := ne_key_of_isQuarantine hlink h.1.1.2
      rw [mem_relink_of_ne hsource htarget, mem_detach]
      exact and_iff_left htarget
  | link node target =>
    simp only [Filesystem.move]
    split
    · rename_i h
      refine ⟨rfl, rfl, Nat.le_refl _, fun _ _ => rfl, ?_⟩
      intro link hlink
      have hne := ne_key_of_isQuarantine hlink h.1
      simp only [addLink, mem_append, mem_singleton]
      refine or_iff_left ?_
      rintro rfl
      exact hne rfl
    · exact .refl fs
  | remove key =>
    simp only [Filesystem.move]
    split
    · exact .refl fs
    · rename_i h
      refine ⟨rfl, rfl, Nat.le_refl _, fun _ _ => rfl, ?_⟩
      intro link hlink
      rw [mem_detach]
      exact and_iff_left (ne_key_of_isQuarantine hlink (Bool.eq_false_iff.mpr h))

theorem undisturbed_moves (moves : List Move) (fs : Filesystem) :
    Undisturbed fs (moves.foldl Filesystem.move fs) := by
  induction moves generalizing fs with
  | nil => exact .refl fs
  | cons move moves ih => exact (undisturbed_move fs move).trans (ih _)

end Filesystem

end Facelock.Purge
