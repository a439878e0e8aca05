/-
# Inodes, directories and links

A file system is a table of inodes. A directory maps names to inodes, so a file
may be reached under several names, and a symbolic link is an inode of its own
that holds a path. Unlinking a name removes a directory entry and leaves every
inode in place; creating one appends an inode and a name for it. Entries always
lead to inodes of the table, so a new inode is never reached by an older name.

What a reader can observe is what each inode is and where each entry leads. The
lemmas state every operation in these two terms.
-/

import BbBot.Unix.Decimal
import Mathlib.Data.List.AList

namespace BbBot.Unix

/-- The name of a directory entry: not empty, without a slash, and not the dot
that stands for the directory itself. The entry of the parent is `..`. -/
@[ext]
structure Name where
  word : Str
  proper : word ≠ [] ∧ '/' ∉ word ∧ word ≠ ['.']
  deriving DecidableEq

/-- A word as an entry name, when it is one. -/
def Name.ofWord (word : Str) : Option Name :=
  if proper : word ≠ [] ∧ '/' ∉ word ∧ word ≠ ['.'] then some ⟨word, proper⟩ else none

@[simp] theorem Name.ofWord_val (name : Name) : Name.ofWord name.1 = some name :=
  dif_pos name.2

theorem Name.val_of_ofWord {word : Str} {name : Name} (same : Name.ofWord word = some name) :
    name.1 = word := by
  unfold ofWord at same
  split at same
  · rw [← Option.some.inj same]
  · exact absurd same (by simp)

/-- The name that a text spells. A text that is no name stands for the parent. -/
def Name.named (text : String) : Name :=
  (Name.ofWord text.toList).getD ⟨"..".toList, by decide⟩

/-- Inodes are indices into a table; the root directory comes first. -/
def root : ℕ := 0

/-- The entries of a directory. -/
abbrev Entries := AList fun _ : Name => ℕ

/-- The entries that a list gives, the first one of each name. -/
def entriesOf (list : List (Name × ℕ)) : Entries :=
  list.foldr (fun entry entries => entries.insert entry.1 entry.2) ∅

/-- What an inode is, apart from the entries of a directory. -/
inductive Kind
  | file (executable : Bool) (content : Str)
  | directory (writable : Bool)
  | symlink (target : Str)
  deriving DecidableEq

/-- An inode that is not a directory. -/
inductive Leaf
  | file (executable : Bool) (content : Str)
  | symlink (target : Str)
  deriving DecidableEq

/-- An inode. -/
inductive Node
  | leaf (content : Leaf)
  | directory (writable : Bool) (entries : Entries)
  deriving DecidableEq

def Leaf.kind : Leaf → Kind
  | .file executable content => .file executable content
  | .symlink target => .symlink target

namespace Node

def kind : Node → Kind
  | .leaf content => content.kind
  | .directory writable _ => .directory writable

def entries : Node → Entries
  | .leaf _ => ∅
  | .directory _ entries => entries

/-- Add an entry to a directory. -/
def insert (name : Name) (target : ℕ) : Node → Node
  | .leaf content => .leaf content
  | .directory writable entries => .directory writable (entries.insert name target)

/-- Remove an entry from a directory. -/
def erase (name : Name) : Node → Node
  | .leaf content => .leaf content
  | .directory writable entries => .directory writable (entries.erase name)

/-- Replace what a file or link is; directories stay. -/
def rewrite (new : Leaf) : Node → Node
  | .leaf _ => .leaf new
  | .directory writable entries => .directory writable entries

@[simp] theorem kind_insert (name : Name) (target : ℕ) (node : Node) :
    (node.insert name target).kind = node.kind := by
  cases node <;> rfl

@[simp] theorem kind_erase (name : Name) (node : Node) : (node.erase name).kind = node.kind := by
  cases node <;> rfl

@[simp] theorem entries_rewrite (new : Leaf) (node : Node) :
    (node.rewrite new).entries = node.entries := by
  cases node <;> rfl

theorem lookup_insert (name other : Name) (target : ℕ) {writable : Bool} (node : Node)
    (directory : node.kind = .directory writable) :
    (node.insert name target).entries.lookup other =
      if other = name then some target else node.entries.lookup other := by
  cases node with
  | leaf content => cases content <;> simp [kind, Leaf.kind] at directory
  | directory writable entries =>
    by_cases same : other = name
    · rw [if_pos same, same]
      exact AList.lookup_insert entries
    · rw [if_neg same]
      exact AList.lookup_insert_ne same

theorem lookup_erase (name other : Name) (node : Node) :
    (node.erase name).entries.lookup other =
      if other = name then none else node.entries.lookup other := by
  cases node with
  | leaf content => simp [erase, entries]
  | directory writable entries =>
    by_cases same : other = name
    · rw [if_pos same, same]
      exact AList.lookup_erase name entries
    · rw [if_neg same]
      exact AList.lookup_erase_ne same

end Node

/-- A table of inodes in which every entry leads to an inode. -/
structure FileSystem where
  nodes : List Node
  linked : ∀ node ∈ nodes, ∀ entry ∈ node.entries.entries, entry.2 < nodes.length

namespace FileSystem

variable (fs : FileSystem)

/-- The number of inodes, and the index of the next one. -/
def size : ℕ := fs.nodes.length

/-- What an inode is. -/
def kind (i : ℕ) : Option Kind := fs.nodes[i]?.map Node.kind

/-- Where an entry of a directory leads. -/
def entry (d : ℕ) (name : Name) : Option ℕ :=
  fs.nodes[d]?.bind fun node => node.entries.lookup name

/-- The names in a directory. -/
def names (d : ℕ) : List Name := (fs.nodes[d]?.map fun node => node.entries.keys).getD []

/-- `test -d` on an inode. -/
def isDirectory (i : ℕ) : Bool :=
  match fs.kind i with
  | some (.directory _) => true
  | _ => false

/-- The path a symbolic link holds. -/
def target (i : ℕ) : Option Str :=
  match fs.kind i with
  | some (.symlink target) => some target
  | _ => none

variable {fs}

theorem kind_isSome_iff {i : ℕ} : (fs.kind i).isSome ↔ i < fs.size := by
  simp [kind, size]

theorem kind_eq_none {i : ℕ} (beyond : fs.size ≤ i) : fs.kind i = none := by
  simpa [kind, size] using beyond

/-- Every entry leads to an inode of the table. -/
theorem lt_size_of_entry {d : ℕ} {name : Name} {i : ℕ} (leads : fs.entry d name = some i) :
    i < fs.size := by
  obtain ⟨node, found, inside⟩ := Option.bind_eq_some_iff.mp leads
  exact fs.linked node (List.mem_of_getElem? found) ⟨name, i⟩ (AList.mem_lookup_iff.mp inside)

/-- Only directories have entries. -/
theorem isDirectory_of_entry {d : ℕ} {name : Name} {i : ℕ}
    (leads : fs.entry d name = some i) : fs.isDirectory d = true := by
  obtain ⟨node, found, inside⟩ := Option.bind_eq_some_iff.mp leads
  cases node with
  | leaf content => simp [Node.entries] at inside
  | directory writable entries => simp [isDirectory, kind, found, Node.kind]

theorem isDirectory_iff {i : ℕ} :
    fs.isDirectory i = true ↔ ∃ writable, fs.kind i = some (.directory writable) := by
  unfold isDirectory
  split
  · rename_i writable same
    exact ⟨fun _ => ⟨writable, same⟩, fun _ => rfl⟩
  · rename_i other
    exact ⟨fun h => absurd h (by simp), fun ⟨writable, same⟩ => absurd same (other writable)⟩

theorem lt_size_of_isDirectory {i : ℕ} (directory : fs.isDirectory i = true) : i < fs.size := by
  obtain ⟨writable, known⟩ := isDirectory_iff.mp directory
  exact kind_isSome_iff.mp (known ▸ rfl)

theorem target_eq_some_iff {i : ℕ} {path : Str} :
    fs.target i = some path ↔ fs.kind i = some (.symlink path) := by
  unfold target
  split
  · rename_i found same
    rw [same]
    simp
  · rename_i other
    exact ⟨fun h => absurd h (by simp), fun same => absurd same (other path)⟩

theorem mem_names_iff {d : ℕ} {name : Name} :
    name ∈ fs.names d ↔ ∃ i, fs.entry d name = some i := by
  unfold names entry
  cases fs.nodes[d]? with
  | none => simp
  | some node =>
    simp only [Option.map_some, Option.getD_some, Option.bind_some]
    rw [← AList.mem_keys, ← AList.lookup_isSome, Option.isSome_iff_exists]

/-- What holds of the names in every directory. -/
theorem forall_mem_names {p : Name → Prop}
    (all : ∀ node ∈ fs.nodes, ∀ name ∈ node.entries.keys, p name) (d : ℕ) :
    ∀ name ∈ fs.names d, p name := by
  intro name member
  unfold names at member
  cases found : fs.nodes[d]? with
  | none => simp [found] at member
  | some node =>
    rw [found, Option.map_some, Option.getD_some] at member
    exact all node (List.mem_of_getElem? found) name member

theorem nodup_names (d : ℕ) : (fs.names d).Nodup := by
  unfold names
  cases fs.nodes[d]? with
  | none => exact List.nodup_nil
  | some node => exact AList.keys_nodup node.entries

/-! ## Operations -/

variable (fs)

/-- Remove a directory entry. The inode stays. -/
def unlink (d : ℕ) (name : Name) : FileSystem where
  nodes := fs.nodes.modify d (Node.erase name)
  linked := by
    intro node member entry inside
    obtain ⟨i, found⟩ := List.mem_iff_getElem?.mp member
    rw [List.getElem?_modify] at found
    obtain ⟨old, oldFound, rfl⟩ := Option.map_eq_some_iff.mp found
    rw [List.length_modify]
    have kept : old.entries.lookup entry.1 = some entry.2 := by
      have lookup := AList.mem_lookup_iff.mpr inside
      split at lookup
      · rw [Node.lookup_erase] at lookup
        split at lookup
        · exact absurd lookup (by simp)
        · exact lookup
      · exact lookup
    exact fs.linked old (List.mem_of_getElem? oldFound) entry (AList.mem_lookup_iff.mp kept)

/-- Add a directory entry for a new file or link. -/
def create (d : ℕ) (name : Name) (new : Leaf) : FileSystem where
  nodes := fs.nodes.modify d (Node.insert name fs.nodes.length) ++ [.leaf new]
  linked := by
    intro node member entry inside
    rw [List.length_append, List.length_modify, List.length_singleton]
    rcases List.mem_append.mp member with member | member
    · obtain ⟨i, found⟩ := List.mem_iff_getElem?.mp member
      rw [List.getElem?_modify] at found
      obtain ⟨old, oldFound, rfl⟩ := Option.map_eq_some_iff.mp found
      have lookup := AList.mem_lookup_iff.mpr inside
      have oldLinked (kept : old.entries.lookup entry.1 = some entry.2) :
          entry.2 < fs.nodes.length :=
        fs.linked old (List.mem_of_getElem? oldFound) entry (AList.mem_lookup_iff.mp kept)
      split at lookup
      · cases old with
        | leaf content => exact absurd lookup (by simp [Node.insert, Node.entries])
        | directory writable entries =>
          -- Either the entry is the new one, or it led to an old inode.
          rw [Node.lookup_insert _ _ _ _ rfl] at lookup
          split at lookup
          · rw [← Option.some.inj lookup]
            omega
          · exact Nat.lt_succ_of_lt (oldLinked lookup)
      · exact Nat.lt_succ_of_lt (oldLinked lookup)
    · rw [List.mem_singleton.mp member] at inside
      exact absurd inside (by simp [Node.entries])

/-- Replace the contents of a file in place. -/
def rewrite (i : ℕ) (new : Leaf) : FileSystem where
  nodes := fs.nodes.modify i (Node.rewrite new)
  linked := by
    intro node member entry inside
    obtain ⟨j, found⟩ := List.mem_iff_getElem?.mp member
    rw [List.getElem?_modify] at found
    obtain ⟨old, oldFound, rfl⟩ := Option.map_eq_some_iff.mp found
    rw [List.length_modify]
    have kept : entry ∈ old.entries.entries := by
      split at inside
      · rwa [Node.entries_rewrite] at inside
      · exact inside
    exact fs.linked old (List.mem_of_getElem? oldFound) entry kept

variable {fs}

@[simp] theorem size_unlink (d : ℕ) (name : Name) : (fs.unlink d name).size = fs.size :=
  List.length_modify ..

@[simp] theorem size_rewrite (i : ℕ) (new : Leaf) : (fs.rewrite i new).size = fs.size :=
  List.length_modify ..

@[simp] theorem size_create (d : ℕ) (name : Name) (new : Leaf) :
    (fs.create d name new).size = fs.size + 1 := by
  simp [size, create]

@[simp] theorem kind_unlink (d : ℕ) (name : Name) (i : ℕ) :
    (fs.unlink d name).kind i = fs.kind i := by
  rw [kind, unlink, List.getElem?_modify, Option.map_eq_map, Option.map_map, kind]
  congr 1
  funext node
  dsimp only [Function.comp_apply]
  split
  · exact Node.kind_erase name node
  · rfl

theorem entry_unlink (d other : ℕ) (name n : Name) :
    (fs.unlink d name).entry other n =
      if other = d ∧ n = name then none else fs.entry other n := by
  rw [entry, unlink, List.getElem?_modify, entry]
  cases fs.nodes[other]? with
  | none => simp
  | some node =>
    by_cases same : other = d
    · simp [same, Node.lookup_erase]
    · simp [same, Ne.symm same]

theorem kind_create (d : ℕ) (name : Name) (new : Leaf) (i : ℕ) :
    (fs.create d name new).kind i = if i = fs.size then some new.kind else fs.kind i := by
  rw [kind, create]
  dsimp only
  split_ifs with last
  · rw [last, size, List.getElem?_append_right (by simp)]
    simp [Node.kind]
  · by_cases inside : i < fs.size
    · rw [List.getElem?_append_left (by simpa [size] using inside), List.getElem?_modify,
        Option.map_eq_map, Option.map_map, kind]
      congr 1
      funext node
      dsimp only [Function.comp_apply]
      split
      · exact Node.kind_insert ..
      · rfl
    -- Behind the new inode there is nothing.
    · have beyond : fs.size < i := by omega
      have past : (fs.nodes.modify d (Node.insert name fs.nodes.length) ++
          [Node.leaf new]).length ≤ i := by
        simpa [size] using Nat.succ_le_of_lt beyond
      rw [kind_eq_none (Nat.le_of_lt beyond), List.getElem?_eq_none past]
      rfl

theorem kind_create_of_lt {d : ℕ} {name : Name} {new : Leaf} {i : ℕ} (old : i < fs.size) :
    (fs.create d name new).kind i = fs.kind i := by
  rw [kind_create, if_neg (Nat.ne_of_lt old)]

theorem entry_create_of_ne {d other : ℕ} (elsewhere : other ≠ d) (name : Name) (new : Leaf)
    (n : Name) : (fs.create d name new).entry other n = fs.entry other n := by
  by_cases inside : other < fs.size
  · rw [entry, create, List.getElem?_append_left (by simpa [size] using inside),
      List.getElem?_modify, entry]
    simp [Ne.symm elsewhere]
  · have noOld : fs.entry other n = none := by
      rw [entry, List.getElem?_eq_none (by simpa [size] using inside)]
      rfl
    rw [noOld, entry, create, List.getElem?_append_right (by simpa [size] using inside)]
    cases last : other - (fs.nodes.modify d (Node.insert name fs.nodes.length)).length with
    | zero => simp [Node.entries]
    | succ k => simp

theorem entry_create {d : ℕ} (directory : fs.isDirectory d = true) (name : Name) (new : Leaf)
    (other : ℕ) (n : Name) :
    (fs.create d name new).entry other n =
      if other = d ∧ n = name then some fs.size else fs.entry other n := by
  by_cases same : other = d
  · subst same
    obtain ⟨writable, isDir⟩ := isDirectory_iff.mp directory
    have old : other < fs.size := kind_isSome_iff.mp (isDir ▸ rfl)
    rw [entry, create, List.getElem?_append_left (by simpa [size] using old),
      List.getElem?_modify, entry]
    cases found : fs.nodes[other]? with
    | none => simp [size] at old found; omega
    | some node =>
      have nodeKind : node.kind = .directory writable := by
        simpa [kind, found] using isDir
      simp [Node.lookup_insert _ _ _ _ nodeKind, size]
  · rw [if_neg fun h => same h.1, entry_create_of_ne same]

/-- A file that was just created can be replaced as if it had been created so. -/
theorem rewrite_create (d : ℕ) (name : Name) (old new : Leaf) :
    (fs.create d name old).rewrite fs.size new = fs.create d name new := by
  simp only [rewrite, create, FileSystem.mk.injEq, size]
  refine List.ext_getElem? fun i => ?_
  rw [List.getElem?_modify]
  -- Only the last inode of the table is rewritten.
  rcases Nat.lt_trichotomy i fs.nodes.length with before | rfl | after
  · rw [List.getElem?_append_left (by simpa using before),
      List.getElem?_append_left (by simpa using before)]
    simp [Nat.ne_of_gt before]
  · rw [List.getElem?_append_right (by simp), List.getElem?_append_right (by simp)]
    simp [Node.rewrite]
  · rw [List.getElem?_eq_none (by simp; omega), List.getElem?_eq_none (by simp; omega)]
    rfl

@[simp] theorem entry_rewrite (i : ℕ) (new : Leaf) (d : ℕ) (name : Name) :
    (fs.rewrite i new).entry d name = fs.entry d name := by
  rw [entry, rewrite, List.getElem?_modify, entry]
  cases fs.nodes[d]? with
  | none => rfl
  | some node =>
    by_cases same : i = d
    · simp [same]
    · simp [same]

/-- What a file or link is after it has been replaced. -/
theorem kind_rewrite {i : ℕ} (inside : i < fs.size) (file : fs.isDirectory i = false)
    (new : Leaf) (j : ℕ) :
    (fs.rewrite i new).kind j = if j = i then some new.kind else fs.kind j := by
  rw [kind, rewrite, List.getElem?_modify, kind]
  by_cases same : j = i
  · subst same
    obtain ⟨node, found⟩ : ∃ node, fs.nodes[j]? = some node :=
      ⟨fs.nodes[j], List.getElem?_eq_getElem inside⟩
    cases node with
    | leaf content => simp [found, Node.rewrite, Node.kind]
    | directory writable entries => simp [isDirectory, kind, found, Node.kind] at file
  · simp [same, Ne.symm same]

end FileSystem

end BbBot.Unix
