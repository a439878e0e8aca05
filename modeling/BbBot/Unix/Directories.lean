/-
# Making directories

`mkdir` adds an empty directory under a free name of a directory that can be
written to. It follows the links in front of the last component and none behind
it, so a dangling link is in the way. Nothing that was there is lost, and the path
leads to the new directory afterwards.
-/

import BbBot.Unix.Commands

namespace BbBot.Unix.FileSystem

/-- Add a directory entry for a new, empty directory. -/
def makeDirectory (fs : FileSystem) (d : ℕ) (name : Name) : FileSystem where
  nodes := (fs.create d name (.file false [])).nodes.set fs.size (.directory true ∅)
  linked := by
    intro node member entry inside
    rw [List.length_set]
    rcases List.mem_or_eq_of_mem_set member with old | rfl
    · exact (fs.create d name (.file false [])).linked node old entry inside
    · exact absurd inside (by simp [Node.entries])

/-- `mkdir path`, none when it fails. -/
def mkdir (fs : FileSystem) (d : ℕ) (path : Str) : Option FileSystem :=
  match fs.slot d path with
  | some (parent, name) =>
    if fs.kind parent = some (.directory true) ∧ fs.entry parent name = none then
      some (fs.makeDirectory parent name)
    else none
  | none => none

variable {fs : FileSystem}

theorem kind_makeDirectory (d : ℕ) (name : Name) (i : ℕ) :
    (fs.makeDirectory d name).kind i =
      if i = fs.size then some (.directory true) else fs.kind i := by
  have length : fs.size < (fs.create d name (.file false [])).nodes.length := by
    have grown : (fs.create d name (.file false [])).size = fs.size + 1 := size_create ..
    rw [size] at grown
    omega
  rw [kind, makeDirectory, List.getElem?_set]
  split_ifs with first last last
  · rfl
  · exact absurd first.symm last
  · exact absurd last.symm first
  · have created : (fs.create d name (.file false [])).kind i = _ := kind_create ..
    rwa [if_neg last, kind] at created

/-- The new directory has no entries of its own. -/
theorem entry_makeDirectory {d : ℕ} (directory : fs.isDirectory d = true) (name : Name)
    (other : ℕ) (n : Name) :
    (fs.makeDirectory d name).entry other n =
      if other = d ∧ n = name then some fs.size else fs.entry other n := by
  have created := entry_create directory name (.file false []) other n
  -- The new inode has no entries, and no entry led to it.
  by_cases last : other = fs.size
  · have noOld : fs.entry other n = none := by
      rw [last, entry, List.getElem?_eq_none (by simp [size])]
      rfl
    have elsewhere : ¬ (other = d ∧ n = name) := by
      rintro ⟨rfl, -⟩
      have inside := lt_size_of_isDirectory directory
      omega
    rw [if_neg elsewhere, noOld, last, entry, makeDirectory, List.getElem?_set, if_pos rfl]
    split
    · rfl
    · rfl
  · rw [← created, entry, makeDirectory, List.getElem?_set, if_neg (Ne.symm last), entry]

theorem extends_makeDirectory {d : ℕ} {name : Name} (directory : fs.isDirectory d = true)
    (fresh : fs.entry d name = none) : Extends fs (fs.makeDirectory d name) := by
  constructor
  · intro i kind known
    have old : i < fs.size := kind_isSome_iff.mp (known ▸ rfl)
    rw [kind_makeDirectory, if_neg (Nat.ne_of_lt old), known]
  · intro other n i leads
    rw [entry_makeDirectory directory, if_neg, leads]
    rintro ⟨rfl, rfl⟩
    rw [fresh] at leads
    exact absurd leads (by simp)

/-- Whatever `mkdir` does, it does under a free name of a directory. -/
theorem mkdir_eq_some {d : ℕ} {path : Str} {next : FileSystem}
    (made : fs.mkdir d path = some next) :
    ∃ parent name, fs.slot d path = some (parent, name) ∧ fs.isDirectory parent = true ∧
      fs.entry parent name = none ∧ next = fs.makeDirectory parent name := by
  unfold mkdir at made
  split at made
  · rename_i parent name slot
    split at made
    · rename_i free
      exact ⟨parent, name, slot, isDirectory_iff.mpr ⟨true, free.1⟩, free.2,
        (Option.some.inj made).symm⟩
    · exact absurd made (by simp)
  · exact absurd made (by simp)

theorem extends_mkdir {d : ℕ} {path : Str} {next : FileSystem}
    (made : fs.mkdir d path = some next) : Extends fs next := by
  obtain ⟨parent, name, -, directory, fresh, rfl⟩ := mkdir_eq_some made
  exact extends_makeDirectory directory fresh

/-- The path leads to the directory that was made. -/
theorem lookup_mkdir {d : ℕ} {path : Str} {next : FileSystem}
    (made : fs.mkdir d path = some next) :
    ∃ i, next.lookup d path = .found i ∧ next.kind i = some (.directory true) := by
  obtain ⟨parent, name, slot, directory, fresh, rfl⟩ := mkdir_eq_some made
  have isNew : (fs.makeDirectory parent name).kind fs.size = some (.directory true) := by
    rw [kind_makeDirectory, if_pos rfl]
  refine ⟨fs.size, ?_, isNew⟩
  unfold FileSystem.slot at slot
  split at slot
  · rename_i last front isLast found
    obtain ⟨rfl, rfl⟩ := Prod.mk.inj (Option.some.inj slot)
    have nonempty : path ≠ [] := by
      rintro rfl
      exact absurd isLast (by simp [components, Name.ofWord])
    have whole : components path = (components path).dropLast ++ [last] :=
      (List.dropLast_append_getLast? last isLast).symm
    -- The front of the path leads to the parent, as before, and the last name to the new inode.
    obtain ⟨links, -, reach⟩ := Within.walk_append found
    rw [lookup, if_neg nonempty, whole, reach _ (extends_makeDirectory directory fresh).within]
    have leads : (fs.makeDirectory front last).entry front last = some fs.size := by
      rw [entry_makeDirectory directory, if_pos ⟨rfl, rfl⟩]
    rw [walk_of_entry leads, walk_nil]
    rw [target, isNew]
  · exact absurd slot (by simp)

end BbBot.Unix.FileSystem
