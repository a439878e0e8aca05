/-
# The OTA survival script

`88-busybox.sh` runs twice around a system update. Before the update it copies
the files of a fixed list to a staging area. After the update it puts them back,
and for every busybox among them it sets up the applets that this busybox lists,
under absolute paths, next to it.

Of `backup_file` and `restore_file`, which belong to the system, it is assumed
that they copy a file to the staging area and back to the same path and do
nothing else. A restored file is a file of its own.
-/

import BbBot.Applets.Setup

namespace BbBot.Ota

open BbBot.Unix BbBot.Unix.FileSystem BbBot.Cleaning BbBot.Applets

/-- An item of `file_list`: a directory below `$S` and the name of a file in it. -/
structure Item where
  directory : Str
  name : Name
  deriving DecidableEq

/-- `file_list`. -/
def fileList : List Item :=
  [⟨"bin".toList, busybox⟩, ⟨"xbin".toList, busybox⟩, ⟨"vendor/bin".toList, busybox⟩,
    ⟨"vendor/xbin".toList, busybox⟩, ⟨"bin".toList, sslHelper⟩, ⟨"xbin".toList, sslHelper⟩,
    ⟨"vendor/bin".toList, sslHelper⟩, ⟨"vendor/xbin".toList, sslHelper⟩,
    ⟨"etc".toList, ⟨"passwd".toList, by decide⟩⟩, ⟨"etc".toList, ⟨"group".toList, by decide⟩⟩]

/-- `${file%/*}` for `file=$S/$file`. -/
def Item.dir (system : Str) (item : Item) : Str := system ++ '/' :: item.directory

/-- `file=$S/$file`. -/
def Item.file (system : Str) (item : Item) : Str := item.dir system ++ '/' :: item.name.1

/-- The file that a path leads to, with its mode. -/
def fileAt (fs : FileSystem) (cwd : ℕ) (path : Str) : Option Leaf :=
  match fs.lookup cwd path with
  | .found i =>
    match fs.kind i with
    | some (.file executable content) => some (.file executable content)
    | _ => none
  | _ => none

theorem exists_file_of_fileAt {fs : FileSystem} {cwd : ℕ} {path : Str} {leaf : Leaf}
    (found : fileAt fs cwd path = some leaf) :
    ∃ executable text, leaf = .file executable text := by
  rw [fileAt] at found
  split at found
  · split at found
    · exact ⟨_, _, (Option.some.inj found).symm⟩
    · exact absurd found (by simp)
  · exact absurd found (by simp)

/-- `backup_file`, into the staging area. -/
def backupFile (fs : FileSystem) (cwd : ℕ) (area : Str → Option Leaf) (file : Str) :
    Str → Option Leaf :=
  Function.update area file (fileAt fs cwd file)

/-- The branch `backup`, with an empty staging area. -/
def backup (system : Str) (cwd : ℕ) (fs : FileSystem) : Str → Option Leaf :=
  fileList.foldl (fun area item =>
    if fs.pathExists cwd (item.file system) then backupFile fs cwd area (item.file system)
    else area) fun _ => none

/-- `restore_file`, from the staging area. -/
def restoreFile (cwd : ℕ) (dir : Str) (name : Name) (leaf : Leaf) (fs : FileSystem) :
    FileSystem :=
  match fs.lookup cwd dir with
  | .found d =>
    if fs.isDirectory d then
      -- An old file is unlinked first: the restored one is a new inode.
      if fs.entry d name = none then fs.create d name leaf
      else (fs.unlink d name).create d name leaf
    else fs
  | _ => fs

section Restore

-- The text that the busybox at a path lists, and whether its rounds can link.
variable (listing : Str → Str) (works : Str → ℕ → Bool)

/-- The rounds of the applet loop of a restored busybox. -/
def roundsFor (cwd : ℕ) (file : Str) (fs : FileSystem) : List (Str × Bool) :=
  (appletWords fs cwd (listing file)).zipIdx.map fun word => (word.1, works file word.2)

/-- One file of the branch `restore`. -/
def restoreItem (system : Str) (cwd : ℕ) (area : Str → Option Leaf) (fs : FileSystem)
    (item : Item) : FileSystem :=
  match area (item.file system) with
  | none => fs
  | some leaf =>
    -- The applets are those that the restored busybox lists.
    let copied := restoreFile cwd (item.dir system) item.name leaf fs
    if item.name = busybox then
      outcome (restoreLoop (item.dir system) cwd copied
        (roundsFor listing works cwd (item.file system) copied))
    else copied

/-- The branch `restore`. -/
def restore (system : Str) (cwd : ℕ) (area : Str → Option Leaf) (fs : FileSystem) :
    FileSystem :=
  fileList.foldl (restoreItem listing works system cwd area) fs

end Restore

/-! ## The staging area -/

/-- After the backup, every listed file is staged as it was. -/
theorem backup_file {system : Str} {cwd : ℕ} {fs : FileSystem} {item : Item}
    (member : item ∈ fileList) :
    backup system cwd fs (item.file system) = fileAt fs cwd (item.file system) := by
  have absent (file : Str) (missing : ¬ fs.pathExists cwd file = true) :
      fileAt fs cwd file = none := by
    rw [fileAt]
    split
    · rename_i i found
      exact absurd (pathExists_iff.mpr ⟨i, found⟩) missing
    · rfl
  -- Every value of the area is right or not there yet.
  have run (items : List Item) (area : Str → Option Leaf)
      (sound : ∀ file, area file = none ∨ area file = fileAt fs cwd file) (file : Str)
      (listed : area file = fileAt fs cwd file ∨ ∃ item ∈ items, item.file system = file) :
      items.foldl (fun area item => if fs.pathExists cwd (item.file system) then
        backupFile fs cwd area (item.file system) else area) area file = fileAt fs cwd file := by
    induction items generalizing area with
    | nil =>
      rcases listed with done | ⟨item, member, -⟩
      · exact done
      · exact absurd member (by simp)
    | cons item items ih =>
      rw [List.foldl_cons]
      have step (other : Str) : (if fs.pathExists cwd (item.file system) then
          backupFile fs cwd area (item.file system) else area) other =
            if other = item.file system then fileAt fs cwd other else area other := by
        by_cases same : other = item.file system
        · subst same
          rw [if_pos rfl]
          split
          · exact Function.update_self ..
          · rename_i missing
            rcases sound (item.file system) with none | right
            · rw [none, absent _ missing]
            · exact right
        · rw [if_neg same]
          split
          · exact Function.update_of_ne same ..
          · rfl
      refine ih _ (fun other => ?_) ?_
      · rw [step]
        split
        · exact Or.inr rfl
        · exact sound other
      · rw [step]
        by_cases same : file = item.file system
        · exact Or.inl (if_pos same)
        · rw [if_neg same]
          refine listed.imp id ?_
          rintro ⟨other, inside, named⟩
          rcases List.mem_cons.mp inside with rfl | inside
          · exact absurd named.symm same
          · exact ⟨other, inside, named⟩
  exact run fileList _ (fun _ => Or.inl rfl) _ (Or.inr ⟨item, member, rfl⟩)

end BbBot.Ota
