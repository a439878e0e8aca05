/-
# Folders of files

A build works on a few folders that hold files and no other folders: it copies
files between them under new names, removes some, and lists what is there. All of
this is described by what is found under a name afterwards.
-/

import BbBot.Unix.Text
import Mathlib.Data.List.AList
import Mathlib.Data.List.Sort

namespace BbBot.Unix

/-- The files of a folder, each with its contents. -/
abbrev Folder := AList fun _ : Str => Str

namespace Folder

variable {folder source : Folder} {name : Str}

/-- Removing files by their names. -/
def erase (names : List Str) (folder : Folder) : Folder :=
  names.foldl (fun rest name => AList.erase name rest) folder

theorem lookup_erase (names : List Str) :
    (folder.erase names).lookup name = if name ∈ names then none else folder.lookup name := by
  induction names generalizing folder with
  | nil => rfl
  | cons first names ih =>
    rw [erase, List.foldl_cons, ← erase, ih]
    by_cases later : name ∈ names
    · rw [if_pos later, if_pos (List.mem_cons_of_mem _ later)]
    · by_cases same : name = first
      · subst same
        rw [if_neg later, if_pos List.mem_cons_self, AList.lookup_erase]
      · rw [if_neg later, if_neg (by simp [same, later]), AList.lookup_erase_ne same]

/-- `rm pattern`, for the names that the pattern stands for. -/
def remove (isGone : Str → Bool) (folder : Folder) : Folder :=
  folder.erase (folder.keys.filter isGone)

theorem lookup_remove (isGone : Str → Bool) :
    (folder.remove isGone).lookup name = if isGone name then none else folder.lookup name := by
  rw [remove, lookup_erase]
  by_cases gone : isGone name = true
  · rw [if_pos gone]
    by_cases here : name ∈ folder
    · rw [if_pos (List.mem_filter.mpr ⟨here, gone⟩)]
    · rw [AList.lookup_eq_none.mpr here, ite_self]
  · rw [if_neg gone, if_neg fun member => gone (List.mem_filter.mp member).2]

/-- `cp source target`, which leaves the folder as it is when there is no such file. -/
def copy (content : Option Str) (target : Str) (folder : Folder) : Folder :=
  match content with
  | some content => folder.insert target content
  | none => folder

theorem lookup_copy (content : Option Str) (target : Str) :
    (folder.copy content target).lookup name =
      if name = target then content.or (folder.lookup name) else folder.lookup name := by
  cases content with
  | none => exact (ite_self _).symm
  | some content =>
    split_ifs with same
    · rw [same]
      exact AList.lookup_insert _
    · exact AList.lookup_insert_ne same

/-- `cp -r source/* .`: a file of the source replaces one of its name. -/
def overlay (source folder : Folder) : Folder := source ∪ folder

theorem lookup_overlay :
    (source.overlay folder).lookup name = (source.lookup name).or (folder.lookup name) := by
  by_cases here : name ∈ source
  · obtain ⟨content, found⟩ := Option.isSome_iff_exists.mp (AList.lookup_isSome.mpr here)
    rw [overlay, AList.lookup_union_left here, found]
    rfl
  · rw [overlay, AList.lookup_union_right here, AList.lookup_eq_none.mpr here, Option.none_or]

/-- The names of the files, sorted, as `ls` prints them. -/
def listing (folder : Folder) : List Str :=
  folder.keys.insertionSort fun first second => precedes first second = true

@[simp] theorem mem_listing_iff : name ∈ folder.listing ↔ name ∈ folder := by
  rw [listing, List.mem_insertionSort, AList.mem_keys]

theorem nodup_listing : folder.listing.Nodup :=
  (List.perm_insertionSort _ _).nodup_iff.mpr folder.keys_nodup

/-- Copying the named files that there are, each under a new name. -/
def copyAs (rename : Str → Str) (names : List Str) (source folder : Folder) : Folder :=
  names.foldl (fun rest name => rest.copy (source.lookup name) (rename name)) folder

theorem lookup_copyAs {rename : Str → Str} (injective : Function.Injective rename)
    (names : List Str) :
    (copyAs rename names source folder).lookup (rename name) =
      if name ∈ names then (source.lookup name).or (folder.lookup (rename name))
      else folder.lookup (rename name) := by
  induction names generalizing folder with
  | nil => rfl
  | cons first names ih =>
    rw [copyAs, List.foldl_cons, ← copyAs, ih, lookup_copy]
    by_cases same : name = first
    · subst same
      rw [if_pos rfl, if_pos List.mem_cons_self]
      -- Copying a file again changes nothing.
      split_ifs
      · rw [← Option.or_assoc, Option.or_self]
      · rfl
    · rw [if_neg fun equal => same (injective equal)]
      simp only [List.mem_cons, same, false_or]

theorem lookup_copyAs_of_ne {rename : Str → Str} {names : List Str}
    (other : ∀ file ∈ names, name ≠ rename file) :
    (copyAs rename names source folder).lookup name = folder.lookup name := by
  induction names generalizing folder with
  | nil => rfl
  | cons first names ih =>
    rw [copyAs, List.foldl_cons, ← copyAs,
      ih fun file later => other file (List.mem_cons_of_mem _ later), lookup_copy,
      if_neg (other first List.mem_cons_self)]

/-- `unzip archive names`: the named members that there are. -/
def unzip (names : List Str) (archive folder : Folder) : Folder :=
  copyAs id names archive folder

theorem lookup_unzip (names : List Str) :
    (unzip names source folder).lookup name =
      if name ∈ names then (source.lookup name).or (folder.lookup name)
      else folder.lookup name :=
  lookup_copyAs Function.injective_id names

/-- A path in a folder of the folder. -/
def inside (dir name : Str) : Str := dir ++ '/' :: name

theorem inside_injective (dir : Str) : Function.Injective (inside dir) :=
  fun _ _ same => List.cons_injective (List.append_cancel_left same)

theorem ne_inside {name : Str} (plain : '/' ∉ name) (dir file : Str) : name ≠ inside dir file := by
  rintro rfl
  exact plain (by simp [inside])

/-- Paths in different folders are different. -/
theorem inside_ne_inside {dir other : Str} (plain : '/' ∉ dir) (otherPlain : '/' ∉ other)
    (different : dir ≠ other) (name file : Str) : inside dir name ≠ inside other file := by
  intro same
  have front (dir name : Str) (plain : '/' ∉ dir) :
      (inside dir name).takeWhile (· ≠ '/') = dir := by
    rw [inside, List.takeWhile_append_of_pos]
    · simp
    · intro c member
      have apart : c ≠ '/' := fun equal => plain (equal ▸ member)
      simpa using apart
  exact different (by rw [← front dir name plain, same, front other file otherPlain])

/-- `cp -r dir .`, for a folder of files. -/
def copyInto (dir : Str) (source folder : Folder) : Folder :=
  copyAs (inside dir) source.keys source folder

theorem lookup_copyInto (dir : Str) :
    (copyInto dir source folder).lookup (inside dir name) =
      (source.lookup name).or (folder.lookup (inside dir name)) := by
  rw [copyInto, lookup_copyAs (inside_injective dir)]
  split_ifs with here
  · rfl
  · rw [AList.lookup_eq_none.mpr here, Option.none_or]

end Folder

end BbBot.Unix
