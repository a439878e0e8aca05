/-
# Path resolution

A path is followed name by name. A symbolic link on the way is replaced by the
path it holds, at most a fixed number of times. The walk ends at an inode, or at
a directory that lacks the last name, where a file could be created, or it fails.

Resolution is monotone. In a file system with more entries, every path that led
to an inode leads to the same inode, because a walk only asks for entries it
finds. Deleting files therefore never redirects a path: what a path leads to
afterwards is what it led to before.
-/

import BbBot.Unix.FileSystem

namespace BbBot.Unix

/-- Where a path leads. -/
inductive Lookup
  /-- To an inode. -/
  | found (i : ℕ)
  /-- To a directory that has no entry under the last name of the path. -/
  | missing (d : ℕ) (name : Name)
  /-- Nowhere: a component is missing or not a directory, or there are too many links. -/
  | failed
  deriving DecidableEq

/-- The names on a path. Empty components and dots stay in place. -/
def components (path : Str) : List Name := (path.splitOn '/').filterMap Name.ofWord

theorem components_name (name : Name) : components name.1 = [name] := by
  rw [components, List.splitOn_eq_singleton name.2.2.1]
  simp

theorem components_slash (path : Str) (name : Name) :
    components (path ++ '/' :: name.1) = components path ++ [name] := by
  rw [components, List.splitOn_append_cons_self, List.filterMap_append]
  exact congrArg _ (components_name name)

namespace FileSystem

/-- Where a path starts: at the root when it is absolute. -/
def start (d : ℕ) (path : Str) : ℕ := if path.head? = some '/' then root else d

theorem start_name (d : ℕ) (name : Name) : start d name.1 = d := by
  refine if_neg fun absolute => name.2.2.1 ?_
  exact List.mem_of_mem_head? absolute

theorem start_slash {d : ℕ} {path : Str} {name : Name} (nonempty : path ≠ []) :
    start d (path ++ '/' :: name.1) = start d path := by
  cases path with
  | nil => exact absurd rfl nonempty
  | cons c path => rfl

/-- Follow names, handing the rest of the walk over at a symbolic link. -/
def walkWith (fs : FileSystem) (follow : ℕ → List Name → Lookup) : ℕ → List Name → Lookup
  | i, [] => .found i
  | d, name :: rest =>
    if fs.isDirectory d then
      match fs.entry d name with
      -- A last name that is free can be created; any other one is in the way.
      | none => if rest = [] then .missing d name else .failed
      | some i =>
        match fs.target i with
        | some path => follow (start d path) (components path ++ rest)
        | none => walkWith fs follow i rest
    else .failed

/-- Follow names through at most a given number of symbolic links. -/
def walk (fs : FileSystem) : ℕ → ℕ → List Name → Lookup
  | 0 => walkWith fs fun _ _ => .failed
  | links + 1 => walkWith fs (walk fs links)

/-- The kernel gives up after forty symbolic links. -/
def maxLinks : ℕ := 40

/-- Resolve a path from a working directory. The empty path leads nowhere. -/
def lookup (fs : FileSystem) (d : ℕ) (path : Str) : Lookup :=
  if path = [] then .failed else fs.walk maxLinks (start d path) (components path)

theorem lookup_name (fs : FileSystem) (d : ℕ) (name : Name) :
    fs.lookup d name.1 = fs.walk maxLinks d [name] := by
  rw [lookup, if_neg name.2.1, start_name, components_name]

/-- An absolute path leads to the same place from everywhere. -/
theorem lookup_absolute (fs : FileSystem) {path : Str} (absolute : path.head? = some '/')
    (d e : ℕ) : fs.lookup d path = fs.lookup e path := by
  rw [lookup, lookup, start, start, if_pos absolute, if_pos absolute]

/-! ## One step of a walk -/

section Step

variable {fs : FileSystem} {links d : ℕ} {name : Name} {rest : List Name}

@[simp] theorem walk_nil (fs : FileSystem) (links i : ℕ) : fs.walk links i [] = .found i := by
  cases links <;> rfl

theorem walk_of_not_directory (notDirectory : fs.isDirectory d = false) :
    fs.walk links d (name :: rest) = .failed := by
  cases links <;> rw [walk, walkWith, notDirectory] <;> rfl

theorem walk_of_entry_none (directory : fs.isDirectory d = true)
    (absent : fs.entry d name = none) :
    fs.walk links d (name :: rest) = if rest = [] then .missing d name else .failed := by
  cases links <;> rw [walk, walkWith, if_pos directory, absent]

theorem walk_of_entry {i : ℕ} (leads : fs.entry d name = some i)
    (notLink : fs.target i = none) :
    fs.walk links d (name :: rest) = fs.walk links i rest := by
  cases links <;> rw [walk, walkWith, if_pos (isDirectory_of_entry leads), leads] <;>
    simp only [notLink]

theorem walk_of_link {i : ℕ} {path : Str} (leads : fs.entry d name = some i)
    (link : fs.target i = some path) :
    fs.walk (links + 1) d (name :: rest) =
      fs.walk links (start d path) (components path ++ rest) := by
  rw [walk, walkWith, if_pos (isDirectory_of_entry leads), leads]
  simp only [link]

theorem walk_zero_of_link {i : ℕ} {path : Str} (leads : fs.entry d name = some i)
    (link : fs.target i = some path) : fs.walk 0 d (name :: rest) = .failed := by
  rw [walk, walkWith, if_pos (isDirectory_of_entry leads), leads]
  simp only [link]

/-- What the first step of a walk that finds an inode has done. -/
theorem walk_cons_found {i : ℕ} (found : fs.walk links d (name :: rest) = .found i) :
    ∃ j, fs.entry d name = some j ∧
      (fs.target j = none ∧ fs.walk links j rest = .found i ∨
        ∃ path links', links = links' + 1 ∧ fs.target j = some path ∧
          fs.walk links' (start d path) (components path ++ rest) = .found i) := by
  cases directory : fs.isDirectory d with
  | false =>
    rw [walk_of_not_directory directory] at found
    exact absurd found (by simp)
  | true =>
    cases leads : fs.entry d name with
    | none =>
      rw [walk_of_entry_none directory leads] at found
      split at found <;> exact absurd found (by simp)
    | some j =>
      refine ⟨j, rfl, ?_⟩
      cases link : fs.target j with
      | none => exact Or.inl ⟨rfl, walk_of_entry leads link ▸ found⟩
      | some path =>
        cases links with
        | zero =>
          rw [walk_zero_of_link leads link] at found
          exact absurd found (by simp)
        | succ links' => exact Or.inr ⟨path, links', rfl, rfl, walk_of_link leads link ▸ found⟩

/-- Induction along a walk that finds an inode, from where it starts. -/
@[elab_as_elim]
theorem walk_found_induction {i : ℕ}
    {motive : (links d : ℕ) → (names : List Name) → fs.walk links d names = .found i → Prop}
    (here : ∀ links, motive links i [] (walk_nil fs links i))
    (onward : ∀ {links d : ℕ} {name : Name} {rest : List Name} {j : ℕ}
      (leads : fs.entry d name = some j) (notLink : fs.target j = none)
      (further : fs.walk links j rest = .found i), motive links j rest further →
        motive links d (name :: rest) ((walk_of_entry leads notLink).trans further))
    (follow : ∀ {links d : ℕ} {name : Name} {rest : List Name} {j : ℕ} {path : Str}
      (leads : fs.entry d name = some j) (link : fs.target j = some path)
      (further : fs.walk links (start d path) (components path ++ rest) = .found i),
        motive links (start d path) (components path ++ rest) further →
          motive (links + 1) d (name :: rest) ((walk_of_link leads link).trans further))
    {names : List Name} (found : fs.walk links d names = .found i) :
    motive links d names found := by
  -- A link makes the names longer, but then one link less is left.
  induction links using Nat.strong_induction_on generalizing d names with
  | _ links fewer =>
    induction names generalizing d with
    | nil =>
      obtain rfl := Lookup.found.inj ((walk_nil fs links d).symm.trans found)
      exact here links
    | cons name rest ih =>
      obtain ⟨j, leads, ⟨notLink, further⟩ | ⟨path, links', rfl, link, further⟩⟩ :=
        walk_cons_found found
      · exact onward leads notLink further (ih further)
      · exact follow leads link further (fewer links' (Nat.lt_succ_self _) further)

theorem start_lt (inside : d < fs.size) (path : Str) : start d path < fs.size := by
  rw [start]
  split
  · exact Nat.lt_of_le_of_lt (Nat.zero_le _) inside
  · exact inside

/-- A walk that starts in the table ends in it. -/
theorem walk_found_lt {names : List Name} {i : ℕ} (inside : d < fs.size)
    (found : fs.walk links d names = .found i) : i < fs.size := by
  induction found using walk_found_induction with
  | here _ => exact inside
  | onward leads _ _ ih => exact ih (lt_size_of_entry leads)
  | follow _ _ _ ih => exact ih (start_lt inside _)

/-- A walk along a path passes through where the front of the path leads. -/
theorem walk_append_found {front back : List Name} {i : ℕ}
    (found : fs.walk links d (front ++ back) = .found i) :
    ∃ j links', fs.walk links d front = .found j ∧ fs.walk links' j back = .found i := by
  -- Induction on the links left, and within it on the names in front.
  induction links using Nat.strong_induction_on generalizing d front with
  | _ links fewer =>
    induction front generalizing d with
    | nil => exact ⟨d, links, walk_nil .., found⟩
    | cons name rest ih =>
      obtain ⟨j, leads, ⟨notLink, onwards⟩ | ⟨path, links', rfl, link, onwards⟩⟩ :=
        walk_cons_found found
      · rw [walk_of_entry leads notLink]
        exact ih onwards
      · rw [walk_of_link leads link]
        exact fewer links' (Nat.lt_succ_self _) (List.append_assoc .. ▸ onwards)

/-- What the first step of a walk that ends at a free name has done. -/
theorem walk_cons_missing {p : ℕ} {n : Name}
    (missing : fs.walk links d (name :: rest) = .missing p n) :
    fs.isDirectory d = true ∧
      (fs.entry d name = none ∧ rest = [] ∧ d = p ∧ name = n ∨
        ∃ j, fs.entry d name = some j ∧
          (fs.target j = none ∧ fs.walk links j rest = .missing p n ∨
            ∃ path links', links = links' + 1 ∧ fs.target j = some path ∧
              fs.walk links' (start d path) (components path ++ rest) = .missing p n)) := by
  cases directory : fs.isDirectory d with
  | false =>
    rw [walk_of_not_directory directory] at missing
    exact absurd missing (by simp)
  | true =>
    refine ⟨rfl, ?_⟩
    cases leads : fs.entry d name with
    | none =>
      rw [walk_of_entry_none directory leads] at missing
      split at missing
      · rename_i last
        exact Or.inl ⟨rfl, last, Lookup.missing.inj missing⟩
      · exact absurd missing (by simp)
    | some j =>
      refine Or.inr ⟨j, rfl, ?_⟩
      cases link : fs.target j with
      | none => exact Or.inl ⟨rfl, walk_of_entry leads link ▸ missing⟩
      | some path =>
        cases links with
        | zero =>
          rw [walk_zero_of_link leads link] at missing
          exact absurd missing (by simp)
        | succ links' => exact Or.inr ⟨path, links', rfl, rfl, walk_of_link leads link ▸ missing⟩

/-- Induction along a walk that ends at a free name, from where it starts. -/
@[elab_as_elim]
theorem walk_missing_induction {p : ℕ} {n : Name}
    {motive : (links d : ℕ) → (names : List Name) → fs.walk links d names = .missing p n → Prop}
    (free : ∀ {links : ℕ} (directory : fs.isDirectory p = true) (absent : fs.entry p n = none),
      motive links p [n] ((walk_of_entry_none directory absent).trans (if_pos rfl)))
    (onward : ∀ {links d : ℕ} {name : Name} {rest : List Name} {j : ℕ}
      (leads : fs.entry d name = some j) (notLink : fs.target j = none)
      (further : fs.walk links j rest = .missing p n), motive links j rest further →
        motive links d (name :: rest) ((walk_of_entry leads notLink).trans further))
    (follow : ∀ {links d : ℕ} {name : Name} {rest : List Name} {j : ℕ} {path : Str}
      (leads : fs.entry d name = some j) (link : fs.target j = some path)
      (further : fs.walk links (start d path) (components path ++ rest) = .missing p n),
        motive links (start d path) (components path ++ rest) further →
          motive (links + 1) d (name :: rest) ((walk_of_link leads link).trans further))
    {names : List Name} (missing : fs.walk links d names = .missing p n) :
    motive links d names missing := by
  induction links using Nat.strong_induction_on generalizing d names with
  | _ links fewer =>
    induction names generalizing d with
    | nil =>
      have found := (walk_nil fs links d).symm.trans missing
      exact absurd found (by simp)
    | cons name rest ih =>
      obtain ⟨directory, ⟨absent, rfl, rfl, rfl⟩ | ⟨j, leads, step⟩⟩ := walk_cons_missing missing
      · exact free directory absent
      · rcases step with ⟨notLink, further⟩ | ⟨path, links', rfl, link, further⟩
        · exact onward leads notLink further (ih further)
        · exact follow leads link further (fewer links' (Nat.lt_succ_self _) further)

/-- A walk ends at a free name of a directory. -/
theorem walk_missing {names : List Name} {p : ℕ} {n : Name}
    (missing : fs.walk links d names = .missing p n) :
    fs.isDirectory p = true ∧ fs.entry p n = none := by
  induction missing using walk_missing_induction with
  | free directory absent => exact ⟨directory, absent⟩
  | onward _ _ _ ih => exact ih
  | follow _ _ _ ih => exact ih

/-- With another bound on the links, a walk arrives at the same inode or fails
because the bound is smaller. -/
theorem walk_links {names : List Name} {i : ℕ} (found : fs.walk links d names = .found i)
    (other : ℕ) : fs.walk other d names = .found i ∨
      fs.walk other d names = .failed ∧ other < links := by
  induction found using walk_found_induction generalizing other with
  | here _ => exact Or.inl (walk_nil ..)
  | onward leads notLink _ ih =>
    rw [walk_of_entry leads notLink]
    exact ih other
  | follow leads link _ ih =>
    cases other with
    | zero => exact Or.inr ⟨walk_zero_of_link leads link, Nat.succ_pos _⟩
    | succ other =>
      rw [walk_of_link leads link]
      apply (ih other).imp id
      rintro ⟨failed, fewer⟩
      exact ⟨failed, Nat.succ_lt_succ fewer⟩

/-- A path fails when its front does. -/
theorem walk_append_failed {front : List Name} (failed : fs.walk links d front = .failed)
    (back : List Name) : fs.walk links d (front ++ back) = .failed := by
  induction links using Nat.strong_induction_on generalizing d front with
  | _ links fewer =>
    induction front generalizing d with
    | nil =>
      rw [walk_nil] at failed
      exact absurd failed (by simp)
    | cons name rest ih =>
      rw [List.cons_append]
      cases directory : fs.isDirectory d with
      | false => exact walk_of_not_directory directory
      | true =>
        cases leads : fs.entry d name with
        | none =>
          rw [walk_of_entry_none directory leads] at failed ⊢
          split at failed
          · exact absurd failed (by simp)
          · rename_i more
            exact if_neg fun none => more (List.append_eq_nil_iff.mp none).1
        | some j =>
          cases link : fs.target j with
          | none =>
            rw [walk_of_entry leads link] at failed ⊢
            exact ih failed
          | some path =>
            cases links with
            | zero => exact walk_zero_of_link leads link
            | succ links =>
              rw [walk_of_link leads link] at failed ⊢
              rw [← List.append_assoc]
              exact fewer links (Nat.lt_succ_self _) failed

/-- Nothing is missing behind a file. -/
theorem walk_file_ne_missing {i : ℕ} (notDirectory : fs.isDirectory i = false) (links : ℕ)
    (names : List Name) (p : ℕ) (n : Name) : fs.walk links i names ≠ .missing p n := by
  cases names with
  | nil => simp
  | cons name rest => simp [walk_of_not_directory notDirectory]

end Step

theorem lookup_slash {fs : FileSystem} {d : ℕ} {path : Str} {name : Name} (nonempty : path ≠ []) :
    fs.lookup d (path ++ '/' :: name.1) =
      fs.walk maxLinks (start d path) (components path ++ [name]) := by
  rw [lookup, if_neg (by simp), components_slash, start_slash nonempty]

theorem lookup_found_lt {fs : FileSystem} {d : ℕ} {path : Str} {i : ℕ} (inside : d < fs.size)
    (found : fs.lookup d path = .found i) : i < fs.size := by
  rw [lookup] at found
  split at found
  · exact absurd found (by simp)
  · exact walk_found_lt (start_lt inside path) found

/-- A file found at `path/name` is an entry of the directory that `path` names. -/
theorem lookup_append_name {fs : FileSystem} {d : ℕ} {path : Str} {name : Name} {i : ℕ}
    (nonempty : path ≠ []) (found : fs.lookup d (path ++ '/' :: name.1) = .found i) :
    ∃ directory j, fs.lookup d path = .found directory ∧
      fs.entry directory name = some j := by
  rw [lookup_slash nonempty] at found
  obtain ⟨directory, links, front, back⟩ := walk_append_found found
  obtain ⟨j, leads, -⟩ := walk_cons_found back
  exact ⟨directory, j, by rw [lookup, if_neg nonempty, front], leads⟩

/-! ## Fewer and more entries -/

/-- Every entry of `small` is in `large`, and links hold the same paths. What files
contain does not matter to a walk. -/
structure Within (small large : FileSystem) : Prop where
  size : small.size ≤ large.size
  entry : ∀ d name i, small.entry d name = some i → large.entry d name = some i
  target : ∀ i < small.size, large.target i = small.target i

namespace Within

theorem refl (fs : FileSystem) : Within fs fs :=
  ⟨Nat.le_refl _, fun _ _ _ h => h, fun _ _ => rfl⟩

theorem trans {a b c : FileSystem} (first : Within a b) (second : Within b c) : Within a c :=
  ⟨Nat.le_trans first.size second.size,
    fun d name i h => second.entry d name i (first.entry d name i h),
    fun i old => (second.target i (Nat.lt_of_lt_of_le old first.size)).trans (first.target i old)⟩

variable {small large : FileSystem}

/-- A path continues from where its front leads, with the links that are left,
and does so however many entries are added. -/
theorem walk_append {links d : ℕ} {front : List Name} {i : ℕ}
    (found : small.walk links d front = .found i) :
    ∃ links' ≤ links, ∀ large, Within small large → ∀ back,
      large.walk links d (front ++ back) = large.walk links' i back := by
  induction found using walk_found_induction with
  | here links => exact ⟨links, Nat.le_refl _, fun _ _ _ => rfl⟩
  | onward leads notLink _ ih =>
    obtain ⟨left, bound, reach⟩ := ih
    refine ⟨left, bound, ?_⟩
    intro large grows back
    have sameTarget := grows.target _ (lt_size_of_entry leads)
    rw [List.cons_append, walk_of_entry (grows.entry _ _ _ leads) (sameTarget.trans notLink),
      reach large grows]
  | follow leads link _ ih =>
    obtain ⟨left, bound, reach⟩ := ih
    refine ⟨left, Nat.le_succ_of_le bound, ?_⟩
    intro large grows back
    have sameTarget := grows.target _ (lt_size_of_entry leads)
    rw [List.cons_append, walk_of_link (grows.entry _ _ _ leads) (sameTarget.trans link),
      ← List.append_assoc, reach large grows]

/-- A path that ends at a free name gets there however many entries are added. -/
theorem walk_missing {links d : ℕ} {names : List Name} {p : ℕ} {n : Name}
    (missing : small.walk links d names = .missing p n) :
    ∃ links', ∀ large, Within small large →
      large.walk links d names = large.walk links' p [n] := by
  induction missing using walk_missing_induction with
  | @free links _ _ => exact ⟨links, fun _ _ => rfl⟩
  | onward leads notLink _ ih =>
    obtain ⟨left, reach⟩ := ih
    refine ⟨left, ?_⟩
    intro large grows
    have sameTarget := grows.target _ (lt_size_of_entry leads)
    rw [walk_of_entry (grows.entry _ _ _ leads) (sameTarget.trans notLink), reach large grows]
  | follow leads link _ ih =>
    obtain ⟨left, reach⟩ := ih
    refine ⟨left, ?_⟩
    intro large grows
    have sameTarget := grows.target _ (lt_size_of_entry leads)
    rw [walk_of_link (grows.entry _ _ _ leads) (sameTarget.trans link), reach large grows]

variable (grows : Within small large)

include grows

/-- A path that leads to an inode still leads there when entries are added. -/
theorem walk_found {links d : ℕ} {names : List Name} {i : ℕ}
    (found : small.walk links d names = .found i) : large.walk links d names = .found i := by
  obtain ⟨links', -, reach⟩ := walk_append found
  have whole := reach large grows []
  rwa [List.append_nil, walk_nil] at whole

theorem lookup_found {d : ℕ} {path : Str} {i : ℕ} (found : small.lookup d path = .found i) :
    large.lookup d path = .found i := by
  rw [lookup] at found ⊢
  split at found
  · exact absurd found (by simp)
  · rename_i nonempty
    rw [if_neg nonempty]
    exact grows.walk_found found

/-- A path that ended at a free name leads to what was put there. -/
theorem walk_filled {links d : ℕ} {names : List Name} {p : ℕ} {n : Name} {j : ℕ}
    (missing : small.walk links d names = .missing p n) (leads : large.entry p n = some j)
    (notLink : large.target j = none) : large.walk links d names = .found j := by
  obtain ⟨left, reach⟩ := walk_missing missing
  rw [reach large grows, walk_of_entry leads notLink, walk_nil]

end Within

/-- `large` has every inode and every entry of `small`. -/
structure Extends (small large : FileSystem) : Prop where
  kind : ∀ i kind, small.kind i = some kind → large.kind i = some kind
  entry : ∀ d name i, small.entry d name = some i → large.entry d name = some i

namespace Extends

theorem refl (fs : FileSystem) : Extends fs fs := ⟨fun _ _ h => h, fun _ _ _ h => h⟩

theorem trans {a b c : FileSystem} (first : Extends a b) (second : Extends b c) : Extends a c :=
  ⟨fun i kind h => second.kind i kind (first.kind i kind h),
    fun d name i h => second.entry d name i (first.entry d name i h)⟩

variable {small large : FileSystem} (grows : Extends small large)

include grows

theorem size_le : small.size ≤ large.size := by
  by_contra larger
  have inside : large.size < small.size := Nat.not_le.mp larger
  obtain ⟨kind, known⟩ := Option.isSome_iff_exists.mp (kind_isSome_iff.mpr inside)
  have beyond := grows.kind _ _ known
  rw [kind_eq_none (Nat.le_refl _)] at beyond
  exact absurd beyond (by simp)

theorem isDirectory {d : ℕ} (directory : small.isDirectory d = true) :
    large.isDirectory d = true := by
  obtain ⟨writable, isDir⟩ := isDirectory_iff.mp directory
  exact isDirectory_iff.mpr ⟨writable, grows.kind _ _ isDir⟩

theorem kind_eq {i : ℕ} (old : i < small.size) : large.kind i = small.kind i := by
  obtain ⟨kind, known⟩ := Option.isSome_iff_exists.mp (kind_isSome_iff.mpr old)
  rw [grows.kind _ _ known, known]

theorem target_eq {i : ℕ} (old : i < small.size) : large.target i = small.target i := by
  rw [target, target, grows.kind_eq old]

theorem entry_eq_none {d : ℕ} {name : Name} (absent : large.entry d name = none) :
    small.entry d name = none := by
  cases leads : small.entry d name with
  | none => rfl
  | some i =>
    rw [grows.entry _ _ _ leads] at absent
    exact absurd absent (by simp)

theorem isDirectory_eq {i : ℕ} (old : i < small.size) :
    large.isDirectory i = small.isDirectory i := by
  rw [FileSystem.isDirectory, FileSystem.isDirectory, grows.kind_eq old]

theorem within : Within small large :=
  ⟨grows.size_le, grows.entry, fun _ old => grows.target_eq old⟩

theorem walk_found {links d : ℕ} {names : List Name} {i : ℕ}
    (found : small.walk links d names = .found i) : large.walk links d names = .found i :=
  grows.within.walk_found found

theorem lookup_found {d : ℕ} {path : Str} {i : ℕ} (found : small.lookup d path = .found i) :
    large.lookup d path = .found i :=
  grows.within.lookup_found found

end Extends

/-- Nothing is missing behind a path to a file. -/
theorem walk_found_ne_missing {fs : FileSystem} {links d : ℕ} {names : List Name} {i : ℕ}
    (found : fs.walk links d names = .found i) (notDirectory : fs.isDirectory i = false)
    (other : ℕ) (back : List Name) (p : ℕ) (n : Name) :
    fs.walk other d (names ++ back) ≠ .missing p n := by
  rcases walk_links found other with arrives | ⟨fails, -⟩
  -- The walk arrives at the file with some links left, and goes on from there.
  · obtain ⟨left, -, reach⟩ := Within.walk_append arrives
    rw [reach fs (Within.refl fs)]
    exact walk_file_ne_missing notDirectory left back p n
  · rw [walk_append_failed fails]
    simp

/-- A file of a directory is found under the path of the directory. -/
theorem lookup_slash_entry {fs : FileSystem} {d directory i : ℕ} {path : Str} {name : Name}
    (visited : fs.lookup d path = .found directory) (leads : fs.entry directory name = some i)
    (notLink : fs.target i = none) : fs.lookup d (path ++ '/' :: name.1) = .found i := by
  rw [lookup] at visited
  split at visited
  · exact absurd visited (by simp)
  · rename_i nonempty
    obtain ⟨links, -, reach⟩ := Within.walk_append visited
    rw [lookup_slash nonempty, reach fs (Within.refl fs), walk_of_entry leads notLink, walk_nil]

/-- Unlinking only loses entries. -/
theorem unlink_extends (fs : FileSystem) (d : ℕ) (name : Name) :
    Extends (fs.unlink d name) fs := by
  refine ⟨fun i kind known => by rwa [kind_unlink] at known, fun other n i leads => ?_⟩
  rw [entry_unlink] at leads
  split at leads
  · exact absurd leads (by simp)
  · exact leads

/-- Creating under a fresh name only adds entries. -/
theorem extends_create {fs : FileSystem} {d : ℕ} {name : Name}
    (directory : fs.isDirectory d = true) (fresh : fs.entry d name = none) (new : Leaf) :
    Extends fs (fs.create d name new) := by
  refine ⟨fun i kind known => ?_, fun other n i leads => ?_⟩
  · rw [kind_create_of_lt (kind_isSome_iff.mp (known ▸ rfl)), known]
  · rw [entry_create directory, if_neg, leads]
    rintro ⟨rfl, rfl⟩
    rw [fresh] at leads
    exact absurd leads (by simp)

/-! ## Deleting entries -/

/-- Nothing but some of the entries in `gone` was removed. -/
structure Trimmed (gone : ℕ → Name → Prop) (before after : FileSystem) : Prop where
  kind : ∀ i, after.kind i = before.kind i
  entry : ∀ d name, after.entry d name = before.entry d name ∨
    after.entry d name = none ∧ gone d name

namespace Trimmed

variable {gone : ℕ → Name → Prop} {before after : FileSystem}

theorem refl (gone : ℕ → Name → Prop) (fs : FileSystem) : Trimmed gone fs fs :=
  ⟨fun _ => rfl, fun _ _ => Or.inl rfl⟩

theorem trans {middle : FileSystem} (first : Trimmed gone before middle)
    (second : Trimmed gone middle after) : Trimmed gone before after := by
  refine ⟨fun i => (second.kind i).trans (first.kind i), fun d name => ?_⟩
  rcases second.entry d name with same | removed
  · rw [same]
    exact first.entry d name
  · exact Or.inr removed

theorem extends_ (trimmed : Trimmed gone before after) : Extends after before := by
  refine ⟨fun i kind known => trimmed.kind i ▸ known, fun d name i leads => ?_⟩
  rcases trimmed.entry d name with same | ⟨none, -⟩
  · rw [← same, leads]
  · rw [none] at leads
    exact absurd leads (by simp)

theorem size_eq (trimmed : Trimmed gone before after) : after.size = before.size := by
  have same (i : ℕ) : i < after.size ↔ i < before.size := by
    rw [← kind_isSome_iff, ← kind_isSome_iff, trimmed.kind]
  have first := same after.size
  have second := same before.size
  omega

theorem mono {other : ℕ → Name → Prop} (trimmed : Trimmed gone before after)
    (weaker : ∀ d name, gone d name → other d name) : Trimmed other before after :=
  ⟨trimmed.kind, fun d name => (trimmed.entry d name).imp id fun h => ⟨h.1, weaker d name h.2⟩⟩

/-- An entry that may not be removed is kept. -/
theorem entry_of_not (trimmed : Trimmed gone before after) {d : ℕ} {name : Name}
    (kept : ¬ gone d name) : after.entry d name = before.entry d name :=
  (trimmed.entry d name).resolve_right fun removed => kept removed.2

theorem isDirectory_eq (trimmed : Trimmed gone before after) (i : ℕ) :
    after.isDirectory i = before.isDirectory i := by
  rw [isDirectory, isDirectory, trimmed.kind]

theorem unlink {d : ℕ} {name : Name} (fs : FileSystem) (allowed : gone d name) :
    Trimmed gone fs (fs.unlink d name) := by
  refine ⟨fun i => kind_unlink d name i, fun other n => ?_⟩
  rw [entry_unlink]
  split_ifs with same
  · exact Or.inr ⟨rfl, same.1 ▸ same.2 ▸ allowed⟩
  · exact Or.inl rfl

end Trimmed

/-! ## The entries that a path passes -/

/-- The entries that a walk looks up, handing over at a symbolic link. -/
def trailWith (fs : FileSystem) (follow : ℕ → List Name → List (ℕ × Name)) :
    ℕ → List Name → List (ℕ × Name)
  | _, [] => []
  | d, name :: rest =>
    (d, name) ::
      match fs.entry d name with
      | none => []
      | some i =>
        match fs.target i with
        | some path => follow (start d path) (components path ++ rest)
        | none => trailWith fs follow i rest

/-- The entries that a walk looks up. -/
def trail (fs : FileSystem) : ℕ → ℕ → List Name → List (ℕ × Name)
  | 0 => trailWith fs fun _ _ => []
  | links + 1 => trailWith fs (trail fs links)

/-- The entries that a path passes through. -/
def trailOf (fs : FileSystem) (d : ℕ) (path : Str) : List (ℕ × Name) :=
  fs.trail maxLinks (start d path) (components path)

namespace Trimmed

variable {gone : ℕ → Name → Prop} {before after : FileSystem}
  (trimmed : Trimmed gone before after)

include trimmed

private theorem walkWith_eq {first second : ℕ → List Name → Lookup}
    {follow : ℕ → List Name → List (ℕ × Name)}
    (onwards : ∀ d names, (∀ p ∈ follow d names, ¬ gone p.1 p.2) → first d names = second d names)
    {d : ℕ} {names : List Name} (kept : ∀ p ∈ before.trailWith follow d names, ¬ gone p.1 p.2) :
    after.walkWith first d names = before.walkWith second d names := by
  induction names generalizing d with
  | nil => rfl
  | cons name rest ih =>
    have same : after.entry d name = before.entry d name :=
      trimmed.entry_of_not (kept (d, name) (List.mem_cons_self ..))
    rw [walkWith, walkWith, trimmed.isDirectory_eq, same]
    rw [trailWith] at kept
    split
    · split
      · rfl
      · rename_i i leads
        have sameTarget : after.target i = before.target i := by rw [target, target, trimmed.kind]
        rw [sameTarget]
        rw [leads] at kept
        dsimp only at kept
        split
        · rename_i path link
          rw [link] at kept
          exact onwards _ _ fun p member => kept p (List.mem_cons_of_mem _ member)
        · rename_i notLink
          rw [notLink] at kept
          exact ih fun p member => kept p (List.mem_cons_of_mem _ member)
    · rfl

/-- A walk past entries that are still there ends where it did. -/
theorem walk_eq {links d : ℕ} {names : List Name}
    (kept : ∀ p ∈ before.trail links d names, ¬ gone p.1 p.2) :
    after.walk links d names = before.walk links d names := by
  induction links generalizing d names with
  | zero => exact trimmed.walkWith_eq (fun _ _ _ => rfl) kept
  | succ links ih => exact trimmed.walkWith_eq (fun _ _ onwards => ih onwards) kept

theorem lookup_eq {d : ℕ} {path : Str} (kept : ∀ p ∈ before.trailOf d path, ¬ gone p.1 p.2) :
    after.lookup d path = before.lookup d path := by
  rw [lookup, lookup, trimmed.walk_eq kept]

end Trimmed

/-! ## Where a path stops -/

/-- The path leads to a free name of a directory, perhaps with more names behind
it, and gets there however many entries are added. -/
def StopsAt (fs : FileSystem) (links d : ℕ) (names : List Name) (p : ℕ) (n : Name) : Prop :=
  fs.isDirectory p = true ∧ fs.entry p n = none ∧ ∃ links' rest, ∀ later, Within fs later →
    later.walk links d names = later.walk links' p (n :: rest)

namespace StopsAt

variable {fs : FileSystem} {links d : ℕ} {names : List Name} {p : ℕ} {n : Name}
  (stops : StopsAt fs links d names p n)

include stops

/-- The path still stops there while the name is free. -/
theorem of_within {later : FileSystem} (grows : Within fs later)
    (directory : later.isDirectory p = true) (absent : later.entry p n = none) :
    StopsAt later links d names p n := by
  obtain ⟨-, -, left, rest, reach⟩ := stops
  exact ⟨directory, absent, left, rest, fun _ larger => reach _ (grows.trans larger)⟩

/-- While the name is free, nothing is found. -/
theorem not_found {later : FileSystem} (grows : Within fs later)
    (directory : later.isDirectory p = true) (absent : later.entry p n = none) (i : ℕ) :
    later.walk links d names ≠ .found i := by
  obtain ⟨-, -, left, rest, reach⟩ := stops
  rw [reach later grows, walk_of_entry_none directory absent]
  split <;> simp

/-- The name is the last one, or a file under it does not help. -/
theorem missing_or_failed : fs.walk links d names = .missing p n ∨
    ∀ later, Within fs later → later.isDirectory p = true →
      (∀ i, later.entry p n = some i → later.target i = none ∧ later.isDirectory i = false) →
        later.walk links d names = .failed := by
  obtain ⟨directory, absent, left, rest, reach⟩ := stops
  cases rest with
  | nil =>
    rw [reach fs (Within.refl fs), walk_of_entry_none directory absent]
    exact Or.inl (if_pos rfl)
  | cons next rest =>
    refine Or.inr fun later grows stillDirectory file => ?_
    rw [reach later grows]
    cases leads : later.entry p n with
    | none => rw [walk_of_entry_none stillDirectory leads, if_neg (by simp)]
    | some i =>
      rw [walk_of_entry leads (file i leads).1]
      exact walk_of_not_directory (file i leads).2

/-- The name is the last one when a file under it is what the path leads to. -/
theorem missing_of_found {later : FileSystem} (grows : Within fs later) {i j : ℕ}
    (directory : later.isDirectory p = true) (leads : later.entry p n = some j)
    (notLink : later.target j = none) (file : later.isDirectory j = false)
    (found : later.walk links d names = .found i) : fs.walk links d names = .missing p n := by
  refine stops.missing_or_failed.resolve_right fun fails => ?_
  -- Otherwise the file would be in the way of the names behind it.
  have failed := fails later grows directory fun k there => by
    obtain rfl := Option.some.inj (leads.symm.trans there)
    exact ⟨notLink, file⟩
  rw [failed] at found
  exact absurd found (by simp)

end StopsAt

/-- The first name of a path still has its entry, or the path stops there. -/
theorem Trimmed.entry_or_stopsAt {gone : ℕ → Name → Prop} {before after : FileSystem}
    (trimmed : Trimmed gone before after) {d j : ℕ} {name : Name}
    (leads : before.entry d name = some j) (links : ℕ) (rest : List Name) :
    after.entry d name = some j ∨ StopsAt after links d (name :: rest) d name := by
  cases now : after.entry d name with
  | none =>
    have directory : after.isDirectory d = true :=
      (trimmed.isDirectory_eq d).trans (isDirectory_of_entry leads)
    exact Or.inr ⟨directory, now, links, rest, fun _ _ => rfl⟩
  | some k =>
    rw [← leads, trimmed.extends_.entry _ _ _ now]
    exact Or.inl rfl

/-- When entries are deleted, a path still leads where it did or stops at one of
them. -/
theorem Trimmed.walk_found_or_stopsAt {gone : ℕ → Name → Prop} {before after : FileSystem}
    (trimmed : Trimmed gone before after) {links d : ℕ} {names : List Name} {i : ℕ}
    (found : before.walk links d names = .found i) :
    after.walk links d names = .found i ∨
      ∃ p n j, before.entry p n = some j ∧ StopsAt after links d names p n := by
  -- Inodes are as they were, so links hold the same paths.
  have sameTarget (j : ℕ) : after.target j = before.target j := by
    rw [target, target, trimmed.kind]
  induction found using walk_found_induction with
  | here _ => exact Or.inl (walk_nil ..)
  | @onward links d name rest j leads notLink _ ih =>
    rcases trimmed.entry_or_stopsAt leads links rest with now | stops
    · rw [walk_of_entry now ((sameTarget j).trans notLink)]
      refine ih.imp id ?_
      rintro ⟨p, n, k, there, directory, absent, left, more, reach⟩
      refine ⟨p, n, k, there, directory, absent, left, more, ?_⟩
      intro later grows
      have still := (grows.target j (lt_size_of_entry now)).trans (sameTarget j)
      rw [walk_of_entry (grows.entry _ _ _ now) (still.trans notLink), reach later grows]
    · exact Or.inr ⟨d, name, j, leads, stops⟩
  | @follow links d name rest j path leads link _ ih =>
    rcases trimmed.entry_or_stopsAt leads (links + 1) rest with now | stops
    · rw [walk_of_link now ((sameTarget j).trans link)]
      refine ih.imp id ?_
      rintro ⟨p, n, k, there, directory, absent, left, more, reach⟩
      refine ⟨p, n, k, there, directory, absent, left, more, ?_⟩
      intro later grows
      have still := (grows.target j (lt_size_of_entry now)).trans (sameTarget j)
      rw [walk_of_link (grows.entry _ _ _ now) (still.trans link), reach later grows]
    · exact Or.inr ⟨d, name, j, leads, stops⟩

end FileSystem

end BbBot.Unix
