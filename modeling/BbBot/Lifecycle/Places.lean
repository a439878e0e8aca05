/-
# What installers leave on a device

A device is used for installations again and again, some of them killed half-way.
Compared with the device before the first one, there are only more entries, and
only in the directories for installations: a busybox, its helper, links to that
busybox and scripts for it, each of them a new inode with a single name. In a
directory without a busybox nothing was added, unless a killed installer left a
helper or a script that is not executable yet.

These facts are kept by each kind of change that an installer makes.
-/

import BbBot.Applets.Inverse

namespace BbBot.Lifecycle

open BbBot.Unix BbBot.Unix.FileSystem BbBot.Cleaning BbBot.Applets

/-- A directory for installations, with the path that the installers name it by. -/
structure Place where
  dir : Str
  inode : ℕ
  deriving DecidableEq

/-- A device before the first installation. The places have neither of the two
binaries, and their entries are foreign. An applet is never called like a directory. -/
structure Untouched (places : List Place) (applets : List Name) (fs : FileSystem) : Prop where
  rooted : fs.isDirectory root = true
  absolute : ∀ p ∈ places, p.dir.head? = some '/'
  oneLine : ∀ p ∈ places, '\n' ∉ p.dir
  visited : ∀ p ∈ places, fs.lookup root p.dir = .found p.inode
  directory : ∀ p ∈ places, fs.isDirectory p.inode = true
  distinct : ∀ p ∈ places, ∀ q ∈ places, p.inode = q.inode → p = q
  bare : ∀ p ∈ places, fs.entry p.inode busybox = none ∧ fs.entry p.inode sslHelper = none
  foreign : ∀ p ∈ places, ∀ name ∈ fs.names p.inode, Foreign fs p.dir p.inode name
  words : ∀ applet ∈ applets, AppletName applet
  files : ∀ p ∈ places, ∀ applet ∈ applets, ∀ j, fs.lookup p.inode applet.1 = .found j →
    fs.isDirectory j = false

/-- What installers put under a name of a directory. Only a killed one leaves a
script that is not executable. -/
inductive Ours (killed : Prop) (applets : List Name) (dir : Str) : Name → Kind → Prop
  | program (text : Str) : Ours killed applets dir busybox (.file true text)
  | companion (text : Str) (foreign : firstLine text ≠ shebang dir) :
      Ours killed applets dir sslHelper (.file true text)
  | link (name : Name) (applet : name ∈ applets) (notProgram : name ≠ busybox)
      (notCompanion : name ≠ sslHelper) : Ours killed applets dir name (.symlink busybox.1)
  | script (name : Name) (executable : Bool) (applet : name ∈ applets)
      (notProgram : name ≠ busybox) (notCompanion : name ≠ sslHelper)
      (finished : executable = true ∨ killed) :
      Ours killed applets dir name (.file executable (wrapper dir))

/-- An entry of a place that was free at first and leads to a new inode of ours. -/
structure Added (killed : Prop) (applets : List Name) (base fs : FileSystem) (p : Place)
    (name : Name) (i : ℕ) (k : Kind) : Prop where
  free : base.entry p.inode name = none
  new : base.size ≤ i
  leads : fs.entry p.inode name = some i
  known : fs.kind i = some k
  ours : Ours killed applets p.dir name k

/-- What can be left without a busybox, and only by a killed installer. -/
def Left (killed : Prop) (applets : List Name) (base fs : FileSystem) (p : Place)
    (name : Name) : Prop :=
  killed ∧ ∃ i k, Added killed applets base fs p name i k ∧
    (name = sslHelper ∨ k = .file false (wrapper p.dir))

/-- The device is as it was at first, apart from what installers have added. -/
structure Kept (killed : Prop) (places : List Place) (applets : List Name)
    (base fs : FileSystem) : Prop where
  size : base.size ≤ fs.size
  kind : ∀ i < base.size, fs.kind i = base.kind i
  entry : ∀ e name, fs.entry e name = base.entry e name ∨
    ∃ p ∈ places, e = p.inode ∧ ∃ i k, Added killed applets base fs p name i k
  single : ∀ e name e' name' i, base.size ≤ i → fs.entry e name = some i →
    fs.entry e' name' = some i → e = e' ∧ name = name'
  alone : ∀ p ∈ places, fs.entry p.inode busybox = none → ∀ name,
    fs.entry p.inode name = base.entry p.inode name ∨ Left killed applets base fs p name

theorem Ours.mono {killed later : Prop} (implies : killed → later) {applets : List Name}
    {dir : Str} {name : Name} {k : Kind} (ours : Ours killed applets dir name k) :
    Ours later applets dir name k := by
  cases ours with
  | program text => exact .program text
  | companion text foreign => exact .companion text foreign
  | link name applet notProgram notCompanion => exact .link name applet notProgram notCompanion
  | script name executable applet notProgram notCompanion finished =>
    exact .script name executable applet notProgram notCompanion (finished.imp id implies)

/-- What leads on from an entry of ours is the busybox of its directory. -/
theorem Ours.target {killed : Prop} {applets : List Name} {dir path : Str} {name : Name}
    (ours : Ours killed applets dir name (.symlink path)) : path = busybox.1 := by
  cases ours
  rfl

/-- The two binaries are files. -/
theorem Ours.binary {killed : Prop} {applets : List Name} {dir : Str} {name : Name} {k : Kind}
    (ours : Ours killed applets dir name k) (which : name = busybox ∨ name = sslHelper) :
    ∃ text, k = .file true text := by
  cases ours with
  | program text => exact ⟨text, rfl⟩
  | companion text foreign => exact ⟨text, rfl⟩
  | link name applet notProgram notCompanion => exact (which.elim notProgram notCompanion).elim
  | script name executable applet notProgram notCompanion finished =>
    exact (which.elim notProgram notCompanion).elim

theorem Ours.not_directory {killed : Prop} {applets : List Name} {dir : Str} {name : Name}
    {writable : Bool} : ¬ Ours killed applets dir name (.directory writable) := by
  intro ours
  cases ours

namespace Added

variable {killed : Prop} {applets : List Name} {base fs : FileSystem} {p : Place} {name : Name}
  {i : ℕ} {k : Kind} (added : Added killed applets base fs p name i k)

include added

theorem mono {later : Prop} (implies : killed → later) : Added later applets base fs p name i k :=
  ⟨added.free, added.new, added.leads, added.known, added.ours.mono implies⟩

theorem isDirectory : fs.isDirectory i = false := by
  cases directory : fs.isDirectory i with
  | false => rfl
  | true =>
    obtain ⟨writable, known⟩ := isDirectory_iff.mp directory
    rw [added.known] at known
    obtain rfl := Option.some.inj known
    exact absurd added.ours Ours.not_directory

/-- An added entry stays one as long as its inode and its name do. -/
theorem of_eq {later : FileSystem} (leads : later.entry p.inode name = some i)
    (known : later.kind i = some k) : Added killed applets base later p name i k :=
  ⟨added.free, added.new, leads, known, added.ours⟩

end Added

theorem Left.mono {killed later : Prop} (implies : killed → later) {applets : List Name}
    {base fs : FileSystem} {p : Place} {name : Name}
    (left : Left killed applets base fs p name) : Left later applets base fs p name := by
  obtain ⟨holds, i, k, added, which⟩ := left
  exact ⟨implies holds, i, k, added.mono implies, which⟩

/-- What is left over stays so while its entry and all inodes do. -/
theorem Left.of_eq {killed : Prop} {applets : List Name} {base fs later : FileSystem} {p : Place} {name : Name}
    (left : Left killed applets base fs p name)
    (entry : later.entry p.inode name = fs.entry p.inode name)
    (kind : ∀ i < fs.size, later.kind i = fs.kind i) :
    Left killed applets base later p name := by
  obtain ⟨holds, i, k, added, which⟩ := left
  refine ⟨holds, i, k, added.of_eq (entry.trans added.leads) ?_, which⟩
  rw [kind i (lt_size_of_entry added.leads), added.known]

namespace Kept

variable {killed : Prop} {places : List Place} {applets : List Name} {base fs : FileSystem}

theorem refl (base : FileSystem) : Kept killed places applets base base where
  size := Nat.le_refl _
  kind := fun _ _ => rfl
  entry := fun _ _ => Or.inl rfl
  single := by
    intro e name e' name' i new leads
    exact absurd (lt_size_of_entry leads) (Nat.not_lt_of_le new)
  alone := fun _ _ _ _ => Or.inl rfl

variable (kept : Kept killed places applets base fs)

include kept

theorem mono {later : Prop} (implies : killed → later) : Kept later places applets base fs where
  size := kept.size
  kind := kept.kind
  entry := by
    intro e name
    refine (kept.entry e name).imp id ?_
    rintro ⟨p, member, same, i, k, added⟩
    exact ⟨p, member, same, i, k, added.mono implies⟩
  single := kept.single
  alone := fun p member absent name =>
    (kept.alone p member absent name).imp id (Left.mono implies)

/-- Nothing of the untouched device is gone. -/
theorem within : Within base fs where
  size := kept.size
  entry := by
    intro e name i leads
    rcases kept.entry e name with same | ⟨p, -, rfl, j, k, added⟩
    · exact same.trans leads
    · rw [added.free] at leads
      exact absurd leads (by simp)
  target := by
    intro i old
    rw [target, target, kept.kind i old]

theorem isDirectory {i : ℕ} (directory : base.isDirectory i = true) :
    fs.isDirectory i = true := by
  rw [FileSystem.isDirectory, kept.kind i (lt_size_of_isDirectory directory)]
  exact directory

theorem isDirectory_eq {i : ℕ} (old : i < base.size) : fs.isDirectory i = base.isDirectory i := by
  rw [FileSystem.isDirectory, kept.kind i old, FileSystem.isDirectory]

/-- A path that leads to a directory did so at first: what was added leads to files. -/
theorem lookup_directory (bare : ∀ p ∈ places, base.entry p.inode busybox = none) {d j : ℕ}
    {path : Str} (found : fs.lookup d path = .found j) (directory : fs.isDirectory j = true) :
    base.lookup d path = .found j := by
  have walk {links d : ℕ} {names : List Name} (found : fs.walk links d names = .found j) :
      base.walk links d names = .found j ∨ fs.isDirectory j = false := by
    induction found using walk_found_induction with
    | here links => exact Or.inl (walk_nil base links j)
    | @onward links d name rest i leads notLink further ih =>
      rcases kept.entry d name with same | ⟨p, -, rfl, i', k, added⟩
      · have old : base.entry d name = some i := same.symm.trans leads
        have sameTarget := kept.within.target i (lt_size_of_entry old)
        rw [walk_of_entry old (sameTarget.symm.trans notLink)]
        exact ih
      · -- Nothing is behind a file, so the path has ended at it.
        obtain rfl : i = i' := Option.some.inj (leads.symm.trans added.leads)
        cases rest with
        | nil =>
          rw [walk_nil] at further
          exact Or.inr (Lookup.found.inj further ▸ added.isDirectory)
        | cons next rest =>
          rw [walk_of_not_directory added.isDirectory] at further
          exact absurd further (by simp)
    | @follow links d name rest i target leads link further ih =>
      rcases kept.entry d name with same | ⟨p, member, rfl, i', k, added⟩
      · have old : base.entry d name = some i := same.symm.trans leads
        have sameTarget := kept.within.target i (lt_size_of_entry old)
        rw [walk_of_link old (sameTarget.symm.trans link)]
        exact ih
      · obtain rfl : i = i' := Option.some.inj (leads.symm.trans added.leads)
        have known := added.known
        rw [target_eq_some_iff.mp link] at known
        obtain rfl := Option.some.inj known
        -- A link of ours names the busybox, which the directory did not have.
        rw [added.ours.target, start_name, components_name, List.singleton_append] at ih
        refine ih.resolve_left ?_ |> Or.inr
        intro first
        obtain ⟨m, present, -⟩ := walk_cons_found first
        rw [bare p member] at present
        exact absurd present (by simp)
  rw [lookup] at found ⊢
  split at found
  · exact absurd found (by simp)
  · rename_i nonempty
    rw [if_neg nonempty]
    refine (walk found).resolve_right ?_
    rw [directory]
    simp

/-! ## Changes that keep this -/

/-- An entry that was free at first and is not free any more is one of ours. -/
theorem added_of_entry (distinct : ∀ p ∈ places, ∀ q ∈ places, p.inode = q.inode → p = q)
    {p : Place} (member : p ∈ places) {name : Name} {i : ℕ}
    (free : base.entry p.inode name = none) (leads : fs.entry p.inode name = some i) :
    ∃ k, Added killed applets base fs p name i k := by
  rcases kept.entry p.inode name with same | ⟨q, other, here, j, k, added⟩
  · rw [leads, free] at same
    exact absurd same (by simp)
  · obtain rfl := distinct p member q other here
    obtain rfl : i = j := Option.some.inj (leads.symm.trans added.leads)
    exact ⟨k, added⟩

/-- A new entry of ours under a name that is free, next to a busybox. -/
theorem create {p : Place} (member : p ∈ places) {name : Name} {leaf : Leaf}
    (directory : fs.isDirectory p.inode = true) (absent : fs.entry p.inode name = none)
    (ours : Ours killed applets p.dir name leaf.kind)
    (present : name = busybox ∨ ∃ bb, fs.entry p.inode busybox = some bb) :
    Kept killed places applets base (fs.create p.inode name leaf) := by
  have free : base.entry p.inode name = none := by
    cases first : base.entry p.inode name with
    | none => rfl
    | some i =>
      rw [kept.within.entry _ _ _ first] at absent
      exact absurd absent (by simp)
  have older {i : ℕ} (old : i < fs.size) : (fs.create p.inode name leaf).kind i = fs.kind i :=
    kind_create_of_lt old
  refine ⟨?_, fun i old => ?_, fun e n => ?_, fun e n e' n' i new leads leads' => ?_,
    fun q other without n => ?_⟩
  · rw [size_create]
    exact Nat.le_succ_of_le kept.size
  · rw [older (Nat.lt_of_lt_of_le old kept.size), kept.kind i old]
  · rw [entry_create directory]
    split_ifs with here
    · obtain ⟨rfl, rfl⟩ := here
      refine Or.inr ⟨p, member, rfl, fs.size, leaf.kind, free, kept.size, ?_, ?_, ours⟩
      · rw [entry_create directory, if_pos ⟨rfl, rfl⟩]
      · rw [kind_create, if_pos rfl]
    · refine (kept.entry e n).imp id ?_
      rintro ⟨q, other, rfl, i, k, added⟩
      refine ⟨q, other, rfl, i, k, added.of_eq ?_ ?_⟩
      · rw [entry_create directory, if_neg here, added.leads]
      · rw [older (lt_size_of_entry added.leads), added.known]
  · rw [entry_create directory] at leads leads'
    -- The new inode has the new name only, and the old ones have their old names.
    split_ifs at leads leads' with here here' here'
    · exact ⟨here.1.trans here'.1.symm, here.2.trans here'.2.symm⟩
    · exact absurd (lt_size_of_entry leads') (by
        rw [← Option.some.inj leads]
        exact Nat.lt_irrefl _)
    · exact absurd (lt_size_of_entry leads) (by
        rw [← Option.some.inj leads']
        exact Nat.lt_irrefl _)
    · exact kept.single e n e' n' i new leads leads'
  · have elsewhere : ¬ q.inode = p.inode := by
      intro here
      rw [here, entry_create directory] at without
      split_ifs at without with created
      rcases present with rfl | ⟨bb, present⟩
      · exact created ⟨rfl, rfl⟩
      · rw [present] at without
        exact absurd without (by simp)
    have same (n : Name) : (fs.create p.inode name leaf).entry q.inode n = fs.entry q.inode n :=
      entry_create_of_ne elsewhere ..
    rw [same] at without ⊢
    exact (kept.alone q other without n).imp id fun left => left.of_eq (same n) fun i => older

/-- An entry of ours is written again. -/
theorem rewrite {p : Place} (member : p ∈ places) {name : Name} {i : ℕ} {k : Kind}
    (added : Added killed applets base fs p name i k) {leaf : Leaf}
    (ours : Ours killed applets p.dir name leaf.kind)
    (present : ∃ bb, fs.entry p.inode busybox = some bb) :
    Kept killed places applets base (fs.rewrite i leaf) := by
  have kind := kind_rewrite (lt_size_of_entry added.leads) added.isDirectory leaf
  have other {e : ℕ} {n : Name} {j : ℕ} (leads : fs.entry e n = some j)
      (not : ¬ (e = p.inode ∧ n = name)) : (fs.rewrite i leaf).kind j = fs.kind j := by
    refine (kind j).trans (if_neg ?_)
    rintro rfl
    exact not (kept.single e n p.inode name j added.new leads added.leads)
  refine ⟨?_, fun j old => ?_, fun e n => ?_, fun e n e' n' j new => ?_,
    fun q isPlace without n => ?_⟩
  · rw [size_rewrite]
    exact kept.size
  · rw [kind, if_neg (Nat.ne_of_lt (Nat.lt_of_lt_of_le old added.new)), kept.kind j old]
  · rw [entry_rewrite]
    by_cases here : e = p.inode ∧ n = name
    · obtain ⟨rfl, rfl⟩ := here
      refine Or.inr ⟨p, member, rfl, i, leaf.kind, added.free, added.new, ?_, ?_, ours⟩
      · rw [entry_rewrite, added.leads]
      · rw [kind, if_pos rfl]
    · refine (kept.entry e n).imp id ?_
      rintro ⟨q, isPlace, rfl, j, k', older⟩
      refine ⟨q, isPlace, rfl, j, k', older.of_eq ?_ ?_⟩
      · rw [entry_rewrite, older.leads]
      · rw [other older.leads here, older.known]
  · rw [entry_rewrite, entry_rewrite]
    exact kept.single e n e' n' j new
  · rw [entry_rewrite] at without ⊢
    refine (kept.alone q isPlace without n).imp id ?_
    rintro ⟨holds, j, k', older, which⟩
    refine ⟨holds, j, k', older.of_eq ?_ ?_, which⟩
    · rw [entry_rewrite, older.leads]
    · rw [other older.leads, older.known]
      -- The place that is written to has a busybox.
      rintro ⟨here, -⟩
      obtain ⟨bb, present⟩ := present
      rw [here, present] at without
      exact absurd without (by simp)

/-- Entries of ours are removed from a place. -/
theorem trim {p : Place} (distinct : ∀ q ∈ places, q.inode = p.inode → q = p)
    {after : FileSystem}
    (trimmed : Trimmed (fun e name => e = p.inode ∧ base.entry e name = none) fs after)
    (alone : after.entry p.inode busybox = none → ∀ name,
      after.entry p.inode name = base.entry p.inode name ∨
        Left killed applets base after p name) :
    Kept killed places applets base after := by
  refine ⟨trimmed.size_eq ▸ kept.size, fun i old => ?_, fun e n => ?_,
    fun e n e' n' i new leads leads' => ?_, fun q member without n => ?_⟩
  · rw [trimmed.kind, kept.kind i old]
  · rcases trimmed.entry e n with same | ⟨gone, -, free⟩
    · rw [same]
      refine (kept.entry e n).imp id ?_
      rintro ⟨q, member, rfl, i, k, added⟩
      exact ⟨q, member, rfl, i, k, added.of_eq (same.trans added.leads)
        ((trimmed.kind i).trans added.known)⟩
    · exact Or.inl (gone.trans free.symm)
  · exact kept.single e n e' n' i new (trimmed.extends_.entry _ _ _ leads)
      (trimmed.extends_.entry _ _ _ leads')
  · by_cases here : q.inode = p.inode
    · obtain rfl := distinct q member here
      exact alone without n
    · have same (n : Name) : after.entry q.inode n = fs.entry q.inode n :=
        trimmed.entry_of_not fun gone => here gone.1
      rw [same] at without ⊢
      exact (kept.alone q member without n).imp id fun left =>
        left.of_eq (same n) fun i _ => trimmed.kind i

end Kept

end BbBot.Lifecycle
