/-
# Survival of an update

After the restore, the new tree is the one the update shipped, overlaid with the
staged files and with applets under names that were free. Replacing a file never
closes a path: a path that led to a file leads to a file, and a path that led to
a directory leads to the same directory, because no listed path is a directory.
-/

import BbBot.Ota.Script

namespace BbBot.Ota

open BbBot.Unix BbBot.Unix.FileSystem BbBot.Cleaning BbBot.Applets

/-! ## Overlays -/

/-- The inodes of `before` are as they were. An entry leads where it led, or to a
new inode that was restored there or became an applet under a free name. -/
structure Overlaid (restored applet : ℕ → Name → Kind → Prop) (before after : FileSystem) :
    Prop where
  size : before.size ≤ after.size
  kind : ∀ i < before.size, after.kind i = before.kind i
  entry : ∀ e n, after.entry e n = before.entry e n ∨
    ∃ i k, before.size ≤ i ∧ after.entry e n = some i ∧ after.kind i = some k ∧
      (restored e n k ∨ before.entry e n = none ∧ applet e n k)

namespace Overlaid

variable {restored applet : ℕ → Name → Kind → Prop} {before after : FileSystem}

theorem refl (fs : FileSystem) : Overlaid restored applet fs fs :=
  ⟨Nat.le_refl _, fun _ _ => rfl, fun _ _ => Or.inl rfl⟩

theorem isDirectory (overlaid : Overlaid restored applet before after) {i : ℕ}
    (directory : before.isDirectory i = true) : after.isDirectory i = true := by
  rw [FileSystem.isDirectory, overlaid.kind i (lt_size_of_isDirectory directory)]
  exact directory

/-- A new inode under a name: nothing else changed on the way to `fs`, and the
name was restored or is an applet that was free before. -/
theorem fill (overlaid : Overlaid restored applet before after) {fs : FileSystem} {d : ℕ}
    {name : Name} {leaf : Leaf} (directory : fs.isDirectory d = true)
    (size : fs.size = after.size) (kind : ∀ i, fs.kind i = after.kind i)
    (entry : ∀ e n, ¬ (e = d ∧ n = name) → fs.entry e n = after.entry e n)
    (origin : restored d name leaf.kind ∨
      before.entry d name = none ∧ applet d name leaf.kind) :
    Overlaid restored applet before (fs.create d name leaf) := by
  refine ⟨?_, fun i old => ?_, fun e n => ?_⟩
  · rw [size_create, size]
    exact Nat.le_succ_of_le overlaid.size
  · rw [kind_create_of_lt (by rw [size]; exact Nat.lt_of_lt_of_le old overlaid.size), kind,
      overlaid.kind i old]
  · rw [entry_create directory]
    split_ifs with here
    · obtain ⟨rfl, rfl⟩ := here
      -- The new inode comes after all those of the new tree.
      refine Or.inr ⟨fs.size, leaf.kind, size ▸ overlaid.size, rfl, ?_, origin⟩
      rw [kind_create, if_pos rfl]
    · rw [entry e n here]
      refine (overlaid.entry e n).imp id ?_
      rintro ⟨i, k, beyond, leads, known, earlier⟩
      refine ⟨i, k, beyond, leads, ?_, earlier⟩
      rw [kind_create_of_lt (by rw [size]; exact lt_size_of_entry leads), kind, known]

/-- A restored file, in the place of what was there. -/
theorem replace (overlaid : Overlaid restored applet before after) {d : ℕ} {name : Name}
    {leaf : Leaf} (directory : after.isDirectory d = true) (slot : restored d name leaf.kind) :
    Overlaid restored applet before
      (if after.entry d name = none then after.create d name leaf
        else (after.unlink d name).create d name leaf) := by
  split
  · exact overlaid.fill directory rfl (fun _ => rfl) (fun _ _ _ => rfl) (Or.inl slot)
  · have still : (after.unlink d name).isDirectory d = true := by
      rw [FileSystem.isDirectory, kind_unlink]
      exact directory
    refine overlaid.fill still (size_unlink d name) (kind_unlink d name) ?_ (Or.inl slot)
    intro e n other
    rw [entry_unlink, if_neg other]

/-- An applet under a name that is free. -/
theorem create (overlaid : Overlaid restored applet before after) {d : ℕ} {name : Name}
    {leaf : Leaf} (directory : after.isDirectory d = true) (absent : after.entry d name = none)
    (slot : applet d name leaf.kind) :
    Overlaid restored applet before (after.create d name leaf) := by
  have free : before.entry d name = none := by
    rcases overlaid.entry d name with same | ⟨i, k, -, leads, -⟩
    · rw [← same, absent]
    · rw [absent] at leads
      exact absurd leads (by simp)
  exact overlaid.fill directory rfl (fun _ => rfl) (fun _ _ _ => rfl) (Or.inr ⟨free, slot⟩)

/-- An entry on a path leads where it did, or to a file that was restored there. -/
theorem entry_or_restored (overlaid : Overlaid restored applet before after)
    (files : ∀ e n k, restored e n k → ∃ executable text, k = .file executable text)
    {d i : ℕ} {name : Name} (leads : before.entry d name = some i) :
    after.entry d name = some i ∧ after.target i = before.target i ∨
      ∃ i' k, restored d name k ∧ after.entry d name = some i' ∧ after.target i' = none ∧
        after.isDirectory i' = false := by
  rcases overlaid.entry d name with same | ⟨i', k, -, leadsNow, known, slot | ⟨absent, -⟩⟩
  · refine Or.inl ⟨same.trans leads, ?_⟩
    rw [target, target, overlaid.kind i (lt_size_of_entry leads)]
  · obtain ⟨executable, text, rfl⟩ := files d name k slot
    exact Or.inr ⟨i', _, slot, leadsNow, by simp [target, known],
      by simp [FileSystem.isDirectory, known]⟩
  · rw [leads] at absent
    exact absurd absent (by simp)

/-- A path that led somewhere still does: to the same inode, or from a file to a
restored file. -/
theorem walk_found (overlaid : Overlaid restored applet before after)
    (files : ∀ e n k, restored e n k → ∃ executable text, k = .file executable text)
    (slots : ∀ e n k, restored e n k → ∀ links ≤ maxLinks, ∀ j,
      before.walk links e [n] = .found j → before.isDirectory j = false)
    {links d : ℕ} (bound : links ≤ maxLinks) {names : List Name} {j : ℕ}
    (found : before.walk links d names = .found j) :
    ∃ j', after.walk links d names = .found j' ∧
      (j' = j ∨ before.isDirectory j = false ∧ after.isDirectory j' = false) := by
  -- A path through a restored file ended there.
  have ends {links d i' : ℕ} {name : Name} {rest : List Name} {k : Kind}
      (bound : links ≤ maxLinks) (found : before.walk links d (name :: rest) = .found j)
      (slot : restored d name k) (leadsNow : after.entry d name = some i')
      (notLink : after.target i' = none) (file : after.isDirectory i' = false) :
      ∃ j', after.walk links d (name :: rest) = .found j' ∧
        (j' = j ∨ before.isDirectory j = false ∧ after.isDirectory j' = false) := by
    rw [walk_of_entry leadsNow notLink]
    cases rest with
    | nil => exact ⟨i', walk_nil .., Or.inr ⟨slots d name k slot links bound j found, file⟩⟩
    | cons next rest =>
      -- With more names behind it, the path would have gone through a file.
      have through : before.walk links d ([name] ++ next :: rest) = .found j := found
      obtain ⟨m, left, front, back⟩ := walk_append_found through
      rw [walk_of_not_directory (slots d name k slot links bound m front)] at back
      exact absurd back (by simp)
  induction found using walk_found_induction with
  | here _ => exact ⟨j, walk_nil .., Or.inl rfl⟩
  | onward leads notLink further ih =>
    rcases overlaid.entry_or_restored files leads with ⟨same, sameTarget⟩ |
      ⟨i', k, slot, leadsNow, plain, file⟩
    · rw [walk_of_entry same (sameTarget.trans notLink)]
      exact ih bound
    · exact ends bound ((walk_of_entry leads notLink).trans further) slot leadsNow plain file
  | follow leads link further ih =>
    rcases overlaid.entry_or_restored files leads with ⟨same, sameTarget⟩ |
      ⟨i', k, slot, leadsNow, plain, file⟩
    · rw [walk_of_link same (sameTarget.trans link)]
      exact ih (Nat.le_of_succ_le bound)
    · exact ends bound ((walk_of_link leads link).trans further) slot leadsNow plain file

end Overlaid

/-! ## The tree after an update -/

/-- A staged file of the list, in its place in the new tree. -/
def Restored (system : Str) (area : Str → Option Leaf) (place : Str → ℕ) (e : ℕ) (n : Name)
    (k : Kind) : Prop :=
  ∃ item ∈ fileList, ∃ leaf, area (item.file system) = some leaf ∧
    e = place item.directory ∧ n = item.name ∧ k = leaf.kind

/-- An applet of a staged busybox, as a link or a script next to it. -/
def AppletOf (system : Str) (area : Str → Option Leaf) (place : Str → ℕ)
    (applets : Str → List Name) (e : ℕ) (n : Name) (k : Kind) : Prop :=
  ∃ item ∈ fileList, item.name = busybox ∧ (∃ leaf, area (item.file system) = some leaf) ∧
    e = place item.directory ∧ n ∈ applets item.directory ∧
      (k = .symlink (inDirectory (item.dir system)) ∨ k = .file true (wrapper (item.dir system)))

/-- What an update has to leave in place. The directories of staged files are
there and distinct, and no path to a staged file leads to a directory. An applet
of a staged busybox is one word without pattern characters, and what has its name
in the new tree is a file that can be found. -/
structure Update (system : Str) (cwd : ℕ) (area : Str → Option Leaf) (listing : Str → Str)
    (place : Str → ℕ) (applets : Str → List Name) (new : FileSystem) : Prop where
  absolute : system.head? = some '/'
  placed : ∀ item ∈ fileList, area (item.file system) ≠ none →
    new.lookup cwd (item.dir system) = .found (place item.directory) ∧
      new.isDirectory (place item.directory) = true
  distinct : ∀ item ∈ fileList, ∀ other ∈ fileList, area (item.file system) ≠ none →
    area (other.file system) ≠ none → place item.directory = place other.directory →
      item.directory = other.directory
  slots : ∀ item ∈ fileList, area (item.file system) ≠ none → ∀ j,
    new.lookup (place item.directory) item.name.1 = .found j → new.isDirectory j = false
  listed : ∀ item ∈ fileList, item.name = busybox → area (item.file system) ≠ none →
    listing (item.file system) = output ((applets item.directory).map Name.word)
  words : ∀ item ∈ fileList, item.name = busybox → area (item.file system) ≠ none →
    ∀ applet ∈ applets item.directory, Unsplit applet.1 ∧ Literal applet.1
  sound : ∀ item ∈ fileList, item.name = busybox → area (item.file system) ≠ none →
    ∀ applet ∈ applets item.directory, ∀ i, new.entry (place item.directory) applet = some i →
      ∃ j, new.lookup cwd (item.dir system ++ '/' :: applet.1) = .found j ∧
        new.isDirectory j = false

private theorem entry_head {dir : Str} (absolute : dir.head? = some '/') (name : Name) :
    (dir ++ '/' :: name.1).head? = some '/' := by
  rw [List.head?_append, absolute]
  rfl

section Run

variable {system : Str} {cwd : ℕ} {area : Str → Option Leaf} {listing : Str → Str}
  {works : Str → ℕ → Bool} {place : Str → ℕ} {applets : Str → List Name} {new : FileSystem}
  (update : Update system cwd area listing place applets new)
  (files : ∀ item ∈ fileList, ∀ leaf, area (item.file system) = some leaf →
    ∃ executable text, leaf = .file executable text)

include update files

/-- A path keeps leading to a file or to the same directory. -/
theorem lookup_overlaid {current : FileSystem}
    (overlaid : Overlaid (Restored system area place) (AppletOf system area place applets) new
      current) {path : Str} {d j : ℕ} (found : new.lookup d path = .found j) :
    ∃ j', current.lookup d path = .found j' ∧
      (j' = j ∨ new.isDirectory j = false ∧ current.isDirectory j' = false) := by
  rw [lookup] at found ⊢
  split at found
  · exact absurd found (by simp)
  · rename_i nonempty
    rw [if_neg nonempty]
    refine overlaid.walk_found ?_ ?_ (Nat.le_refl _) found
    · rintro e n k ⟨item, member, leaf, staged, -, -, rfl⟩
      obtain ⟨executable, text, rfl⟩ := files item member leaf staged
      exact ⟨executable, text, rfl⟩
    · rintro e n k ⟨item, member, leaf, staged, rfl, rfl, -⟩ links bound m reached
      refine update.slots item member (by simp [staged]) m ?_
      rw [lookup_name]
      rcases walk_links reached maxLinks with same | ⟨-, less⟩
      · exact same
      · exact absurd bound (Nat.not_le_of_lt less)

/-- The directory of a staged file is found in every state of the restore. -/
theorem lookup_dir {current : FileSystem}
    (overlaid : Overlaid (Restored system area place) (AppletOf system area place applets) new
      current) {item : Item} (member : item ∈ fileList) {leaf : Leaf}
    (staged : area (item.file system) = some leaf) :
    current.lookup cwd (item.dir system) = .found (place item.directory) ∧
      current.isDirectory (place item.directory) = true := by
  obtain ⟨found, directory⟩ := update.placed item member (by simp [staged])
  obtain ⟨j, foundNow, rfl | ⟨file, -⟩⟩ := lookup_overlaid update files overlaid found
  · exact ⟨foundNow, overlaid.isDirectory directory⟩
  · rw [directory] at file
    exact absurd file (by simp)

omit files in
theorem Update.dir_absolute (item : Item) : (item.dir system).head? = some '/' := by
  rw [Item.dir, List.head?_append, update.absolute]
  rfl

omit files in
/-- The links and scripts name the busybox by a path that leads to it. -/
theorem walk_inDirectory {current : FileSystem} {item : Item} {d bb : ℕ}
    (visited : current.lookup cwd (item.dir system) = .found d)
    (binary : current.entry d busybox = some bb) (notLink : current.target bb = none) :
    current.walk maxLinks (start d (inDirectory (item.dir system)))
      (components (inDirectory (item.dir system))) = .found bb := by
  have found := lookup_slash_entry visited binary notLink
  have rooted : (inDirectory (item.dir system)).head? = some '/' :=
    entry_head (update.dir_absolute item) busybox
  rw [← inDirectory, current.lookup_absolute rooted cwd d, lookup,
    if_neg (by simp [inDirectory])] at found
  exact found

/-- A name the update shipped for an applet leads to a file all along. -/
theorem shipped_file {current : FileSystem}
    (overlaid : Overlaid (Restored system area place) (AppletOf system area place applets) new
      current) {item : Item} (member : item ∈ fileList) (isBusybox : item.name = busybox)
    (staged : area (item.file system) ≠ none) {applet : Name}
    (isApplet : applet ∈ applets item.directory) {i : ℕ}
    (shipped : new.entry (place item.directory) applet = some i) :
    ∃ j, current.lookup cwd (item.dir system ++ '/' :: applet.1) = .found j ∧
      current.isDirectory j = false := by
  obtain ⟨j, found, file⟩ := update.sound item member isBusybox staged applet isApplet i shipped
  obtain ⟨j', foundNow, rfl | ⟨-, file'⟩⟩ := lookup_overlaid update files overlaid found
  · refine ⟨j', foundNow, ?_⟩
    have rooted := entry_head (update.dir_absolute item) applet
    rw [new.lookup_absolute rooted cwd (place item.directory)] at found
    have old := lookup_found_lt (lt_size_of_isDirectory
      (update.placed item member staged).2) found
    rw [FileSystem.isDirectory, overlaid.kind j' old]
    exact file
  · exact ⟨j', foundNow, file'⟩

/-- An applet's name that is taken leads to a file, or there are too many links on
the way. -/
theorem applet_settled {current : FileSystem}
    (overlaid : Overlaid (Restored system area place) (AppletOf system area place applets) new
      current) {item : Item} (member : item ∈ fileList) (isBusybox : item.name = busybox)
    (staged : area (item.file system) ≠ none) {bb : ℕ}
    (reaches : current.walk maxLinks (start (place item.directory)
      (inDirectory (item.dir system))) (components (inDirectory (item.dir system))) = .found bb)
    (program : current.isDirectory bb = false) {applet : Name} {links : ℕ}
    (isApplet : applet ∈ applets item.directory)
    (operand : Operand current cwd (item.dir system ++ '/' :: applet.1) (place item.directory)
      links applet) {i : ℕ} (taken : current.entry (place item.directory) applet = some i) :
    (∃ j, current.walk links (place item.directory) [applet] = .found j ∧
        current.isDirectory j = false) ∨
      current.walk links (place item.directory) [applet] = .failed := by
  have plain {executable : Bool} {text : Str}
      (file : current.kind i = some (.file executable text)) :
      current.walk links (place item.directory) [applet] = .found i ∧
        current.isDirectory i = false := by
    rw [walk_of_entry taken (by simp [target, file]), walk_nil]
    exact ⟨rfl, by simp [FileSystem.isDirectory, file]⟩
  -- The entry is the update's, a staged file, or an applet of an earlier round.
  rcases overlaid.entry (place item.directory) applet with same | ⟨j, k, -, leads, known, origin⟩
  · obtain ⟨j, found, file⟩ := shipped_file update files overlaid member isBusybox staged isApplet
      (same ▸ taken)
    rw [operand.lookup current (Extends.refl current)] at found
    exact Or.inl ⟨j, found, file⟩
  · obtain rfl : i = j := Option.some.inj (taken.symm.trans leads)
    rcases origin with ⟨other, isItem, leaf, stagedOther, -, -, rfl⟩ | ⟨-, other, isItem, -,
      ⟨leaf, stagedOther⟩, samePlace, -, rfl | rfl⟩
    · obtain ⟨executable, text, rfl⟩ := files other isItem leaf stagedOther
      exact Or.inl ⟨i, plain known⟩
    · have sameDirectory := update.distinct item member other isItem staged
        (by simp [stagedOther]) samePlace
      have sameDir : other.dir system = item.dir system := by
        rw [Item.dir, Item.dir, sameDirectory]
      rw [sameDir] at known
      cases links with
      | zero => exact Or.inr (walk_zero_of_link taken (target_eq_some_iff.mpr known))
      | succ links =>
        rw [walk_of_link taken (target_eq_some_iff.mpr known), List.append_nil]
        exact (walk_links reaches links).imp (fun found => ⟨bb, found, program⟩) And.left
    · exact Or.inl ⟨i, plain known⟩

/-- One applet: nothing is lost, and the applet is there. -/
theorem restoreApplet_step {copied current : FileSystem}
    (overlaid : Overlaid (Restored system area place) (AppletOf system area place applets) new
      current) (grows : Extends copied current) {item : Item} (member : item ∈ fileList)
    (isBusybox : item.name = busybox) {leaf : Leaf}
    (staged : area (item.file system) = some leaf) {bb : ℕ}
    (binary : copied.entry (place item.directory) busybox = some bb)
    (program : copied.kind bb = some leaf.kind) {applet : Name}
    (isApplet : applet ∈ applets item.directory) (works : Bool) :
    Overlaid (Restored system area place) (AppletOf system area place applets) new
        (outcome (restoreApplet (item.dir system) cwd current (applet.1, works))) ∧
      Extends current (outcome (restoreApplet (item.dir system) cwd current (applet.1, works))) ∧
      ∃ i, (outcome (restoreApplet (item.dir system) cwd current (applet.1, works))).entry
        (place item.directory) applet = some i := by
  obtain ⟨visited, directory⟩ := lookup_dir update files overlaid member staged
  obtain ⟨links, operands⟩ := Operand.ofPath (update.dir_absolute item) visited
  have operand := operands applet
  obtain ⟨executable, text, rfl⟩ := files item member _ staged
  have programNow : current.kind bb = some (.file executable text) := grows.kind _ _ program
  have reaches := walk_inDirectory update visited (grows.entry _ _ _ binary)
    (by simp [target, programNow])
  cases now : current.entry (place item.directory) applet with
  | none =>
    have missing : current.walk links (place item.directory) [applet] =
        .missing (place item.directory) applet := by
      rw [walk_of_entry_none directory now, if_pos rfl]
    obtain ⟨made, result, form⟩ := installApplet_missing _ (wrapper (item.dir system)) operand
      works reaches missing
    have same : outcome (restoreApplet (item.dir system) cwd current (applet.1, works)) =
        current.create (place item.directory) applet made := result
    have isForm : AppletOf system area place applets (place item.directory) applet made.kind := by
      refine ⟨item, member, isBusybox, ⟨_, staged⟩, rfl, isApplet, ?_⟩
      rcases form with rfl | ⟨rfl, -⟩
      · exact Or.inr rfl
      · exact Or.inl rfl
    rw [same]
    refine ⟨overlaid.create directory now isForm, extends_create directory now made,
      current.size, ?_⟩
    rw [entry_create directory, if_pos ⟨rfl, rfl⟩]
  | some i =>
    have settled := applet_settled update files overlaid member isBusybox (by simp [staged])
      reaches (by simp [FileSystem.isDirectory, programNow]) isApplet operand now
    have unchanged : outcome (restoreApplet (item.dir system) cwd current (applet.1, works)) =
        current :=
      installApplet_settled (inDirectory (item.dir system)) (wrapper (item.dir system)) operand
        works directory settled
    rw [unchanged]
    exact ⟨overlaid, Extends.refl current, i, now⟩

/-- The applet loop of a restored busybox. -/
theorem restoreLoop_overlaid {copied : FileSystem}
    (overlaid : Overlaid (Restored system area place) (AppletOf system area place applets) new
      copied) {item : Item} (member : item ∈ fileList) (isBusybox : item.name = busybox)
    {leaf : Leaf} (staged : area (item.file system) = some leaf) {bb : ℕ}
    (binary : copied.entry (place item.directory) busybox = some bb)
    (program : copied.kind bb = some leaf.kind) {rounds : List (Str × Bool)}
    (words : rounds.map Prod.fst = (applets item.directory).map Name.word) :
    ∃ after, restoreLoop (item.dir system) cwd copied rounds = .ok after ∧
      Overlaid (Restored system area place) (AppletOf system area place applets) new after ∧
      Extends copied after ∧
      ∀ applet ∈ applets item.directory, ∃ i,
        after.entry (place item.directory) applet = some i := by
  have isApplet {round : Str × Bool} (inside : round ∈ rounds) :
      ∃ applet ∈ applets item.directory, ∃ works, (applet.1, works) = round := by
    have word : round.1 ∈ (applets item.directory).map Name.word :=
      words ▸ List.mem_map_of_mem inside
    obtain ⟨applet, listed, named⟩ := List.mem_map.mp word
    exact ⟨applet, listed, round.2, Prod.ext named rfl⟩
  -- Any part of the rounds, from any state of the loop.
  have part {current : FileSystem}
      (overlaid : Overlaid (Restored system area place) (AppletOf system area place applets) new
        current) (grows : Extends copied current) (some_ : List (Str × Bool))
      (sub : ∀ round ∈ some_, round ∈ rounds) :
      ∃ after, restoreLoop (item.dir system) cwd current some_ = .ok after ∧
        Overlaid (Restored system area place) (AppletOf system area place applets) new after ∧
        Extends current after := by
    refine appletLoop_ok (fun state => Overlaid (Restored system area place)
      (AppletOf system area place applets) new state ∧ Extends current state)
      (fun state reached round inside _ => ?_) ⟨overlaid, Extends.refl current⟩
    obtain ⟨applet, listed, works, rfl⟩ := isApplet (sub round inside)
    obtain ⟨next, more, -⟩ := restoreApplet_step update files reached.1
      (grows.trans reached.2) member isBusybox staged binary program listed works
    exact ⟨_, rfl, next, reached.2.trans more⟩
  obtain ⟨after, ends, finally_, grows⟩ := part overlaid (Extends.refl copied) rounds
    fun _ inside => inside
  refine ⟨after, ends, finally_, grows, fun applet listed => ?_⟩
  have word : applet.1 ∈ rounds.map Prod.fst := words ▸ List.mem_map_of_mem listed
  obtain ⟨⟨_, works⟩, inside, rfl⟩ := List.mem_map.mp word
  obtain ⟨first, rest, rfl⟩ := List.append_of_mem inside
  obtain ⟨before, next, reached, result, ends⟩ := appletLoop_through rfl ends
  obtain ⟨_, firstEnds, firstOverlaid, firstGrows⟩ := part overlaid (Extends.refl copied) first
    fun _ inside => List.mem_append_left _ inside
  obtain rfl := Except.ok.inj (firstEnds.symm.trans reached)
  obtain ⟨more, adds, i, present⟩ := restoreApplet_step update files firstOverlaid firstGrows
    member isBusybox staged binary program listed works
  rw [result] at more adds present
  obtain ⟨_, restEnds, -, restGrows⟩ := part more (firstGrows.trans adds) rest
    fun _ inside => List.mem_append_right _ (List.mem_cons_of_mem _ inside)
  obtain rfl := Except.ok.inj (restEnds.symm.trans ends)
  exact ⟨i, restGrows.entry _ _ _ present⟩

omit files in
theorem roundsFor_words (works : Str → ℕ → Bool) (fs : FileSystem) {item : Item}
    (member : item ∈ fileList) (isBusybox : item.name = busybox)
    (staged : area (item.file system) ≠ none) :
    (roundsFor listing works cwd (item.file system) fs).map Prod.fst =
      (applets item.directory).map Name.word := by
  rw [roundsFor, List.map_map, update.listed item member isBusybox staged,
    appletWords_eq _ _ (update.words item member isBusybox staged)]
  exact List.zipIdx_map_fst _ _

omit update files in
/-- A restored file is a new inode under its name; all else stays. -/
theorem restoreFile_spec {fs : FileSystem} {dir : Str} {d : ℕ} (name : Name) (leaf : Leaf)
    (visited : fs.lookup cwd dir = .found d) (directory : fs.isDirectory d = true) :
    restoreFile cwd dir name leaf fs = (if fs.entry d name = none then fs.create d name leaf
        else (fs.unlink d name).create d name leaf) ∧
      (∀ e n, (restoreFile cwd dir name leaf fs).entry e n =
        if e = d ∧ n = name then some fs.size else fs.entry e n) ∧
      ∀ i, (restoreFile cwd dir name leaf fs).kind i =
        if i = fs.size then some leaf.kind else fs.kind i := by
  have same : restoreFile cwd dir name leaf fs =
      if fs.entry d name = none then fs.create d name leaf
      else (fs.unlink d name).create d name leaf := by
    simp [restoreFile, visited, directory]
  have unlinked : (fs.unlink d name).isDirectory d = true := by
    rw [isDirectory, kind_unlink]
    exact directory
  refine ⟨same, fun e n => ?_, fun i => ?_⟩
  · rw [same]
    split
    · rw [entry_create directory]
    · rw [entry_create unlinked, size_unlink, entry_unlink]
      split <;> rfl
  · rw [same]
    split
    · rw [kind_create]
    · rw [kind_create, size_unlink, kind_unlink]

/-- What the restore has done when the given items are through. -/
structure Progress (system : Str) (area : Str → Option Leaf) (place : Str → ℕ)
    (applets : Str → List Name) (new current : FileSystem) (items : List Item) : Prop where
  overlaid : Overlaid (Restored system area place) (AppletOf system area place applets) new
    current
  file : ∀ item ∈ items, ∀ leaf, area (item.file system) = some leaf → ∃ i,
    current.entry (place item.directory) item.name = some i ∧
      current.kind i = some leaf.kind
  applet : ∀ item ∈ items, item.name = busybox → area (item.file system) ≠ none →
    ∀ applet ∈ applets item.directory, ∃ i,
      current.entry (place item.directory) applet = some i

omit update files in
/-- An item that was not staged is passed over. -/
theorem Progress.skip {current : FileSystem} {items : List Item}
    (progress : Progress system area place applets new current items) {item : Item}
    (none : area (item.file system) = none) :
    Progress system area place applets new current (item :: items) := by
  refine ⟨progress.overlaid, fun other inside leaf staged => ?_,
    fun other inside isBusybox staged => ?_⟩
  · rcases List.mem_cons.mp inside with rfl | inside
    · rw [none] at staged
      exact absurd staged (by simp)
    · exact progress.file other inside leaf staged
  · rcases List.mem_cons.mp inside with rfl | inside
    · exact absurd none staged
    · exact progress.applet other inside isBusybox staged

omit files in
/-- A restored item keeps the earlier ones, in the copy and in everything the applet
loop adds to it. -/
theorem Progress.next {current copied after : FileSystem} {items : List Item}
    (progress : Progress system area place applets new current items) {item : Item}
    (member : item ∈ fileList) (sub : ∀ other ∈ items, other ∈ fileList) (fresh : item ∉ items)
    {leaf : Leaf} (staged : area (item.file system) = some leaf)
    (entry : ∀ e n, copied.entry e n =
      if e = place item.directory ∧ n = item.name then some current.size else current.entry e n)
    (kind : ∀ i, copied.kind i = if i = current.size then some leaf.kind else current.kind i)
    (overlaid : Overlaid (Restored system area place) (AppletOf system area place applets) new
      after) (grows : Extends copied after)
    (present : item.name = busybox → ∀ applet ∈ applets item.directory, ∃ i,
      after.entry (place item.directory) applet = some i) :
    Progress system area place applets new after (item :: items) := by
  refine ⟨overlaid, fun other inside otherLeaf otherStaged => ?_,
    fun other inside isBusybox otherStaged applet listed => ?_⟩
  · rcases List.mem_cons.mp inside with rfl | inside
    · rw [staged] at otherStaged
      obtain rfl := Option.some.inj otherStaged
      refine ⟨current.size, grows.entry _ _ _ ?_, grows.kind _ _ ?_⟩
      · rw [entry, if_pos ⟨rfl, rfl⟩]
      · rw [kind, if_pos rfl]
    · obtain ⟨i, leads, known⟩ := progress.file other inside otherLeaf otherStaged
      refine ⟨i, grows.entry _ _ _ ?_, grows.kind _ _ ?_⟩
      · rw [entry, if_neg, leads]
        rintro ⟨samePlace, sameName⟩
        -- Two items in one place under one name are the same item.
        have sameDirectory := update.distinct other (sub other inside) item member
          (by simp [otherStaged]) (by simp [staged]) samePlace
        obtain ⟨otherDirectory, otherName⟩ := other
        obtain rfl : otherDirectory = item.directory := sameDirectory
        obtain rfl : otherName = item.name := sameName
        exact fresh inside
      · rw [kind, if_neg (Nat.ne_of_lt (lt_size_of_entry leads)), known]
  · rcases List.mem_cons.mp inside with rfl | inside
    · exact present isBusybox applet listed
    · obtain ⟨i, leads⟩ := progress.applet other inside isBusybox otherStaged applet listed
      by_cases here : place other.directory = place item.directory ∧ applet = item.name
      · exact ⟨_, grows.entry _ _ _ (by rw [entry, if_pos here])⟩
      · exact ⟨i, grows.entry _ _ _ (by rw [entry, if_neg here, leads])⟩

/-- One item. -/
theorem restoreItem_progress (works : Str → ℕ → Bool) {current : FileSystem} {items : List Item}
    (progress : Progress system area place applets new current items) {item : Item}
    (member : item ∈ fileList) (sub : ∀ other ∈ items, other ∈ fileList) (fresh : item ∉ items) :
    Progress system area place applets new
      (restoreItem listing works system cwd area current item) (item :: items) := by
  rw [restoreItem]
  split
  · rename_i none
    exact progress.skip none
  · rename_i leaf staged
    -- Whatever was restored so far, the path leads to the same directory.
    obtain ⟨visited, directory⟩ := lookup_dir update files progress.overlaid member staged
    obtain ⟨same, entry, kind⟩ := restoreFile_spec item.name leaf visited directory
    have overlaid : Overlaid (Restored system area place) (AppletOf system area place applets) new
        (restoreFile cwd (item.dir system) item.name leaf current) := by
      rw [same]
      exact progress.overlaid.replace directory ⟨item, member, leaf, staged, rfl, rfl, rfl⟩
    generalize restoreFile cwd (item.dir system) item.name leaf current = copied at *
    dsimp only
    split
    · rename_i isBusybox
      -- The busybox that was just restored lists its applets, and they are set up next to it.
      have binary : copied.entry (place item.directory) busybox = some current.size := by
        rw [entry, if_pos ⟨rfl, isBusybox.symm⟩]
      have program : copied.kind current.size = some leaf.kind := by
        rw [kind, if_pos rfl]
      obtain ⟨after, ends, finally_, grows, present⟩ := restoreLoop_overlaid update files overlaid
        member isBusybox staged binary program
        (roundsFor_words update works copied member isBusybox (by simp [staged]))
      rw [ends]
      exact progress.next update member sub fresh staged entry kind finally_ grows
        fun _ => present
    · rename_i notBusybox
      exact progress.next update member sub fresh staged entry kind overlaid
        (Extends.refl copied) fun isBusybox => absurd isBusybox notBusybox

/-- The whole list. -/
theorem restore_progress (works : Str → ℕ → Bool) :
    Progress system area place applets new (restore listing works system cwd area new)
      fileList := by
  have run (left done : List Item) {current : FileSystem}
      (progress : Progress system area place applets new current done)
      (sub : ∀ item ∈ left ++ done, item ∈ fileList) (nodup : (left ++ done).Nodup) :
      ∃ items, (∀ item, item ∈ items ↔ item ∈ left ++ done) ∧
        Progress system area place applets new
          (left.foldl (restoreItem listing works system cwd area) current) items := by
    induction left generalizing current done with
    | nil => exact ⟨done, fun _ => Iff.rfl, progress⟩
    | cons item left ih =>
      -- The item moves from the list to those that are done.
      have perm : (left ++ item :: done).Perm (item :: left ++ done) := List.perm_middle
      have next := restoreItem_progress update files works progress (sub item (by simp))
        (fun other inside => sub other (by simp [inside]))
        (fun inside => (List.nodup_cons.mp nodup).1 (List.mem_append_right _ inside))
      obtain ⟨items, same, finally_⟩ := ih (item :: done) next
        (fun other inside => sub other (perm.mem_iff.mp inside)) (perm.nodup_iff.mpr nodup)
      exact ⟨items, fun other => (same other).trans perm.mem_iff, finally_⟩
  have start : Progress system area place applets new new [] :=
    ⟨Overlaid.refl new, by simp, by simp⟩
  obtain ⟨items, same, finally_⟩ := run fileList [] start (by simp) (by decide)
  have all (item : Item) (member : item ∈ fileList) : item ∈ items :=
    (same item).mpr (List.mem_append_left _ member)
  exact ⟨finally_.overlaid, fun item member => finally_.file item (all item member),
    fun item member => finally_.applet item (all item member)⟩

end Run

/-- A tree with a busybox in `/system/bin`. -/
def shipped : FileSystem where
  nodes := [
    .directory true (entriesOf [(Name.named "system", 1)]),
    .directory true (entriesOf [(Name.named "bin", 2)]),
    .directory true (entriesOf [(busybox, 3)]),
    .leaf (.file true "BB".toList)]
  linked := by decide

/-- The same tree after an update, with a command of its own. -/
def updated : FileSystem where
  nodes := [
    .directory true (entriesOf [(Name.named "system", 1)]),
    .directory true (entriesOf [(Name.named "bin", 2)]),
    .directory true (entriesOf [(Name.named "ls", 3)]),
    .leaf (.file true "toybox".toList)]
  linked := by decide

def twoApplets : List Name := [Name.named "ls", Name.named "vi"]

theorem update_updated : Update "/system".toList root (backup "/system".toList root shipped)
    (fun _ => output (twoApplets.map Name.word)) (fun _ => 2) (fun _ => twoApplets) updated := by
  have only : ∀ item ∈ fileList, backup "/system".toList root shipped
      (item.file "/system".toList) ≠ none → item = ⟨"bin".toList, busybox⟩ := by
    decide +kernel
  exact {
    absolute := by decide
    placed := by
      intro item member staged
      rw [only item member staged]
      decide +kernel
    distinct := by
      intro item member other memberOther staged stagedOther _
      rw [only item member staged, only other memberOther stagedOther]
    slots := by
      intro item member staged j found
      rw [only item member staged] at found
      have missing : updated.lookup 2 busybox.1 = .missing 2 busybox := by decide +kernel
      rw [missing] at found
      exact absurd found (by simp)
    listed := fun _ _ _ _ => rfl
    words := by decide
    sound := by
      intro item member _ staged applet listed i leads
      rw [only item member staged]
      -- One applet is free, and the other one is a command of the new tree.
      have files : ∀ applet ∈ twoApplets, updated.entry 2 applet = none ∨
          updated.lookup root (Item.dir "/system".toList ⟨"bin".toList, busybox⟩ ++
            '/' :: applet.1) = .found 3 := by decide +kernel
      rcases files applet listed with absent | found
      · rw [absent] at leads
        exact absurd leads (by simp)
      · exact ⟨3, found, by decide +kernel⟩ }

end BbBot.Ota
