/-
# Blacklisted applets

Which of the three applet loops can create an entry that the blacklist names?

A loop creates the entry an applet's name leads to when that entry is free. For
an ordinary free name this is the name itself; for a dangling link it is the
name the link ends at, which the blacklist check of `base_installer.sh` does not
look at. The other two loops make no check at all. Where the names lead is
settled before the loop starts: the entries it adds are files and links to the
busybox, so they never open a way to another free name.
-/

import BbBot.Applets.Inverse

namespace BbBot.Applets

open BbBot.Unix BbBot.Unix.FileSystem BbBot.Cleaning

/-! ## Entries that lead no further -/

/-- Entries were added, each of them a file or a link to the busybox of `d`. Links
outside of `d` are called busybox themselves. -/
structure Grown (target : Str) (d : ℕ) (before after : FileSystem) : Prop where
  extends_ : Extends before after
  flat : ∀ i, before.size ≤ i → after.isDirectory i = false
  added : ∀ p n i, before.entry p n = none → after.entry p n = some i →
    (∃ executable text, after.kind i = some (.file executable text)) ∨
      after.kind i = some (.symlink target) ∧ (p = d ∨ n = busybox)

/-- The text of the links leads from `d` to a busybox that is no directory, and is
either relative or absolute as the scripts write it. -/
structure Anchored (target : Str) (d : ℕ) (fs : FileSystem) : Prop where
  present : ∃ i, fs.entry d busybox = some i
  reaches : ∃ bb, fs.walk maxLinks (start d target) (components target) = .found bb ∧
    fs.isDirectory bb = false
  form : target = busybox.1 ∨ target.head? = some '/'

/-- The busybox under its name. -/
theorem Anchored.ofName {fs : FileSystem} {d bb : ℕ}
    (byName : fs.lookup d busybox.1 = .found bb) (program : fs.isDirectory bb = false) :
    Anchored busybox.1 d fs := by
  rw [lookup_name] at byName
  obtain ⟨i, leads, -⟩ := walk_cons_found byName
  refine ⟨⟨i, leads⟩, ⟨bb, ?_, program⟩, Or.inl rfl⟩
  rwa [start_name, components_name]

/-- The busybox under its absolute path. -/
theorem Anchored.ofPath {fs : FileSystem} {d bb cwd : ℕ} {dir : Str}
    (absolute : dir.head? = some '/') (byName : fs.lookup d busybox.1 = .found bb)
    (byPath : fs.lookup cwd (inDirectory dir) = .found bb) (program : fs.isDirectory bb = false) :
    Anchored (inDirectory dir) d fs := by
  have absoluteTarget : (inDirectory dir).head? = some '/' := by
    rw [inDirectory, List.head?_append, absolute]
    rfl
  refine ⟨(Anchored.ofName byName program).present, ⟨bb, ?_, program⟩, Or.inr absoluteTarget⟩
  rw [fs.lookup_absolute absoluteTarget cwd d, FileSystem.lookup, if_neg] at byPath
  · exact byPath
  · simp [inDirectory]

namespace Grown

variable {target : Str} {d : ℕ} {before after : FileSystem}

theorem refl (fs : FileSystem) : Grown target d fs fs := by
  refine ⟨Extends.refl fs, fun i beyond => ?_, fun p n i absent leads => ?_⟩
  · simp [isDirectory, kind_eq_none beyond]
  · rw [absent] at leads
    exact absurd leads (by simp)

/-- One more file or link. -/
theorem create (grown : Grown target d before after) {p : ℕ} {n : Name} {leaf : Leaf}
    (directory : after.isDirectory p = true) (absent : after.entry p n = none)
    (form : (∃ executable text, leaf = .file executable text) ∨
      leaf = .symlink target ∧ (p = d ∨ n = busybox)) :
    Grown target d before (after.create p n leaf) := by
  refine ⟨grown.extends_.trans (extends_create directory absent leaf), fun i beyond => ?_,
    fun q m i free leads => ?_⟩
  · by_cases last : i = after.size
    · rw [isDirectory, kind_create, if_pos last]
      rcases form with ⟨executable, text, rfl⟩ | ⟨rfl, -⟩ <;> rfl
    · rw [isDirectory, kind_create, if_neg last]
      exact grown.flat i beyond
  · rw [entry_create directory] at leads
    split at leads
    · rename_i same
      obtain ⟨rfl, rfl⟩ := same
      obtain rfl := Option.some.inj leads
      rw [kind_create, if_pos rfl]
      rcases form with ⟨executable, text, rfl⟩ | ⟨rfl, where_⟩
      · exact Or.inl ⟨executable, text, rfl⟩
      · exact Or.inr ⟨rfl, where_⟩
    · rw [kind_create_of_lt (lt_size_of_entry leads)]
      exact grown.added q m i free leads

variable (grown : Grown target d before after) (anchored : Anchored target d before)

include grown

/-- An entry was there before, or it was added under a free name. -/
theorem entry_or_free {e i : ℕ} {name : Name} (leads : after.entry e name = some i) :
    before.entry e name = some i ∨ before.entry e name = none := by
  cases first : before.entry e name with
  | none => exact Or.inr rfl
  | some k =>
    rw [← leads, grown.extends_.entry _ _ _ first]
    exact Or.inl rfl

include anchored

/-- A walk through an added entry finds a file or fails. -/
theorem walk_added_ne_missing {p : ℕ} {n : Name} {i : ℕ} (free : before.entry p n = none)
    (leads : after.entry p n = some i) (links : ℕ) (rest : List Name) (q : ℕ) (m : Name) :
    after.walk links p (n :: rest) ≠ .missing q m := by
  obtain ⟨bb, reaches, notDirectory⟩ := anchored.reaches
  obtain ⟨i₀, present⟩ := anchored.present
  have reachesNow := grown.extends_.walk_found reaches
  have inside : d < before.size := lt_size_of_isDirectory (isDirectory_of_entry present)
  have binaryNow : after.isDirectory bb = false := by
    rw [grown.extends_.isDirectory_eq (walk_found_lt (start_lt inside target) reaches),
      notDirectory]
  -- The new entry is a file, or a link to the busybox.
  rcases grown.added p n i free leads with ⟨executable, text, file⟩ | ⟨link, where_⟩
  · rw [walk_of_entry leads (by simp [FileSystem.target, file])]
    exact walk_file_ne_missing (by simp [isDirectory, file]) links rest q m
  · induction links with
    | zero =>
      rw [walk_zero_of_link leads (target_eq_some_iff.mpr link)]
      simp
    | succ links ih =>
      rw [walk_of_link leads (target_eq_some_iff.mpr link)]
      have fromHere (same : start p target = start d target) :
          after.walk links (start p target) (components target ++ rest) ≠ .missing q m := by
        rw [same]
        exact walk_found_ne_missing reachesNow binaryNow links rest q m
      rcases where_ with rfl | rfl
      · exact fromHere rfl
      · rcases anchored.form with rfl | absolute
        · -- Outside of `d` the link leads to itself.
          rw [components_name, start_name]
          exact ih
        · exact fromHere (by rw [start, start, if_pos absolute, if_pos absolute])

/-- Where a path leads to a free entry, it did so before the entries were added. -/
theorem walk_missing_before {links e : ℕ} {names : List Name} {q : ℕ} {m : Name}
    (missing : after.walk links e names = .missing q m) :
    before.walk links e names = .missing q m := by
  induction missing using walk_missing_induction with
  | free directory absent =>
    -- The directory in which the walk ends is no new inode.
    have old : q < before.size := by
      by_contra beyond
      rw [grown.flat q (Nat.le_of_not_lt beyond)] at directory
      exact absurd directory (by simp)
    have directoryBefore : before.isDirectory q = true :=
      grown.extends_.isDirectory_eq old ▸ directory
    rw [walk_of_entry_none directoryBefore (grown.extends_.entry_eq_none absent), if_pos rfl]
  | @onward links e name rest j leads notLink further ih =>
    rcases grown.entry_or_free leads with first | free
    · rw [walk_of_entry first (grown.extends_.target_eq (lt_size_of_entry first) ▸ notLink), ih]
    -- The walk would pass through an added entry.
    · exact absurd ((walk_of_entry leads notLink).trans further)
        (grown.walk_added_ne_missing anchored free leads links rest q m)
  | @follow links e name rest j path leads link further ih =>
    rcases grown.entry_or_free leads with first | free
    · rw [walk_of_link first (grown.extends_.target_eq (lt_size_of_entry first) ▸ link), ih]
    · exact absurd ((walk_of_link leads link).trans further)
        (grown.walk_added_ne_missing anchored free leads (links + 1) rest q m)

/-- A walk through an added entry does not find a directory. -/
theorem walk_added_ne_directory {p : ℕ} {n : Name} {i : ℕ} (free : before.entry p n = none)
    (leads : after.entry p n = some i) (links : ℕ) (rest : List Name) {j : ℕ}
    (found : after.walk links p (n :: rest) = .found j) : after.isDirectory j = false := by
  obtain ⟨bb, reaches, notDirectory⟩ := anchored.reaches
  obtain ⟨i₀, present⟩ := anchored.present
  have inside : d < before.size := lt_size_of_isDirectory (isDirectory_of_entry present)
  have binaryNow : after.isDirectory bb = false := by
    rw [grown.extends_.isDirectory_eq (walk_found_lt (start_lt inside target) reaches),
      notDirectory]
  -- A file is the end of any walk.
  have ends {k other : ℕ} (file : after.isDirectory k = false)
      (onwards : after.walk other k rest = .found j) : after.isDirectory j = false := by
    cases rest with
    | nil =>
      rw [walk_nil] at onwards
      rw [← Lookup.found.inj onwards, file]
    | cons next rest =>
      rw [walk_of_not_directory file] at onwards
      exact absurd onwards (by simp)
  rcases grown.added p n i free leads with ⟨executable, text, file⟩ | ⟨link, where_⟩
  · rw [walk_of_entry leads (by simp [FileSystem.target, file])] at found
    exact ends (by simp [isDirectory, file]) found
  · induction links with
    | zero =>
      rw [walk_zero_of_link leads (target_eq_some_iff.mpr link)] at found
      exact absurd found (by simp)
    | succ links ih =>
      rw [walk_of_link leads (target_eq_some_iff.mpr link)] at found
      have fromHere (same : start p target = start d target) : after.isDirectory j = false := by
        rw [same] at found
        obtain ⟨k, links', front, back⟩ := walk_append_found found
        have arrives := grown.extends_.walk_found reaches
        obtain rfl : k = bb := by
          rcases walk_links arrives links with same | ⟨failed, -⟩
          · exact Lookup.found.inj (front.symm.trans same)
          · rw [front] at failed
            exact absurd failed (by simp)
        exact ends binaryNow back
      rcases where_ with rfl | rfl
      · exact fromHere rfl
      · rcases anchored.form with rfl | absolute
        · -- Outside of `d` the link leads to itself.
          rw [components_name, start_name] at found
          exact ih found
        · exact fromHere (by rw [start, start, if_pos absolute, if_pos absolute])

/-- Where a path leads to a directory, it did so before the entries were added. -/
theorem walk_directory_before {links e : ℕ} {names : List Name} {j : ℕ}
    (found : after.walk links e names = .found j) (directory : after.isDirectory j = true) :
    before.walk links e names = .found j := by
  -- Each entry on the way was there before the loop.
  have notAdded {links e k : ℕ} {name : Name} {rest : List Name}
      (found : after.walk links e (name :: rest) = .found j)
      (leads : after.entry e name = some k) : before.entry e name = some k := by
    refine (grown.entry_or_free leads).resolve_right fun free => ?_
    rw [grown.walk_added_ne_directory anchored free leads links rest found] at directory
    exact absurd directory (by simp)
  induction found using walk_found_induction with
  | here _ => exact walk_nil ..
  | onward leads notLink further ih =>
    have first := notAdded ((walk_of_entry leads notLink).trans further) leads
    rw [walk_of_entry first (grown.extends_.target_eq (lt_size_of_entry first) ▸ notLink), ih]
  | follow leads link further ih =>
    have first := notAdded ((walk_of_link leads link).trans further) leads
    rw [walk_of_link first (grown.extends_.target_eq (lt_size_of_entry first) ▸ link), ih]

end Grown

/-! ## One round -/

section Round

variable {target operand : Str} (script : Str) {cwd d links : ℕ} {before current : FileSystem}
  {name : Name} (grown : Grown target d before current) (anchored : Anchored target d before)
  (entry : Operand before cwd operand d links name)

include grown anchored entry

/-- A round adds only the entry that the name led to before the loop, or a link
inside the directory that it led to. -/
theorem installApplet_grown (works : Bool) :
    Grown target d before (outcome (installApplet cwd target script operand current works)) ∧
      Extends current (outcome (installApplet cwd target script operand current works)) ∧
      ∀ e b, (outcome (installApplet cwd target script operand current works)).entry e b =
          current.entry e b ∨ before.walk links d [name] = .missing e b ∨
        works = true ∧ b = busybox ∧ before.walk links d [name] = .found e ∧
          before.isDirectory e = true ∧ before.entry e busybox = none := by
  have entryNow := entry.trans grown.extends_
  obtain ⟨bb, reaches, -⟩ := anchored.reaches
  obtain ⟨i, present⟩ := anchored.present
  have presentNow := grown.extends_.entry _ _ _ present
  by_cases leads : ∃ p n, current.walk links d [name] = .missing p n
  · obtain ⟨p, n, missing⟩ := leads
    obtain ⟨directory, absent⟩ := walk_missing missing
    obtain ⟨leaf, result, form⟩ := installApplet_missing target script entryNow works
      (grown.extends_.walk_found reaches) missing
    rw [result]
    refine ⟨grown.create directory absent ?_, extends_create directory absent leaf, fun e b => ?_⟩
    · rcases form with rfl | ⟨rfl, here, -⟩
      · exact Or.inl ⟨true, script, rfl⟩
      · exact Or.inr ⟨rfl, Or.inl here⟩
    · rw [entry_create directory]
      split_ifs with same
      · obtain ⟨rfl, rfl⟩ := same
        exact Or.inr (Or.inl (grown.walk_missing_before anchored missing))
      · exact Or.inl rfl
  · have other : ∀ p n, current.walk links d [name] ≠ .missing p n :=
      fun p n missing => leads ⟨p, n, missing⟩
    rcases installApplet_other target script entryNow works other
      (isDirectory_of_entry presentNow) with same | ⟨j, linked, found, directory, absent, result⟩
    · rw [same]
      exact ⟨grown, Extends.refl current, fun e b => Or.inl rfl⟩
    · rw [result]
      refine ⟨grown.create directory absent (Or.inr ⟨rfl, Or.inr rfl⟩),
        extends_create directory absent _, fun e b => ?_⟩
      rw [entry_create directory]
      split_ifs with same
      · obtain ⟨rfl, rfl⟩ := same
        -- The link inside of a directory: the name led there before the loop.
        have foundBefore := grown.walk_directory_before anchored found directory
        have old := walk_found_lt (lt_size_of_isDirectory (isDirectory_of_entry present))
          foundBefore
        exact Or.inr (Or.inr ⟨linked, rfl, foundBefore,
          grown.extends_.isDirectory_eq old ▸ directory, grown.extends_.entry_eq_none absent⟩)
      · exact Or.inl rfl

/-- After its round, the entry a name led to before the loop is there. -/
theorem installApplet_creates (works : Bool) {p : ℕ} {b : Name}
    (missing : before.walk links d [name] = .missing p b) :
    ∃ i, (outcome (installApplet cwd target script operand current works)).entry p b =
      some i := by
  obtain ⟨bb, reaches, -⟩ := anchored.reaches
  cases present : current.entry p b with
  | some i =>
    -- Somebody else has filled the entry, and the round keeps it.
    have later := (installApplet_grown script grown anchored entry works).2.1
    exact ⟨i, later.entry _ _ _ present⟩
  | none =>
    obtain ⟨left, reach⟩ := Within.walk_missing missing
    have directory := grown.extends_.isDirectory (walk_missing missing).1
    -- The entry is still free, so the name still leads there.
    have missingNow : current.walk links d [name] = .missing p b := by
      rw [reach current grown.extends_.within, walk_of_entry_none directory present, if_pos rfl]
    obtain ⟨leaf, result, -⟩ := installApplet_missing target script
      (entry.trans grown.extends_) works (grown.extends_.walk_found reaches) missingNow
    exact ⟨current.size, by rw [result, entry_create directory, if_pos ⟨rfl, rfl⟩]⟩

end Round

/-! ## Whole loops -/

/-- No blacklisted name appeared in the directory. -/
def Keeps (blacklist : List Str) (d : ℕ) (before after : FileSystem) : Prop :=
  ∀ b : Name, b.1 ∈ blacklist → before.entry d b = none → after.entry d b = none

/-- None of the applets leads to the free entry of a blacklisted name. -/
def Covered (blacklist : List Str) (d : ℕ) (leads : Name → Lookup) (applets : List Name) : Prop :=
  ∀ applet ∈ applets, ∀ b : Name, leads applet = .missing d b → b.1 ∉ blacklist

section Loop

variable {target script : Str} {cwd d links : ℕ} {operandOf : Str → Str} {fs : FileSystem}
  (skip : Str → Bool) {install : FileSystem → Str × Bool → Except FileSystem FileSystem}
  {applets : List Name} {rounds : List (Str × Bool)}
  (anchored : Anchored target d fs)
  (operands : ∀ applet ∈ applets, Operand fs cwd (operandOf applet.1) d links applet)
  (installs : ∀ current round, outcome (install current round) =
    outcome (installApplet cwd target script (operandOf round.1) current round.2))
  (words : ∀ round ∈ rounds, ∃ applet ∈ applets, applet.1 = round.1)

include anchored operands installs words

/-- What the loop does to any state it can be in. -/
theorem appletLoop_grown {current : FileSystem} (grown : Grown target d fs current) :
    Grown target d fs (outcome (appletLoop skip install current rounds)) ∧
      Extends current (outcome (appletLoop skip install current rounds)) := by
  refine appletLoop_outcome (fun state => Grown target d fs state ∧ Extends current state)
    (fun state reached round member _ => ?_) ⟨grown, Extends.refl current⟩
  obtain ⟨applet, isApplet, named⟩ := words round member
  rw [installs, ← named]
  obtain ⟨more, adds, -⟩ := installApplet_grown script reached.1 anchored
    (operands applet isApplet) round.2
  exact ⟨more, reached.2.trans adds⟩

/-- A loop over covered applets keeps the blacklist, also when it is stopped. -/
theorem appletLoop_keeps {blacklist : List Str}
    (covered : Covered blacklist d (fun applet => fs.lookup cwd (operandOf applet.1))
      (applets.filter fun applet => !skip applet.1)) :
    Keeps blacklist d fs (outcome (appletLoop skip install fs rounds)) := by
  refine (appletLoop_outcome (fun state => Grown target d fs state ∧ Keeps blacklist d fs state)
    (fun current reached round member notSkipped => ?_)
    ⟨Grown.refl fs, fun b _ absent => absent⟩).2
  obtain ⟨applet, isApplet, named⟩ := words round member
  have entry := operands applet isApplet
  rw [installs, ← named]
  obtain ⟨grown, -, added⟩ := installApplet_grown script reached.1 anchored entry round.2
  refine ⟨grown, fun b blacklisted absent => ?_⟩
  rcases added d b with same | missing | ⟨-, -, -, -, free⟩
  · rw [same]
    exact reached.2 b blacklisted absent
  · have leads : fs.lookup cwd (operandOf applet.1) = .missing d b := by
      rw [entry.lookup fs (Extends.refl fs), missing]
    refine absurd blacklisted (covered applet (List.mem_filter.mpr ⟨isApplet, ?_⟩) b leads)
    rw [named, notSkipped]
    rfl
  · obtain ⟨i, present⟩ := anchored.present
    rw [free] at present
    exact absurd present (by simp)

/-- What a round makes sure of is there when the loop has ended. -/
theorem appletLoop_entry {applet : Name} (isApplet : applet ∈ applets)
    (notSkipped : skip applet.1 = false) {works : Bool} (member : (applet.1, works) ∈ rounds)
    {p : ℕ} {b : Name}
    (makes : ∀ current, Grown target d fs current →
      ∃ i, (outcome (installApplet cwd target script (operandOf applet.1) current works)).entry
        p b = some i) {after : FileSystem}
    (ends : appletLoop skip install fs rounds = .ok after) : ∃ i, after.entry p b = some i := by
  obtain ⟨first, rest, rfl⟩ := List.append_of_mem member
  -- Cut the loop at the round of the applet.
  obtain ⟨before, next, reached, result, ends⟩ := appletLoop_through notSkipped ends
  have grown : Grown target d fs before := by
    have first := (appletLoop_grown skip anchored operands installs
      (fun round inside => words round (List.mem_append_left _ inside)) (Grown.refl fs)).1
    rw [reached] at first
    exact first
  have same : next =
      outcome (installApplet cwd target script (operandOf applet.1) before works) := by
    have step := installs before (applet.1, works)
    rw [result] at step
    exact step
  obtain ⟨more, -, -⟩ := installApplet_grown script grown anchored (operands applet isApplet) works
  obtain ⟨i, created⟩ := makes before grown
  rw [← same] at more created
  have later := (appletLoop_grown skip anchored operands installs (fun round inside =>
    words round (List.mem_append_right _ (List.mem_cons_of_mem _ inside))) more).2
  rw [ends] at later
  exact ⟨i, later.entry _ _ _ created⟩

/-- A loop that ends has created what its applets led to. -/
theorem appletLoop_creates {applet : Name} (isApplet : applet ∈ applets)
    (notSkipped : skip applet.1 = false) (listed : applet.1 ∈ rounds.map Prod.fst) {p : ℕ}
    {b : Name} (missing : fs.lookup cwd (operandOf applet.1) = .missing p b) {after : FileSystem}
    (ends : appletLoop skip install fs rounds = .ok after) : ∃ i, after.entry p b = some i := by
  have entry := operands applet isApplet
  rw [entry.lookup fs (Extends.refl fs)] at missing
  obtain ⟨⟨_, works⟩, member, rfl⟩ := List.mem_map.mp listed
  apply appletLoop_entry skip anchored operands installs words isApplet notSkipped member _ ends
  intro current grown
  exact installApplet_creates script grown anchored entry works missing

/-- A loop that ends keeps the blacklist exactly when its applets are covered. -/
theorem appletLoop_keeps_iff {blacklist : List Str}
    (listed : ∀ applet ∈ applets, applet.1 ∈ rounds.map Prod.fst) {after : FileSystem}
    (ends : appletLoop skip install fs rounds = .ok after) :
    Keeps blacklist d fs after ↔
      Covered blacklist d (fun applet => fs.lookup cwd (operandOf applet.1))
        (applets.filter fun applet => !skip applet.1) := by
  constructor
  · intro keeps applet member b leads blacklisted
    obtain ⟨isApplet, notSkipped⟩ := List.mem_filter.mp member
    obtain ⟨i, created⟩ := appletLoop_creates skip anchored operands installs words isApplet
      (by simpa using notSkipped) (listed applet isApplet) leads ends
    -- A name that leads to a free entry: the loop has filled it.
    have free : fs.entry d b = none := by
      dsimp only at leads
      rw [(operands applet isApplet).lookup fs (Extends.refl fs)] at leads
      exact (walk_missing leads).2
    rw [keeps b blacklisted free] at created
    exact absurd created (by simp)
  · intro covered
    have keeps := appletLoop_keeps skip anchored operands installs words covered
    rwa [ends] at keeps

end Loop

/-- A directory with a busybox and a link that dangles at `su`. -/
def bench : FileSystem where
  nodes := [
    .directory true (entriesOf [(Name.named "xbin", 1)]),
    .directory true (entriesOf [(busybox, 2), (Name.named "sh", 3)]),
    .leaf (.file true "BB".toList),
    .leaf (.symlink "su".toList)]
  linked := by decide

end BbBot.Applets
