/-
# A run of the self-extracting installer

The installer works in the installation directory itself. It copies the busybox,
extracts `ssl_helper` there and sets up the applets. Where `/system/addon.d` can
be written, it extracts the survival script into the directory and copies it
from there, and where `etc` can be written it extracts the script that adds
users, sources it and removes it.

A second run that only cleans gives the directory its old contents back unless
one of the two helper scripts gets in the way: the survival script is never
removed, its name mentions busybox, and a file of the name `addusergroup.sh` that
was there before is lost.
-/

import BbBot.Applets.Inverse

namespace BbBot.SelfExtractor

open BbBot.Unix BbBot.Unix.FileSystem BbBot.Cleaning BbBot.Applets

/-- The members of the archive that an installation uses. -/
structure Archive where
  binary : Str
  helper : Str
  survival : Str
  users : Str

/-- `88-busybox.sh`. -/
def survivalScript : Name := ⟨"88-busybox.sh".toList, by decide⟩

/-- `addusergroup.sh`. -/
def usersScript : Name := ⟨"addusergroup.sh".toList, by decide⟩

/-- `7zr e archive member -aoa` in a directory: a file of that name is replaced, a
directory is not. -/
def extract (d : ℕ) (name : Name) (executable : Bool) (content : Str) (fs : FileSystem) :
    FileSystem :=
  match fs.entry d name with
  | none => fs.create d name (.file executable content)
  | some i =>
    if fs.isDirectory i then fs
    else (fs.unlink d name).create d name (.file executable content)

/-- `[ -d path -a -w path ]`. -/
def accessible (fs : FileSystem) (cwd : ℕ) (path : Str) : Bool :=
  fs.isDirectoryPath cwd path && fs.isWritablePath cwd path

/-- Does `ls -d path` find anything? -/
def isListed (fs : FileSystem) (cwd : ℕ) (path : Str) : Bool :=
  match fs.slot cwd path with
  | some (parent, name) => (fs.entry parent name).isSome
  | none => false

/-- `etc=$( ls -d /system/etc || ls -d /etc )`. -/
def etcPath (fs : FileSystem) (cwd : ℕ) : Str :=
  if isListed fs cwd "/system/etc".toList then "/system/etc".toList
  else if isListed fs cwd "/etc".toList then "/etc".toList else []

/-- `[ ! -z $etc -a -d $etc -a -w $etc ]`. -/
def etcAccessible (fs : FileSystem) (cwd : ℕ) : Bool :=
  etcPath fs cwd ≠ [] && accessible fs cwd (etcPath fs cwd)

/-- The directory of survival scripts. -/
def addonDir : Str := "/system/addon.d".toList

/-- Add the survival script. It stays in the installation directory. -/
def addSurvival (d : ℕ) (script : Str) (fs : FileSystem) : FileSystem :=
  if accessible fs d addonDir then
    let extracted := extract d survivalScript true script fs
    match extracted.lookup d addonDir with
    | .found addon =>
      -- `cp` of a file onto itself fails, and so does `cp` of a directory.
      if addon = d ∨ extracted.isDirectoryPath d survivalScript.1 then extracted
      else extracted.cp addon survivalScript script
    | _ => extracted
  else fs

/-- Add users and groups with a script that is extracted, sourced and removed. -/
def addUsers (accounts : FileSystem → FileSystem) (d : ℕ) (script : Str) (fs : FileSystem) :
    FileSystem :=
  if etcAccessible fs d then
    let extracted := extract d usersScript false script fs
    if extracted.isDirectoryPath d usersScript.1 then extracted
    -- The script is sourced, does its work in a subshell of its own, and is removed.
    else (accounts extracted).rm d usersScript.1
  else fs

/-- The binaries, as this installer puts them into its directory. -/
def copyMembers (d : ℕ) (archive : Archive) (fs : FileSystem) : FileSystem :=
  extract d sslHelper true archive.helper (fs.cp d busybox archive.binary)

section Runs

-- What the condition of the cleaning loop makes of operators, and what sourcing
-- `addusergroup.sh` does to the accounts.
variable (odd : FileSystem → ℕ → Str → Bool) (accounts : FileSystem → FileSystem)

/-- The cleaning pass. -/
def cleanPass (dir : Str) (cwd : ℕ) (fs : FileSystem) : State :=
  cleanLoop odd (installerDirs dir seeInstalldirs) ⟨fs, cwd, 0⟩

/-- The state in which the installation starts. -/
def seeStart (noclean : Bool) (dir : Str) (cwd : ℕ) (fs : FileSystem) : State :=
  if noclean then ⟨fs, cwd, 0⟩ else cleanPass odd dir cwd fs

/-- The installation into the current directory. -/
def seeInstall (archive : Archive) (dir : Str) (d : ℕ) (rounds : List (Str × Bool))
    (fs : FileSystem) : Except FileSystem FileSystem :=
  match seeSetupLoop dir d (copyMembers d archive fs) rounds with
  | .ok full => .ok (addUsers accounts d archive.users (addSurvival d archive.survival full))
  -- `error` in the loop: the two scripts are not extracted.
  | .error stopped => .error stopped

/-- A run with `--installdir=dir`, with or without cleaning. -/
def seeRun (archive : Archive) (noclean : Bool) (dir : Str) (rounds : List (Str × Bool))
    (cwd : ℕ) (fs : FileSystem) : Except FileSystem FileSystem :=
  let start := seeStart odd noclean dir cwd fs
  seeInstall accounts archive dir (start.fs.cd start.cwd dir) rounds start.fs

/-- A run with `--onlyclean --installdir=dir`. -/
def seeOnlyClean (dir : Str) (cwd : ℕ) (fs : FileSystem) : FileSystem :=
  (cleanPass odd dir cwd fs).fs

end Runs

/-! ## Extraction -/

section Extract

variable {d : ℕ} {name : Name} {executable : Bool} {content : Str} {fs : FileSystem}

/-- Where no directory is in the way, the member is a new file under its name. -/
theorem extract_spec (executable : Bool) (content : Str) (directory : fs.isDirectory d = true)
    (noDirectory : ∀ i, fs.entry d name = some i → fs.isDirectory i = false) :
    (∀ e n, (extract d name executable content fs).entry e n =
      if e = d ∧ n = name then some fs.size else fs.entry e n) ∧
    (∀ i, (extract d name executable content fs).kind i =
      if i = fs.size then some (.file executable content) else fs.kind i) ∧
    (extract d name executable content fs).size = fs.size + 1 := by
  have unlinked : (fs.unlink d name).isDirectory d = true := by
    rw [isDirectory, kind_unlink]
    exact directory
  rw [extract]
  split
  · exact ⟨entry_create directory name _, kind_create d name _, size_create d name _⟩
  · rename_i i leads
    rw [if_neg (by simp [noDirectory i leads])]
    refine ⟨fun e n => ?_, fun i => ?_, ?_⟩
    · rw [entry_create unlinked, size_unlink, entry_unlink]
      split <;> rfl
    · rw [kind_create, size_unlink, kind_unlink]
      rfl
    · rw [size_create, size_unlink]

theorem extract_absent (absent : fs.entry d name = none) :
    extract d name executable content fs = fs.create d name (.file executable content) := by
  rw [extract, absent]

theorem extract_directory {i : ℕ} (leads : fs.entry d name = some i)
    (isDir : fs.isDirectory i = true) : extract d name executable content fs = fs := by
  rw [extract, leads]
  exact if_pos isDir

end Extract

/-! ## The setup loop in a directory with dangling links -/

/-- What the setup loop adds: applets in the directory, and elsewhere scripts that
it wrote through dangling links. -/
structure Stocked (dir : Str) (d : ℕ) (applets : List Name) (before current : FileSystem) :
    Prop where
  extends_ : Extends before current
  here : ∀ name i, before.entry d name = none → current.entry d name = some i → name ∈ applets ∧
    (current.kind i = some (.symlink busybox.1) ∨ current.kind i = some (.file true (wrapper dir)))
  there : ∀ e name i, e ≠ d → before.entry e name = none → current.entry e name = some i →
    current.kind i = some (.file true (wrapper dir))

namespace Stocked

variable {dir : Str} {d : ℕ} {applets : List Name} {before current : FileSystem}

theorem refl (fs : FileSystem) : Stocked dir d applets fs fs := by
  refine ⟨Extends.refl fs, fun name i absent leads => ?_, fun e name i _ absent leads => ?_⟩ <;>
  · rw [absent] at leads
    exact absurd leads (by simp)

/-- One more applet, or one more script behind a link. -/
theorem create (stocked : Stocked dir d applets before current) {p : ℕ} {n : Name} {leaf : Leaf}
    (directory : current.isDirectory p = true) (absent : current.entry p n = none)
    (form : leaf = .file true (wrapper dir) ∨ leaf = .symlink busybox.1 ∧ p = d)
    (applet : p = d → n ∈ applets) :
    Stocked dir d applets before (current.create p n leaf) := by
  have made : (current.create p n leaf).kind current.size = some leaf.kind := by
    rw [kind_create, if_pos rfl]
  refine ⟨stocked.extends_.trans (extends_create directory absent _),
    fun name i free leads => ?_, fun e name i elsewhere free leads => ?_⟩
  · rw [entry_create directory] at leads
    split at leads
    · rename_i same
      obtain rfl := Option.some.inj leads
      refine ⟨same.2 ▸ applet same.1.symm, ?_⟩
      rcases form with rfl | ⟨rfl, -⟩
      · exact Or.inr made
      · exact Or.inl made
    · rw [kind_create_of_lt (lt_size_of_entry leads)]
      exact stocked.here name i free leads
  · rw [entry_create directory] at leads
    split at leads
    · rename_i same
      obtain rfl := Option.some.inj leads
      rcases form with rfl | ⟨-, here⟩
      · exact made
      · exact absurd (same.1.trans here) elsewhere
    · rw [kind_create_of_lt (lt_size_of_entry leads)]
      exact stocked.there e name i elsewhere free leads

end Stocked

/-- The name is free, or leads to a file, or stops outside of the directory. -/
def Usable (fs : FileSystem) (d : ℕ) (name : Name) : Prop :=
  fs.entry d name = none ∨
    (∃ j, fs.lookup d name.1 = .found j ∧ fs.isDirectory j = false) ∨
    ∃ p n, p ≠ d ∧ StopsAt fs maxLinks d [name] p n

section Round

variable {dir content : Str} {d bb : ℕ} {applets : List Name} {before current : FileSystem}
  {name : Name} (binary : before.entry d busybox = some bb)
  (program : before.kind bb = some (.file true content))
  (stocked : Stocked dir d applets before current) (word : isOption name.1 = false)

include stocked word

/-- A round for a link that stops at a free name ends with a script there, unless
it is an error. -/
theorem setupApplet_stopsAt (works : Bool) {i p : ℕ} {n : Name}
    (leads : before.entry d name = some i) (outside : p ≠ d)
    (stops : StopsAt before maxLinks d [name] p n) :
    (setupApplet dir d current (name.1, works) = .error current) ∨
      ∃ next j, setupApplet dir d current (name.1, works) = .ok next ∧
        Stocked dir d applets before next ∧ Extends current next ∧
        next.entry p n = some j ∧ next.kind j = some (.file true (wrapper dir)) ∧
        next.lookup d name.1 = .found j := by
  have leadsNow := stocked.extends_.entry _ _ _ leads
  have directory := stocked.extends_.isDirectory stops.1
  have file (j : ℕ) (there : current.entry p n = some j) :
      current.kind j = some (.file true (wrapper dir)) :=
    stocked.there p n j outside stops.2.1 there
  -- The entry is taken, so `ln` does not make a link.
  have unlinked (notPath : current.isDirectoryPath d name.1 = false) :
      (if works then current.ln d busybox.1 busybox name.1 else current) = current := by
    split
    · exact (Operand.ofName current d word).ln_taken _ leadsNow notPath
    · rfl
  rcases stops.missing_or_failed with missing | failed
  · obtain ⟨left, reach⟩ := Within.walk_missing missing
    have walkNow := reach current stocked.extends_.within
    refine Or.inr ?_
    cases there : current.entry p n with
    -- An earlier round has filled the place behind the link.
    | some j =>
      have script := file j there
      have found : current.walk maxLinks d [name] = .found j :=
        stocked.extends_.within.walk_filled missing there (by simp [target, script])
      exact ⟨current, j, installApplet_taken _ _ (Operand.ofName current d word) works leadsNow
        found (by simp [isDirectory, script]), stocked, Extends.refl current, there, script,
        (lookup_name current d name).trans found⟩
    | none =>
      have missingNow : current.walk maxLinks d [name] = .missing p n := by
        rw [walkNow, walk_of_entry_none directory there, if_pos rfl]
      have notPath : current.isDirectoryPath d name.1 = false := by
        simp [isDirectoryPath, lookup_name, missingNow]
      refine ⟨_, current.size, installApplet_script _ _ (Operand.ofName current d word) works
        missingNow (unlinked notPath), stocked.create directory there (Or.inl rfl)
          (fun same => absurd same outside), extends_create directory there _, ?_, ?_, ?_⟩
      · rw [entry_create directory, if_pos ⟨rfl, rfl⟩]
      · rw [kind_create, if_pos rfl]
        rfl
      · exact lookup_create_missing _ _ ((lookup_name current d name).trans missingNow)
  · have failedNow : current.lookup d name.1 = .failed := by
      rw [lookup_name, failed current stocked.extends_.within directory]
      intro j there
      have script := file j there
      exact ⟨by simp [target, script], by simp [isDirectory, script]⟩
    have notPath : current.isDirectoryPath d name.1 = false := by
      simp [isDirectoryPath, failedNow]
    refine Or.inl ?_
    rw [setupApplet, installApplet, unlinked notPath, if_neg (by simp [pathExists, failedNow]),
      redirect, failedNow]

include binary program

/-- What one round adds. -/
theorem setupApplet_stocked (isApplet : name ∈ applets) (usable : Usable before d name)
    (works : Bool) :
    Stocked dir d applets before (outcome (setupApplet dir d current (name.1, works))) ∧
      Extends current (outcome (setupApplet dir d current (name.1, works))) := by
  have binaryNow := stocked.extends_.entry _ _ _ binary
  have programNow := stocked.extends_.kind _ _ program
  have taken {i j : ℕ} (leads : current.entry d name = some i)
      (found : current.lookup d name.1 = .found j) (notDirectory : current.isDirectory j = false) :
      setupApplet dir d current (name.1, works) = .ok current :=
    installApplet_taken _ _ (Operand.ofName current d word) works leads
      (lookup_name current d name ▸ found) notDirectory
  cases now : current.entry d name with
  | none =>
    rw [setupApplet_absent works word now binaryNow (by simp [target, programNow])]
    refine ⟨stocked.create (isDirectory_of_entry binaryNow) now ?_ fun _ => isApplet,
      extends_create (isDirectory_of_entry binaryNow) now _⟩
    cases works
    · exact Or.inl rfl
    · exact Or.inr ⟨rfl, rfl⟩
  | some i =>
    cases first : before.entry d name with
    | none =>
      obtain ⟨j, found, notDirectory⟩ :=
        lookup_applet binaryNow programNow now (stocked.here name i first now).2
      rw [taken now found notDirectory]
      exact ⟨stocked, Extends.refl current⟩
    | some k =>
      rcases usable with free | ⟨j, found, notDirectory⟩ | ⟨p, n, outside, stops⟩
      · rw [free] at first
        exact absurd first (by simp)
      · have old : j < before.size :=
          lookup_found_lt (lt_size_of_isDirectory (isDirectory_of_entry binary)) found
        rw [taken now (stocked.extends_.lookup_found found)
          (stocked.extends_.isDirectory_eq old ▸ notDirectory)]
        exact ⟨stocked, Extends.refl current⟩
      · rcases setupApplet_stopsAt stocked word works first outside stops with
          error | ⟨next, j, ok, more, adds, -⟩
        · rw [error]
          exact ⟨stocked, Extends.refl current⟩
        · rw [ok]
          exact ⟨more, adds⟩

end Round

section Rounds

variable {dir content : Str} {d bb : ℕ} {applets : List Name} {before : FileSystem}
  (binary : before.entry d busybox = some bb)
  (program : before.kind bb = some (.file true content))
  (words : ∀ applet ∈ applets, isOption applet.1 = false)
  (usable : ∀ applet ∈ applets, Usable before d applet)

include binary program words usable

/-- What a whole loop adds, whether it ends or is stopped. -/
theorem seeSetupLoop_stocked {rounds : List (Str × Bool)}
    (listed : ∀ round ∈ rounds, ∃ applet ∈ applets, applet.1 = round.1) {current : FileSystem}
    (stocked : Stocked dir d applets before current) :
    Stocked dir d applets before (outcome (seeSetupLoop dir d current rounds)) ∧
      Extends current (outcome (seeSetupLoop dir d current rounds)) := by
  refine appletLoop_outcome
    (fun state => Stocked dir d applets before state ∧ Extends current state)
    (fun state reached round member _ => ?_) ⟨stocked, Extends.refl current⟩
  obtain ⟨applet, isApplet, named⟩ := listed round member
  obtain ⟨_, works⟩ := round
  obtain rfl := named
  obtain ⟨more, adds⟩ := setupApplet_stocked binary program reached.1 (words applet isApplet)
    isApplet (usable applet isApplet) works
  exact ⟨more, reached.2.trans adds⟩

/-- A loop that ends has written a script through each applet's dangling link. -/
theorem seeSetupLoop_stopsAt {rounds : List (Str × Bool)}
    (listed : ∀ round ∈ rounds, ∃ applet ∈ applets, applet.1 = round.1) {after : FileSystem}
    (ends : seeSetupLoop dir d before rounds = .ok after) {applet : Name}
    (isApplet : applet ∈ applets) (isRound : applet.1 ∈ rounds.map Prod.fst) {i p : ℕ} {n : Name}
    (leads : before.entry d applet = some i) (outside : p ≠ d)
    (stops : StopsAt before maxLinks d [applet] p n) :
    ∃ j, after.entry p n = some j ∧ after.kind j = some (.file true (wrapper dir)) ∧
      after.lookup d applet.1 = .found j := by
  obtain ⟨⟨_, works⟩, member, rfl⟩ := List.mem_map.mp isRound
  obtain ⟨first, rest, rfl⟩ := List.append_of_mem member
  obtain ⟨middle, next, reached, result, ends⟩ := appletLoop_through rfl ends
  have start : Stocked dir d applets before middle := by
    have reachedState := (seeSetupLoop_stocked binary program words usable
      (fun round inside => listed round (List.mem_append_left _ inside))
      (Stocked.refl before : Stocked dir d applets before before)).1
    rwa [seeSetupLoop, reached] at reachedState
  rcases setupApplet_stopsAt start (words applet isApplet) works leads outside stops with
    error | ⟨other, j, ok, more, -, there, script, found⟩
  · rw [result] at error
    exact absurd error (by simp)
  · obtain rfl := Except.ok.inj (result.symm.trans ok)
    have later := (seeSetupLoop_stocked binary program words usable (fun round inside =>
      listed round (List.mem_append_right _ (List.mem_cons_of_mem _ inside))) more).2
    rw [seeSetupLoop, ends] at later
    exact ⟨j, later.entry _ _ _ there, later.kind _ _ script, later.lookup_found found⟩

end Rounds

end BbBot.SelfExtractor
