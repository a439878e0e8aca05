/-
# Setting up applets

The installers give a directory one entry for each word that `busybox --list`
prints: a symbolic link to the busybox, or, where no file is found under the
name afterwards, a script that names the busybox as its interpreter. Names that
are already taken keep their file.

Three scripts have this loop. `base_installer.sh` skips blacklisted applets, the
self-extracting installer has a blacklist but does not consult it, and
`88-busybox.sh` has none. The installers stop when a script cannot be written.

A round of the loop is a word together with whether `ln -s` works in that round.
The loops are modelled for words without pattern characters, which the shell
leaves alone wherever it uses them unquoted.
-/

import BbBot.Cleaning.Loop

namespace BbBot.Applets

open BbBot.Unix BbBot.Unix.FileSystem BbBot.Cleaning

/-- `BLACKLISTED_APPLETS=" su "`, as words. -/
def blacklistedApplets : List Str := fields " su ".toList

/-- `is_blacklisted`: compare with one word after the other. -/
def isBlacklisted (blacklist : List Str) (applet : Str) : Bool := blacklist.any (applet == ·)

/-- The words of `for applet in $(./busybox --list)`. -/
def appletWords (fs : FileSystem) (cwd : ℕ) (listing : Str) : List Str :=
  (fields listing).flatMap (fs.expand cwd)

/-- The words of the loop are the applets. -/
theorem appletWords_eq (fs : FileSystem) (d : ℕ) {applets : List Name}
    (words : ∀ applet ∈ applets, Unsplit applet.1 ∧ Literal applet.1) :
    appletWords fs d (output (applets.map Name.word)) = applets.map Name.word := by
  have word {k : Str} (member : k ∈ applets.map Name.word) : Unsplit k ∧ fs.expand d k = [k] := by
    obtain ⟨applet, inside, rfl⟩ := List.mem_map.mp member
    exact ⟨(words applet inside).1, fs.expand_literal d (words applet inside).2⟩
  rw [appletWords, fields_output fun k member => (word member).1,
    List.flatMap_congr fun k member => (word member).2]
  simp

/-- The rounds go through the applets and no other words. -/
theorem rounds_of_words {applets : List Name} {rounds : List (Str × Bool)}
    (words : rounds.map Prod.fst = applets.map Name.word) :
    (∀ round ∈ rounds, ∃ applet ∈ applets, applet.1 = round.1) ∧
      ∀ applet ∈ applets, applet.1 ∈ rounds.map Prod.fst := by
  constructor
  · intro round member
    have isWord : round.1 ∈ applets.map Name.word := words ▸ List.mem_map_of_mem member
    obtain ⟨applet, isApplet, named⟩ := List.mem_map.mp isWord
    exact ⟨applet, isApplet, named⟩
  · intro applet member
    rw [words]
    exact List.mem_map_of_mem member

/-- A loop that ends has a file system, also when it was stopped. -/
def outcome : Except FileSystem FileSystem → FileSystem
  | .ok fs => fs
  | .error fs => fs

/-- Link an applet, then write a script for it unless a file is found there. It is
an error when the script cannot be written. -/
def installApplet (cwd : ℕ) (target script operand : Str) (fs : FileSystem) (links : Bool) :
    Except FileSystem FileSystem :=
  -- `ln` may fail or do nothing; the test of the name decides what follows.
  let linked := if links then fs.ln cwd target busybox operand else fs
  if linked.pathExists cwd operand then .ok linked
  else
    match linked.redirect cwd operand script with
    | some written => .ok (written.chmodExec cwd operand)
    | none => .error linked

/-- The rounds of a loop, with those words left out that are skipped. -/
def appletLoop (skip : Str → Bool)
    (install : FileSystem → Str × Bool → Except FileSystem FileSystem) :
    FileSystem → List (Str × Bool) → Except FileSystem FileSystem
  | fs, [] => .ok fs
  | fs, round :: rounds =>
    -- `continue`
    if skip round.1 then appletLoop skip install fs rounds
    else
      match install fs round with
      | .ok next => appletLoop skip install next rounds
      | .error stopped => .error stopped

/-- The text `echo "#!$INSTALLDIR/busybox"` writes. -/
def wrapper (dir : Str) : Str := shebang dir ++ ['\n']

/-- `./busybox ln -s busybox $applet` in the installation directory, and so on. -/
def setupApplet (dir : Str) (d : ℕ) (fs : FileSystem) (round : Str × Bool) :
    Except FileSystem FileSystem :=
  installApplet d busybox.1 (wrapper dir) round.1 fs round.2

/-- The loop of `base_installer.sh`. -/
def setupLoop (blacklist : List Str) (dir : Str) (d : ℕ) (fs : FileSystem)
    (rounds : List (Str × Bool)) : Except FileSystem FileSystem :=
  appletLoop (isBlacklisted blacklist) (setupApplet dir d) fs rounds

/-- The loop of the self-extracting installer. -/
def seeSetupLoop (dir : Str) (d : ℕ) (fs : FileSystem) (rounds : List (Str × Bool)) :
    Except FileSystem FileSystem :=
  appletLoop (fun _ => false) (setupApplet dir d) fs rounds

/-- One applet of `88-busybox.sh`, under absolute paths. It goes on when the script
cannot be written. -/
def restoreApplet (dir : Str) (cwd : ℕ) (fs : FileSystem) (round : Str × Bool) :
    Except FileSystem FileSystem :=
  .ok (outcome (installApplet cwd (inDirectory dir) (wrapper dir) (dir ++ '/' :: round.1) fs
    round.2))

/-- The loop of `88-busybox.sh` over the applets of a restored busybox. -/
def restoreLoop (dir : Str) (cwd : ℕ) (fs : FileSystem) (rounds : List (Str × Bool)) :
    Except FileSystem FileSystem :=
  appletLoop (fun _ => false) (restoreApplet dir cwd) fs rounds

/-! ## One applet -/

section Step

variable (target script : Str) {fs : FileSystem} {cwd d links : ℕ} {operand : Str} {name : Name}
  (entry : Operand fs cwd operand d links name)

include entry

private theorem linked_taken {i : ℕ} (works : Bool) (leads : fs.entry d name = some i)
    (notDirectory : fs.isDirectoryPath cwd operand = false) :
    (if works then fs.ln cwd target busybox operand else fs) = fs := by
  split
  · exact entry.ln_taken target leads notDirectory
  · rfl

/-- A file under the applet's name is kept. -/
theorem installApplet_taken (works : Bool) {i j : ℕ} (leads : fs.entry d name = some i)
    (found : fs.walk links d [name] = .found j) (notDirectory : fs.isDirectory j = false) :
    installApplet cwd target script operand fs works = .ok fs := by
  have found := (entry.lookup fs (Extends.refl fs)).trans found
  have notPath : fs.isDirectoryPath cwd operand = false := by
    rw [isDirectoryPath, found]
    exact notDirectory
  rw [installApplet, linked_taken target entry works leads notPath,
    if_pos (pathExists_iff.mpr ⟨j, found⟩)]

/-- Without a new link, the script is written where the name leads. -/
theorem installApplet_script (works : Bool) {p : ℕ} {n : Name}
    (missing : fs.walk links d [name] = .missing p n)
    (same : (if works then fs.ln cwd target busybox operand else fs) = fs) :
    installApplet cwd target script operand fs works =
      .ok (fs.create p n (.file true script)) := by
  have missing := (entry.lookup fs (Extends.refl fs)).trans missing
  have notThere : fs.pathExists cwd operand = false := by simp [pathExists, missing]
  obtain ⟨text, redirected, executable⟩ :=
    Option.map_eq_some_iff.mp (redirect_chmod_missing script entry.word missing)
  rw [installApplet, same, if_neg (by simp [notThere]), redirected]
  exact congrArg Except.ok executable

/-- Where the name leads to a free entry, that entry becomes a script, or, when it
is the name itself, a link. -/
theorem installApplet_missing (works : Bool) {bb p : ℕ} {n : Name}
    (reaches : fs.walk maxLinks (start d target) (components target) = .found bb)
    (missing : fs.walk links d [name] = .missing p n) :
    ∃ leaf, outcome (installApplet cwd target script operand fs works) = fs.create p n leaf ∧
      (leaf = .file true script ∨ leaf = .symlink target ∧ p = d ∧ n = name) := by
  obtain ⟨directory, ⟨absent, -, rfl, rfl⟩ | ⟨i, leads, -⟩⟩ := walk_cons_missing missing
  · cases works with
    | false =>
      rw [installApplet_script target script entry false missing rfl]
      exact ⟨_, rfl, Or.inl rfl⟩
    | true =>
      refine ⟨.symlink target, ?_, Or.inr ⟨rfl, rfl, rfl⟩⟩
      have grows := extends_create directory absent (.symlink target)
      have made : (fs.create d name (.symlink target)).entry d name = some fs.size := by
        rw [entry_create directory, if_pos ⟨rfl, rfl⟩]
      -- The new inode is the link that `ln` has made.
      have link : (fs.create d name (.symlink target)).target fs.size = some target := by
        rw [target_eq_some_iff, kind_create, if_pos rfl]
        rfl
      -- The link leads to the busybox, or there are too many links already.
      have leads : (fs.create d name (.symlink target)).walk links d [name] = .found bb ∨
          (fs.create d name (.symlink target)).walk links d [name] = .failed := by
        cases links with
        | zero => exact Or.inr (walk_zero_of_link made link)
        | succ links =>
          rw [walk_of_link made link, List.append_nil]
          exact (walk_links (grows.walk_found reaches) links).imp id And.left
      rw [← entry.lookup _ grows] at leads
      rw [installApplet, if_pos rfl, entry.ln_absent target directory absent]
      -- A link too many is not followed by the test and not by the redirection.
      rcases leads with found | failed
      · rw [if_pos (pathExists_iff.mpr ⟨bb, found⟩)]
        rfl
      · have notThere : (fs.create d name (.symlink target)).pathExists cwd operand = false := by
          simp [pathExists, failed]
        rw [if_neg (by simp [notThere]), redirect, failed]
        rfl
  · have notPath : fs.isDirectoryPath cwd operand = false := by
      simp [isDirectoryPath, entry.lookup fs (Extends.refl fs), missing]
    rw [installApplet_script target script entry works missing
      (linked_taken target entry works leads notPath)]
    exact ⟨_, rfl, Or.inl rfl⟩

/-- Where the name leads to a directory, a link is made inside of it. -/
theorem installApplet_directory {j : ℕ} (found : fs.walk links d [name] = .found j)
    (isDir : fs.isDirectory j = true) :
    installApplet cwd target script operand fs true = .ok (fs.symlink j busybox target) := by
  have there : (fs.symlink j busybox target).pathExists cwd operand = true := by
    -- Inside of the directory a name may be taken, and then nothing is made.
    have grows : Extends fs (fs.symlink j busybox target) := by
      rw [symlink]
      split
      · rename_i free
        exact extends_create isDir free.2 _
      · exact Extends.refl fs
    exact pathExists_iff.mpr ⟨j, (entry.lookup _ grows).trans (grows.walk_found found)⟩
  rw [installApplet, if_pos rfl, entry.ln_directory target found isDir, if_pos there]

/-- Otherwise nothing changes, or a directory of that name gets a link inside. -/
theorem installApplet_other (works : Bool)
    (other : ∀ p n, fs.walk links d [name] ≠ .missing p n)
    (directory : fs.isDirectory d = true) :
    outcome (installApplet cwd target script operand fs works) = fs ∨
      ∃ j, works = true ∧ fs.walk links d [name] = .found j ∧ fs.isDirectory j = true ∧
        fs.entry j busybox = none ∧
        outcome (installApplet cwd target script operand fs works) =
          fs.create j busybox (.symlink target) := by
  have lookup := entry.lookup fs (Extends.refl fs)
  have present : ∃ i, fs.entry d name = some i := by
    cases leads : fs.entry d name with
    | none => exact absurd (walk_of_entry_none directory leads) (other d name)
    | some i => exact ⟨i, rfl⟩
  obtain ⟨i, leads⟩ := present
  cases result : fs.walk links d [name] with
  | missing p n => exact absurd result (other p n)
  | failed =>
    have notPath : fs.isDirectoryPath cwd operand = false := by
      simp [isDirectoryPath, lookup, result]
    have notThere : fs.pathExists cwd operand = false := by simp [pathExists, lookup, result]
    refine Or.inl ?_
    rw [installApplet, linked_taken target entry works leads notPath, if_neg (by simp [notThere]),
      redirect, lookup, result]
    rfl
  | found j =>
    cases isDir : fs.isDirectory j with
    | false =>
      rw [installApplet_taken target script entry works leads result isDir]
      exact Or.inl rfl
    | true =>
      cases works with
      | false =>
        have there : fs.pathExists cwd operand = true :=
          pathExists_iff.mpr ⟨j, lookup.trans result⟩
        refine Or.inl ?_
        rw [installApplet, if_neg Bool.false_ne_true, if_pos there]
        rfl
      | true =>
        rw [installApplet_directory target script entry result isDir, symlink]
        split
        · rename_i free
          exact Or.inr ⟨j, rfl, rfl, isDir, free.2, rfl⟩
        · exact Or.inl rfl

/-- A name that leads to a file, or that no one can follow, stays as it is. -/
theorem installApplet_settled (works : Bool) (directory : fs.isDirectory d = true)
    (settled : (∃ j, fs.walk links d [name] = .found j ∧ fs.isDirectory j = false) ∨
      fs.walk links d [name] = .failed) :
    outcome (installApplet cwd target script operand fs works) = fs := by
  have other : ∀ p n, fs.walk links d [name] ≠ .missing p n := by
    intro p n missing
    rcases settled with ⟨j, found, -⟩ | failed
    · simp [missing] at found
    · simp [missing] at failed
  rcases installApplet_other target script entry works other directory with
    same | ⟨j, -, found, isDir, -⟩
  · exact same
  · -- Only a directory under the name would get a link.
    rcases settled with ⟨j', found', file⟩ | failed
    · rw [found] at found'
      rw [← Lookup.found.inj found', isDir] at file
      exact absurd file (by simp)
    · rw [failed] at found
      exact absurd found (by simp)

end Step

/-- An applet without a file becomes a link or a script of the installers. -/
theorem setupApplet_absent {fs : FileSystem} {d bb : ℕ} {dir : Str} {name : Name} (works : Bool)
    (word : isOption name.1 = false) (absent : fs.entry d name = none)
    (binary : fs.entry d busybox = some bb) (notLink : fs.target bb = none) :
    setupApplet dir d fs (name.1, works) = .ok (fs.create d name
      (if works then .symlink busybox.1 else .file true (wrapper dir))) := by
  have directory := isDirectory_of_entry binary
  have entry := Operand.ofName fs d word
  rw [setupApplet]
  cases works with
  | false =>
    exact installApplet_script _ _ entry false
      (lookup_name fs d name ▸ lookup_absent directory absent) rfl
  | true =>
    have grows := extends_create directory absent (.symlink busybox.1)
    rw [installApplet, if_pos rfl, entry.ln_absent _ directory absent, if_pos]
    · rfl
    refine pathExists_iff.mpr ⟨bb, lookup_link (i := fs.size) ?_ ?_ (grows.entry _ _ _ binary) ?_⟩
    · rw [entry_create directory, if_pos ⟨rfl, rfl⟩]
    · rw [target_eq_some_iff, kind_create, if_pos rfl]
      rfl
    · rw [grows.target_eq (lt_size_of_entry binary), notLink]

/-! ## A whole loop -/

section Run

variable {skip : Str → Bool} {install : FileSystem → Str × Bool → Except FileSystem FileSystem}
  (invariant : FileSystem → Prop)

/-- What every round keeps holds when the loop ends or is stopped. -/
theorem appletLoop_outcome {fs : FileSystem} {rounds : List (Str × Bool)}
    (step : ∀ current, invariant current → ∀ round ∈ rounds, skip round.1 = false →
      invariant (outcome (install current round)))
    (holds : invariant fs) : invariant (outcome (appletLoop skip install fs rounds)) := by
  induction rounds generalizing fs with
  | nil => exact holds
  | cons round rounds ih =>
    have rest := fun current reached other member =>
      step current reached other (List.mem_cons_of_mem round member)
    rw [appletLoop]
    split
    · exact ih rest holds
    · rename_i notSkipped
      have after := step fs holds round (by simp) (by simpa using notSkipped)
      split
      · rename_i next result
        rw [result] at after
        exact ih rest after
      · rename_i stopped result
        rw [result] at after
        exact after

/-- A loop whose rounds all succeed ends. -/
theorem appletLoop_ok {fs : FileSystem} {rounds : List (Str × Bool)}
    (step : ∀ current, invariant current → ∀ round ∈ rounds, skip round.1 = false →
      ∃ next, install current round = .ok next ∧ invariant next)
    (holds : invariant fs) :
    ∃ after, appletLoop skip install fs rounds = .ok after ∧ invariant after := by
  induction rounds generalizing fs with
  | nil => exact ⟨fs, rfl, holds⟩
  | cons round rounds ih =>
    have rest := fun current reached other member =>
      step current reached other (List.mem_cons_of_mem round member)
    rw [appletLoop]
    split
    · exact ih rest holds
    · rename_i notSkipped
      obtain ⟨next, result, after⟩ := step fs holds round (by simp) (by simpa using notSkipped)
      rw [result]
      exact ih rest after

omit invariant in
/-- A loop that ends has gone through each of its rounds. -/
theorem appletLoop_through {fs after : FileSystem} {first rest : List (Str × Bool)}
    {round : Str × Bool} (notSkipped : skip round.1 = false)
    (ends : appletLoop skip install fs (first ++ round :: rest) = .ok after) :
    ∃ before next, appletLoop skip install fs first = .ok before ∧
      install before round = .ok next ∧ appletLoop skip install next rest = .ok after := by
  induction first generalizing fs with
  | nil =>
    rw [List.nil_append, appletLoop, if_neg (by simp [notSkipped])] at ends
    split at ends
    · rename_i next result
      exact ⟨fs, next, rfl, result, ends⟩
    · exact absurd ends (by simp)
  | cons other first ih =>
    rw [List.cons_append, appletLoop] at ends
    rw [appletLoop]
    split at ends
    · rename_i skipped
      rw [if_pos skipped]
      exact ih ends
    · rename_i done
      rw [if_neg done]
      split at ends
      · exact ih ends
      · exact absurd ends (by simp)

end Run

/-! ## A populated directory -/

/-- Nothing changed but that some of the `allowed` names, free before, became
links to the busybox or scripts for it. -/
structure Populated (target script : Str) (d : ℕ) (allowed : Name → Prop)
    (before after : FileSystem) : Prop where
  extends_ : Extends before after
  elsewhere : ∀ e name, e ≠ d → after.entry e name = before.entry e name
  created : ∀ name i, before.entry d name = none → after.entry d name = some i →
    allowed name ∧ before.size ≤ i ∧
      (after.kind i = some (.symlink target) ∨ after.kind i = some (.file true script))

namespace Populated

variable {target script : Str} {d : ℕ} {allowed : Name → Prop} {before after : FileSystem}

theorem refl (fs : FileSystem) : Populated target script d allowed fs fs :=
  ⟨Extends.refl fs, fun _ _ _ => rfl, fun name i absent leads => by simp [absent] at leads⟩

/-- One more applet. -/
theorem create (populated : Populated target script d allowed before after) {name : Name}
    {leaf : Leaf} (form : leaf = .symlink target ∨ leaf = .file true script)
    (directory : after.isDirectory d = true) (absent : after.entry d name = none)
    (applet : allowed name) :
    Populated target script d allowed before (after.create d name leaf) := by
  refine ⟨populated.extends_.trans (extends_create directory absent _), fun e n other => ?_,
    fun n i free leads => ?_⟩
  · rw [entry_create directory, if_neg fun same => other same.1]
    exact populated.elsewhere e n other
  · rw [entry_create directory] at leads
    split at leads
    · rename_i same
      obtain rfl := Option.some.inj leads
      refine ⟨same.2 ▸ applet, populated.extends_.size_le, ?_⟩
      rw [kind_create, if_pos rfl]
      rcases form with rfl | rfl
      · exact Or.inl rfl
      · exact Or.inr rfl
    · rw [kind_create_of_lt (lt_size_of_entry leads)]
      exact populated.created n i free leads

end Populated

/-- An applet that an earlier round made leads to a file. -/
theorem lookup_applet {fs : FileSystem} {d bb i : ℕ} {dir content : Str} {name : Name}
    (binary : fs.entry d busybox = some bb) (program : fs.kind bb = some (.file true content))
    (leads : fs.entry d name = some i)
    (form : fs.kind i = some (.symlink busybox.1) ∨ fs.kind i = some (.file true (wrapper dir))) :
    ∃ j, fs.lookup d name.1 = .found j ∧ fs.isDirectory j = false := by
  rcases form with link | script
  · exact ⟨bb, lookup_link leads (target_eq_some_iff.mpr link) binary (by simp [target, program]),
      by simp [isDirectory, program]⟩
  · exact ⟨i, lookup_entry leads (by simp [target, script]), by simp [isDirectory, script]⟩

/-- The loop of an installer ends when the directory holds a busybox and none of
the names leads nowhere or to a directory. -/
theorem appletLoop_populated {skip : Str → Bool} {dir : Str} {d bb : ℕ}
    {allowed : Name → Prop} {before : FileSystem} (binary : before.entry d busybox = some bb)
    {content : Str} (program : before.kind bb = some (.file true content))
    {rounds : List (Str × Bool)}
    (applets : ∀ round ∈ rounds, skip round.1 = false →
      ∃ name : Name, name.1 = round.1 ∧ allowed name ∧ isOption name.1 = false ∧
        ∀ i, before.entry d name = some i →
          ∃ j, before.lookup d name.1 = .found j ∧ before.isDirectory j = false) :
    ∃ after, appletLoop skip (setupApplet dir d) before rounds = .ok after ∧
      Populated busybox.1 (wrapper dir) d allowed before after := by
  refine appletLoop_ok _ (fun current populated round member notSkipped => ?_) (Populated.refl _)
  obtain ⟨name, named, applet, word, present⟩ := applets round member notSkipped
  have binaryNow := populated.extends_.entry _ _ _ binary
  have programNow := populated.extends_.kind _ _ program
  have notLinkNow : current.target bb = none := by simp [target, programNow]
  obtain ⟨_, works⟩ := round
  obtain rfl := named
  cases now : current.entry d name with
  | none =>
    refine ⟨_, setupApplet_absent works word now binaryNow notLinkNow,
      populated.create ?_ (isDirectory_of_entry binaryNow) now applet⟩
    cases works
    · exact Or.inr rfl
    · exact Or.inl rfl
  | some i =>
    -- The file was there from the start or an earlier round created it.
    have file : ∃ j, current.lookup d name.1 = .found j ∧ current.isDirectory j = false := by
      cases first : before.entry d name with
      | none =>
        exact lookup_applet binaryNow programNow now (populated.created name i first now).2.2
      | some k =>
        obtain ⟨j, found, notDirectory⟩ := present k first
        have old : j < before.size := lookup_found_lt (lt_size_of_isDirectory
          (isDirectory_of_entry binary)) found
        exact ⟨j, populated.extends_.lookup_found found,
          populated.extends_.isDirectory_eq old ▸ notDirectory⟩
    obtain ⟨j, found, notDirectory⟩ := file
    rw [lookup_name] at found
    exact ⟨current, installApplet_taken _ _ (Operand.ofName current d word) works now found
      notDirectory, populated⟩

end BbBot.Applets
