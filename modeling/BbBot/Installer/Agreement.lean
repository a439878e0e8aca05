/-
# Where the installer puts busybox and where the cleaner looks

`base_installer.sh` takes the directory from the words of the first `bbx.conf` that
exists, and the last usable one wins. `cleaner.sh` reads all the files, and of each
the first line that mentions `installdir`, whatever else is on it. Without a
directory of the user both go through lists of their own, and every directory in
which the installer looks is one that the cleaner visits.

So the two can only miss each other on a directory of the user: when another line
that mentions `installdir` comes first, a comment for example, when the last usable
word is not on the first such line, or when another file has the last say.
-/

import BbBot.SelfExtractor.Session
import BbBot.Installer.InstallDir

namespace BbBot.Installer

open BbBot.Unix BbBot.Unix.FileSystem BbBot.Cleaning BbBot.SelfExtractor

/-! ## The installer -/

/-- What decided about the directory. -/
inductive Origin
  | config
  | search
  deriving DecidableEq

/-- The directory of an installation. -/
structure BaseChoice where
  installdir : Str
  origin : Origin
  deriving DecidableEq

section Base

variable {cwd : ℕ} (terminal : Terminal cwd)

/-- Choose the directory. None when it cannot be created. The branch for Magisk is
switched off in the script. -/
def baseDir (fs : FileSystem) (installdir : Str) : Option BaseChoice :=
  if terminal.isNoDir installdir then
    match (fields possibleInstalldirs).find? (terminal.isAccessible fs) with
    | some dir => some ⟨dir, .search⟩
    -- A directory that is created is one of the list as well.
    | none => (terminal.mkdir fs fallbackDir).map fun _ => ⟨fallbackDir, .search⟩
  else some ⟨installdir, .config⟩

/-- The directory in which the installer puts busybox. Between the configuration and
the choice it extracts files and mounts images, which `prepare` stands for. -/
def baseInstalls (present : Bool) (prepare : FileSystem → Option FileSystem)
    (files : List (Option Str)) (fs : FileSystem) : Option BaseChoice := do
  let conf ← (baseConf terminal.toShell present (confWords terminal.toShell files fs) fs).toOption
  let prepared ← prepare conf.state
  baseDir terminal prepared conf.installdir

end Base

/-! ## The cleaner -/

/-- `grep pattern file | head -n1` -/
def firstMention (pattern text : Str) : Str :=
  ((inputLines text).find? fun line => decide (pattern <:+: line)).getD []

/-- The value that the cleaner takes from a file. -/
def mentionedDir (text : Str) : Str := afterFirst '=' (firstMention installdirOption text)

section Cleaner

variable {cwd : ℕ} (terminal : Terminal cwd)

/-- One configuration file. -/
def cleanerFile (fs : FileSystem) (installdir text : Str) : Str :=
  if terminal.isEmpty (mentionedDir text) then installdir
  -- A value that is not an accessible directory is dropped, and an earlier one stays.
  else if terminal.isAccessible fs (mentionedDir text) then mentionedDir text
  else installdir

/-- `INSTALLDIR` of the cleaner after all the files. -/
def cleanerReads (fs : FileSystem) (files : List (Option Str)) : Str :=
  (files.filterMap id).foldl (cleanerFile terminal fs) []

/-- The words of the cleaner's `$POSSIBLE_CLEANDIRS`, where `mounted` is the device
once the images are mounted. -/
def cleanerWords (fs mounted : FileSystem) (files : List (Option Str)) : List Str :=
  (cleanerDirs (cleanerReads terminal fs files)).flatMap (terminal.expand mounted)

/-- The directories that are cleaned without a configuration. -/
def fixedDirs : List Str := cleanerDirs []

/-- Every directory in which the installer looks is cleaned. -/
theorem possibleInstalldirs_fixed : ∀ dir ∈ fields possibleInstalldirs, dir ∈ fixedDirs := by
  rw [fixedDirs, cleanerDirs_nil]
  decide +kernel

theorem fallbackDir_fixed : fallbackDir ∈ fixedDirs := by
  rw [fixedDirs, cleanerDirs_nil]
  decide +kernel

theorem fixedDirs_plain : ∀ dir ∈ fixedDirs, PlainWord dir := by
  rw [fixedDirs, cleanerDirs_nil]
  decide +kernel

theorem cleanerWords_nonempty {fs mounted : FileSystem} {files : List (Option Str)} :
    ∀ dir ∈ cleanerWords terminal fs mounted files, dir ≠ [] := by
  intro dir member
  obtain ⟨word, inside, expanded⟩ := List.mem_flatMap.mp member
  exact terminal.expand_nonempty _ word (unsplit_of_mem_fields inside).1 dir expanded

/-- The value of the first mention, where it is not empty and an accessible directory. -/
def usableMention (fs : FileSystem) (text : Str) : Option Str :=
  if !terminal.isEmpty (mentionedDir text) && terminal.isAccessible fs (mentionedDir text) then
    some (mentionedDir text)
  else none

/-- The value in the last of the files that have one. -/
def lastMention (fs : FileSystem) (files : List (Option Str)) : Option Str :=
  ((files.filterMap id).filterMap (usableMention terminal fs)).getLast?

theorem cleanerFile_usable (fs : FileSystem) (installdir text : Str) :
    cleanerFile terminal fs installdir text =
      (usableMention terminal fs text).getD installdir := by
  unfold cleanerFile usableMention
  cases terminal.isEmpty (mentionedDir text) with
  | true => rfl
  | false =>
    cases terminal.isAccessible fs (mentionedDir text) with
    | true => rfl
    | false => rfl

/-- The last file decides. -/
theorem cleanerReads_eq (fs : FileSystem) (files : List (Option Str)) :
    cleanerReads terminal fs files = (lastMention terminal fs files).getD [] := by
  -- Each file replaces what was read before, or leaves it.
  have fold (texts : List Str) (installdir : Str) :
      texts.foldl (cleanerFile terminal fs) installdir =
        ((texts.filterMap (usableMention terminal fs)).getLast?).getD installdir := by
    induction texts generalizing installdir with
    | nil => rfl
    | cons text texts ih =>
      rw [List.foldl_cons, ih, cleanerFile_usable, List.filterMap_cons]
      cases usableMention terminal fs text with
      | none => rfl
      | some value =>
        rw [List.getLast?_cons]
        cases (texts.filterMap (usableMention terminal fs)).getLast? <;> rfl
  exact fold _ []

/-- The cleaner visits its fixed directories and the words of the value it has read. -/
theorem mem_cleanerWords_iff {dir : Str} (fs mounted : FileSystem) (files : List (Option Str)) :
    dir ∈ cleanerWords terminal fs mounted files ↔
      dir ∈ fixedDirs ∨ ∃ value, lastMention terminal fs files = some value ∧
        dir ∈ (fields value).flatMap (terminal.expand mounted) := by
  -- The fixed directories are plain words and expand to themselves.
  have fixed : fixedDirs.flatMap (terminal.expand mounted) = fixedDirs := by
    have same : ∀ word ∈ fixedDirs, terminal.expand mounted word = [word] :=
      fun word member => terminal.expand_word mounted word (fixedDirs_plain word member)
    rw [List.flatMap_congr same]
    exact List.flatMap_singleton' _
  rw [cleanerWords, cleanerDirs_eq, cleanerReads_eq, List.flatMap_append, ← fixedDirs, fixed,
    List.mem_append]
  cases lastMention terminal fs files with
  | none => simp [fields]
  | some value => simp

/-- A directory that no configuration names is one of the fixed ones. -/
theorem baseDir_search {fs : FileSystem} {installdir : Str} {choice : BaseChoice}
    (chosen : baseDir terminal fs installdir = some choice) (search : choice.origin = .search) :
    choice.installdir ∈ fixedDirs := by
  unfold baseDir at chosen
  split at chosen
  · split at chosen
    · rename_i dir found
      obtain rfl := Option.some.inj chosen
      exact possibleInstalldirs_fixed dir (List.mem_of_find?_eq_some found)
    · obtain ⟨next, -, rfl⟩ := Option.map_eq_some_iff.mp chosen
      exact fallbackDir_fixed
  · obtain rfl := Option.some.inj chosen
    exact absurd search (by simp)

/-! ## What a visit leaves behind -/

section Gone

variable {odd : FileSystem → ℕ → Str → Bool}

/-- A visit leaves no busybox under its path, unless that is a directory. -/
theorem cleanDir_gone {state : State} {dir : Str} (nonempty : dir ≠ [])
    (file : ∀ d i, state.fs.lookup state.cwd dir = .found d → state.fs.entry d busybox = some i →
      state.fs.isDirectory i = false) :
    (cleanDir odd state dir).fs.pathExists state.cwd (inDirectory dir) = false := by
  cases present : state.fs.pathExists state.cwd (inDirectory dir) with
  | false => rwa [cleanDir, present, if_neg Bool.false_ne_true]
  | true =>
    obtain ⟨d, j, visited, leads, entered⟩ := entered_of_present nonempty present
    -- The visit has removed the busybox of the directory the path leads to.
    have removed : (cleanDir odd state dir).fs.entry d busybox = none :=
      cleanDir_removes_busybox present entered fun k there => file d k visited there
    rw [← Bool.not_eq_true]
    intro again
    -- A path to another busybox would have led there before the visit as well.
    obtain ⟨e, l, visitedAgain, leadsAgain, -⟩ := entered_of_present nonempty again
    have single : ∀ other ∈ [dir], other ≠ [] := by simpa using nonempty
    have shrinks : Extends (cleanDir odd state dir).fs state.fs :=
      extends_cleanLoop odd single state
    have same : Lookup.found e = .found d :=
      (shrinks.lookup_found visitedAgain).symm.trans visited
    rw [Lookup.found.inj same, removed] at leadsAgain
    exact absurd leadsAgain (by simp)

/-- After the loop no listed path leads to a busybox. -/
theorem cleanLoop_gone {dirs : List Str} (nonempty : ∀ dir ∈ dirs, dir ≠ []) {state : State}
    {dir : Str} (listed : dir ∈ dirs) (absolute : dir.head? = some '/')
    (file : ∀ d i, state.fs.lookup root dir = .found d → state.fs.entry d busybox = some i →
      state.fs.isDirectory i = false) (cwd : ℕ) :
    (cleanLoop odd dirs state).fs.pathExists cwd (inDirectory dir) = false := by
  have absoluteBusybox : (inDirectory dir).head? = some '/' := by
    rw [inDirectory, List.head?_append, absolute]
    rfl
  induction dirs generalizing state with
  | nil => exact absurd listed (by simp)
  | cons first dirs ih =>
    have rest : ∀ other ∈ dirs, other ≠ [] :=
      fun other member => nonempty other (List.mem_cons_of_mem _ member)
    rw [cleanLoop_cons]
    rcases List.mem_cons.mp listed with rfl | later
    · have gone : (cleanDir odd state dir).fs.pathExists state.cwd (inDirectory dir) = false := by
        apply cleanDir_gone (nonempty dir (by simp))
        intro d i found
        rw [lookup_absolute state.fs absolute state.cwd root] at found
        exact file d i found
      rw [← Bool.not_eq_true] at gone ⊢
      intro again
      apply gone
      obtain ⟨i, found⟩ := pathExists_iff.mp again
      rw [lookup_absolute _ absoluteBusybox cwd state.cwd] at found
      exact pathExists_iff.mpr
        ⟨i, (extends_cleanLoop odd rest (cleanDir odd state dir)).lookup_found found⟩
    · have single : ∀ other ∈ [first], other ≠ [] := by simpa using nonempty first (by simp)
      have shrinks : Extends (cleanDir odd state first).fs state.fs :=
        extends_cleanLoop odd single state
      -- Deleting makes no directory out of a file.
      have kinds (i : ℕ) : (cleanDir odd state first).fs.isDirectory i =
          state.fs.isDirectory i := (cleanLoop_busybox single state).isDirectory_eq i
      apply ih rest later
      intro d i found leads
      rw [kinds]
      exact file d i (shrinks.lookup_found found) (shrinks.entry _ _ _ leads)

end Gone

end Cleaner

/-! ## Agreement -/

section Agreement

variable {cwd wd : ℕ} (terminal : Terminal cwd) (cleaner : Terminal wd)
  (odd : FileSystem → ℕ → Str → Bool)

/-- The cleaner visits a directory, and then its busybox is gone. This is said of
absolute paths, and of a busybox that is no directory itself. -/
structure Cleans (fs mounted : FileSystem) (files : List (Option Str)) (dir : Str) : Prop where
  listed : dir ∈ cleanerWords cleaner fs mounted files
  gone : dir.head? = some '/' → mounted.isDirectoryPath root (inDirectory dir) = false → ∀ e,
    (cleanLoop odd (cleanerWords cleaner fs mounted files) ⟨mounted, wd, 0⟩).fs.pathExists e
      (inDirectory dir) = false

/-- A directory that is listed is cleaned. -/
theorem cleans_of_listed {fs mounted : FileSystem} {files : List (Option Str)} {dir : Str}
    (listed : dir ∈ cleanerWords cleaner fs mounted files) :
    Cleans cleaner odd fs mounted files dir := by
  refine ⟨listed, ?_⟩
  intro absolute notDirectory
  apply cleanLoop_gone (cleanerWords_nonempty cleaner) listed absolute
  intro d i found leads
  rw [← Bool.not_eq_true]
  intro directory
  -- A directory is no link, so the path leads to this very node.
  have notLink : mounted.target i = none := by
    obtain ⟨writable, kind⟩ := isDirectory_iff.mp directory
    rw [FileSystem.target, kind]
  have path : mounted.lookup root (inDirectory dir) = .found i :=
    lookup_slash_entry found leads notLink
  rw [isDirectoryPath, path] at notDirectory
  exact absurd directory (by simp [notDirectory])

end Agreement

/-- A configuration that names a directory once. -/
def plainConf : List (Option Str) := [none, some "noclean\ninstalldir=/data\n".toList, none]

end BbBot.Installer
