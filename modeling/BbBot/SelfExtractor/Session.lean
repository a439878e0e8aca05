/-
# Where busybox goes, and what was cleaned

A session reads the configuration and the options, chooses a directory, cleans
a list of directories and then, in interactive mode, lets the user change the
directory. The list is put together before the change, from the directory that the
configuration or the options name and from fixed ones.

The cleaning loop also changes the working directory, so a relative path may not
lead to the same place before and after it.
-/

import BbBot.Cleaning.Exact
import BbBot.SelfExtractor.Dialogue

namespace BbBot.SelfExtractor

open BbBot.Unix BbBot.Unix.FileSystem BbBot.Installer BbBot.Cleaning

/-! ## The directories that are visited -/

section Visits

variable (odd : FileSystem → ℕ → Str → Bool)

/-- The directories that the cleaning loop comes to, whether it finds a busybox there
or not. -/
def visits : List Str → State → List ℕ
  | [], _ => []
  | dir :: dirs, state =>
    (match state.fs.lookup state.cwd dir with
      | .found d => [d]
      -- A path that leads nowhere is not visited, and the loop goes on.
      | _ => []) ++ visits dirs (cleanDir odd state dir)

variable {odd}

theorem mem_visits_cons {dir : Str} {dirs : List Str} {state : State} {d : ℕ}
    (found : state.fs.lookup state.cwd dir = .found d) : d ∈ visits odd (dir :: dirs) state := by
  rw [visits, found]
  simp

theorem mem_visits_of_tail {dir : Str} {dirs : List Str} {state : State} {d : ℕ}
    (later : d ∈ visits odd dirs (cleanDir odd state dir)) :
    d ∈ visits odd (dir :: dirs) state := by
  rw [visits]
  exact List.mem_append_right _ later

/-- A directory is skipped, or entered and visited. -/
theorem cleanDir_cwd {dir : Str} (nonempty : dir ≠ []) (dirs : List Str) (state : State) :
    cleanDir odd state dir = state ∨
      (cleanDir odd state dir).cwd ∈ visits odd (dir :: dirs) state := by
  cases present : state.fs.pathExists state.cwd (inDirectory dir) with
  | false =>
    left
    rw [cleanDir, present, if_neg Bool.false_ne_true]
  | true =>
    right
    obtain ⟨d, j, visited, leads, entered⟩ := entered_of_present nonempty present
    -- `cd` into the directory is never undone.
    have cwd : (cleanDir odd state dir).cwd = d := by
      rw [cleanDir, if_pos present, entered]
    rw [cwd]
    exact mem_visits_cons visited

/-- The loop changes nothing, or ends in a directory that it visited. -/
theorem cleanLoop_cwd {dirs : List Str} (nonempty : ∀ dir ∈ dirs, dir ≠ []) (state : State) :
    cleanLoop odd dirs state = state ∨
      (cleanLoop odd dirs state).cwd ∈ visits odd dirs state := by
  induction dirs generalizing state with
  | nil => exact Or.inl rfl
  | cons dir dirs ih =>
    have rest := ih (fun other member => nonempty other (List.mem_cons_of_mem _ member))
      (cleanDir odd state dir)
    rw [cleanLoop_cons]
    -- Nothing moved after this directory, or the last move was a later one.
    rcases rest with same | later
    · rw [same]
      exact cleanDir_cwd (nonempty dir (by simp)) dirs state
    · exact Or.inr (mem_visits_of_tail later)

/-- What an absolute path leads to after the loop was visited under that path. -/
theorem mem_visits_of_lookup {dirs : List Str} (nonempty : ∀ dir ∈ dirs, dir ≠ [])
    {state : State} {dir : Str} {cwd d : ℕ} (listed : dir ∈ dirs)
    (absolute : dir.head? = some '/')
    (found : (cleanLoop odd dirs state).fs.lookup cwd dir = .found d) :
    d ∈ visits odd dirs state := by
  induction dirs generalizing state with
  | nil => exact absurd listed (by simp)
  | cons first dirs ih =>
    rcases List.mem_cons.mp listed with rfl | later
    · -- Deleting never redirects a path, so it led there at its turn as well.
      apply mem_visits_cons
      rw [lookup_absolute state.fs absolute state.cwd cwd]
      exact (extends_cleanLoop odd nonempty state).lookup_found found
    · exact mem_visits_of_tail (ih
        (fun other member => nonempty other (List.mem_cons_of_mem _ member)) later found)

/-- Where no directory has a busybox, the loop changes nothing. -/
theorem cleanLoop_of_none {dirs : List Str} {state : State}
    (none : ∀ dir ∈ dirs, state.fs.pathExists state.cwd (inDirectory dir) = false) :
    cleanLoop odd dirs state = state := by
  induction dirs with
  | nil => rfl
  | cons dir dirs ih =>
    have skipped : cleanDir odd state dir = state := by
      rw [cleanDir, none dir (by simp), if_neg Bool.false_ne_true]
    rw [cleanLoop_cons, skipped]
    exact ih fun other member => none other (List.mem_cons_of_mem _ member)

theorem mem_visits_of_none {dirs : List Str} {state : State} {dir : Str} {d : ℕ}
    (none : ∀ dir ∈ dirs, state.fs.pathExists state.cwd (inDirectory dir) = false)
    (listed : dir ∈ dirs) (found : state.fs.lookup state.cwd dir = .found d) :
    d ∈ visits odd dirs state := by
  induction dirs with
  | nil => exact absurd listed (by simp)
  | cons first dirs ih =>
    rcases List.mem_cons.mp listed with rfl | later
    · exact mem_visits_cons found
    · have skipped : cleanDir odd state first = state := by
        rw [cleanDir, none first (by simp), if_neg Bool.false_ne_true]
      apply mem_visits_of_tail
      rw [skipped]
      exact ih (fun other member => none other (List.mem_cons_of_mem _ member)) later

/-- A path that is listed leads to a visited directory when the loop is over, or to
none and then the loop has stopped in a visited one. The path is absolute, or the
loop never leaves its directory. -/
theorem cd_mem_visits {dirs : List Str} (nonempty : ∀ dir ∈ dirs, dir ≠ []) {state : State}
    {dir : Str} (listed : dir ∈ dirs) (leads : LeadsToDir state.fs state.cwd dir)
    (fixed : dir.head? = some '/' ∨
      ∀ dir ∈ dirs, state.fs.pathExists state.cwd (inDirectory dir) = false) :
    (cleanLoop odd dirs state).fs.cd (cleanLoop odd dirs state).cwd dir ∈
      visits odd dirs state := by
  obtain ⟨d, found, directory⟩ := leads
  have there : state.fs.cd state.cwd dir = d := cd_of_found found directory
  rcases fixed with absolute | none
  · have stops : cleanLoop odd dirs state = state ∨
        (cleanLoop odd dirs state).cwd ∈ visits odd dirs state := cleanLoop_cwd nonempty state
    rcases stops with same | moved
    · rw [same, there]
      exact mem_visits_of_lookup nonempty listed absolute (same.symm ▸ found)
    -- Where the path leads nowhere by now, `cd` fails and the loop's last directory stays.
    · rw [FileSystem.cd]
      split
      · rename_i e later
        split
        · exact mem_visits_of_lookup nonempty listed absolute later
        · exact moved
      · exact moved
  · rw [cleanLoop_of_none none, there]
    exact mem_visits_of_none none listed found

end Visits

/-! ## The session -/

/-- What is extracted into the temporary directory. Directories stay. -/
structure Extraction (cwd : ℕ) where
  run : FileSystem → Option FileSystem
  keeps : ∀ fs next path, run fs = some next → LeadsToDir fs cwd path → LeadsToDir next cwd path

/-- The directory for the installation, and the one that is cleaned because the
configuration or an option names it. -/
structure Choice where
  installdir : Str
  userInstalldir : Str
  fs : FileSystem

/-- The directory that is created when there is none. -/
def fallbackDir : Str := "/system/xbin".toList

/-- Choose the directory. None when it cannot be created. -/
def chooseDir {cwd : ℕ} (terminal : Terminal cwd) (fs : FileSystem) (installdir : Str) :
    Option Choice :=
  if terminal.isNoDir installdir then
    -- The first directory of the list that is accessible, and `mkdir` when there is none.
    match (fields seeInstalldirs).find? (terminal.isAccessible fs) with
    | some dir => some ⟨dir, [], fs⟩
    | none => (terminal.mkdir fs fallbackDir).map fun next => ⟨fallbackDir, [], next⟩
  else some ⟨installdir, installdir, fs⟩

/-- The words of `$POSSIBLE_CLEANDIRS`. -/
def cleanDirs {cwd : ℕ} (terminal : Terminal cwd) (choice : Choice) : List Str :=
  (installerDirs choice.userInstalldir seeInstalldirs).flatMap (terminal.expand choice.fs)

/-- `NOCLEAN` after the answer to the second question. -/
def cleanAnswer (answer : Str) (noclean : Bool) : Bool :=
  match answer with
  | '1' :: _ => false
  | '2' :: _ => true
  | _ => noclean

/-- `INSTALLDIR` after the dialogue, which takes place in interactive mode only. -/
def askDir {cwd : ℕ} (terminal : Terminal cwd) (fs : FileSystem) (answers : ℕ → Str) (fuel : ℕ)
    (interactive : Bool) (installdir : Str) : Option Str :=
  if interactive then (dialogue terminal fs answers fuel 0 installdir).map Prod.snd
  else some installdir

/-- What a session has come to when it starts to install. -/
structure Session where
  settings : SeeSettings FileSystem
  noclean : Bool
  dirs : List Str
  start : State
  after : State
  installdir : Str

section Session

-- The shell in every directory, the loop's condition on operators, and the temporary
-- directory.
variable (terminal : (cwd : ℕ) → Terminal cwd) (odd : FileSystem → ℕ → Str → Bool) {cwd : ℕ}
  (extraction : Extraction cwd)

/-- The script up to the installation. None when it ends before, or asks for more
answers than `fuel` rounds. The first answer is about SELinux. -/
def session (fuel : ℕ) (files : List (Option Str)) (args : List Str) (answers : ℕ → Str)
    (fs : FileSystem) : Option Session := do
  let settings ← seeOptions (terminal cwd).toShell files args fs
  let extracted ← extraction.run settings.state
  let choice ← chooseDir (terminal cwd) extracted settings.installdir
  let noclean :=
    if settings.interactive then cleanAnswer (answers 1) settings.noclean else settings.noclean
  -- The list is fixed before the user is asked for another directory.
  let dirs := cleanDirs (terminal cwd) choice
  let start : State := ⟨choice.fs, cwd, 0⟩
  let after := if noclean then start else cleanLoop odd dirs start
  let installdir ← askDir (terminal after.cwd) after.fs (fun k => answers (k + 2)) fuel
    settings.interactive choice.installdir
  return ⟨settings, noclean, dirs, start, after, installdir⟩

/-- The directory into which busybox is copied, after `cd $INSTALLDIR`. -/
def target (s : Session) : ℕ := (terminal s.after.cwd).cd s.after.fs s.installdir

/-- The user changes the directory to one of the list, if at all. The directory is a
plain word, and absolute unless there is nothing to clean. -/
structure KeepsToList (s : Session) : Prop where
  listed : s.settings.interactive = true →
    s.installdir ∈ s.dirs ∧ LeadsToDir s.start.fs s.start.cwd s.installdir
  plain : PlainWord s.installdir
  fixed : s.installdir.head? = some '/' ∨
    ∀ dir ∈ s.dirs, s.start.fs.pathExists s.start.cwd (inDirectory dir) = false

/-! ## The directory before the cleaning -/

/-- A plain directory that was set is there. -/
def DirThere (cwd : ℕ) (settings : Settings FileSystem) : Prop :=
  settings.installdir ≠ noDir → PlainWord settings.installdir →
    LeadsToDir settings.state cwd settings.installdir

variable {terminal}

theorem setInstalldir_dirThere (shell : DeviceShell cwd) {value : Str}
    {settings next : Settings FileSystem} (there : DirThere cwd settings)
    (result : setInstalldir shell.toShell value settings = .ok next) : DirThere cwd next := by
  unfold setInstalldir at result
  split_ifs at result with empty exists_ accessible
  · exact Except.ok.inj result ▸ there
  · obtain rfl := Except.ok.inj result
    intro _ plain
    exact shell.leadsToDir_of_isAccessible plain accessible
  · exact Except.ok.inj result ▸ there
  · split at result
    · rename_i made
      obtain rfl := Except.ok.inj result
      intro _ plain
      exact shell.leadsToDir_of_mkdir plain made
    · exact absurd result (by simp)

theorem seeWord_dirThere (shell : DeviceShell cwd) {line : Str}
    {settings next : Settings FileSystem} (there : DirThere cwd settings)
    (result : seeWord shell.toShell settings line = .ok next) : DirThere cwd next := by
  unfold seeWord at result
  dsimp only at result
  split_ifs at result
  · exact Except.ok.inj result ▸ there
  · exact Except.ok.inj result ▸ there
  · exact Except.ok.inj result ▸ there
  · exact setInstalldir_dirThere shell there result
  · exact Except.ok.inj result ▸ there

theorem readArg_dirThere (shell : DeviceShell cwd) {arg : Str}
    {settings next : SeeSettings FileSystem} (there : DirThere cwd settings.toSettings)
    (result : readArg shell.toShell settings arg = .ok next) : DirThere cwd next.toSettings := by
  have effect := readArg_effect shell.toShell result
  cases installdir : isInstalldirArg arg with
  | false =>
    unfold DirThere
    rw [effect.installdir installdir, effect.state installdir]
    exact there
  | true =>
    rw [(readArg_installdir shell.toShell _ installdir).1, argInstalldir] at result
    split_ifs at result with empty exists_ accessible
    · obtain rfl := Except.ok.inj result
      intro _ plain
      exact shell.leadsToDir_of_isAccessible plain accessible
    · split at result
      · rename_i made
        obtain rfl := Except.ok.inj result
        intro named plain
        -- The directory of before is kept, on a device that has one more.
        exact (there named plain).mono (shell.extends_mkdir _ _ _ made)
      · exact absurd result (by simp)

/-- A directory that the configuration or an option sets is there when they are read. -/
theorem seeOptions_dirThere (shell : DeviceShell cwd) {files : List (Option Str)}
    {args : List Str} {fs : FileSystem} {settings : SeeSettings FileSystem}
    (ends : seeOptions shell.toShell files args fs = some settings) :
    DirThere cwd settings.toSettings := by
  obtain ⟨conf, read, configured, readEnds, rfl⟩ := seeOptions_eq_some shell.toShell ends
  -- Word by word, from a directory that is not set.
  have fromConf : DirThere cwd conf := by
    apply readAll_invariant (DirThere cwd) _ _ configured
    · intro line _ settings next there result
      exact seeWord_dirThere shell there result
    · intro named
      exact absurd rfl named
  -- Argument by argument, from what the configuration has left.
  have fromArgs : DirThere cwd read.toSettings := by
    apply readAll_invariant (fun s : SeeSettings FileSystem => DirThere cwd s.toSettings) _ _
      readEnds
    · intro arg _ settings next there result
      exact readArg_dirThere shell there result
    · exact fromConf
  unfold DirThere
  rw [installdir_resetOptions, state_resetOptions]
  exact fromArgs

/-- A plain directory that is chosen is there, and it is cleaned. -/
theorem chooseDir_listed (terminal : Terminal cwd) {fs : FileSystem} {installdir : Str}
    {choice : Choice} (plain : PlainWord choice.installdir)
    (there : installdir ≠ noDir → PlainWord installdir → LeadsToDir fs cwd installdir)
    (chosen : chooseDir terminal fs installdir = some choice) :
    choice.installdir ∈ cleanDirs terminal choice ∧
      LeadsToDir choice.fs cwd choice.installdir := by
  have expanded {choice : Choice} (plain : PlainWord choice.installdir)
      (word : choice.installdir ∈ installerDirs choice.userInstalldir seeInstalldirs) :
      choice.installdir ∈ cleanDirs terminal choice := by
    apply List.mem_flatMap_of_mem word
    rw [terminal.expand_word _ _ plain]
    simp
  -- What the script falls back to is one of its own directories.
  have fallback : fallbackDir ∈ installerDirs [] seeInstalldirs := by
    rw [installerDirs_see]
    decide +kernel
  have defaults : ∀ dir ∈ fields seeInstalldirs, dir ∈ installerDirs [] seeInstalldirs := by
    rw [installerDirs_see]
    decide +kernel
  unfold chooseDir at chosen
  split at chosen
  · split at chosen
    · rename_i dir found
      obtain rfl := Option.some.inj chosen
      exact ⟨expanded plain (defaults dir (List.mem_of_find?_eq_some found)),
        terminal.leadsToDir_of_isAccessible plain (List.find?_some found)⟩
    · obtain ⟨next, made, rfl⟩ := Option.map_eq_some_iff.mp chosen
      exact ⟨expanded plain fallback, terminal.leadsToDir_of_mkdir plain made⟩
  · rename_i named
    obtain rfl := Option.some.inj chosen
    -- A directory that was named is first in the list.
    have notNone : installdir ≠ noDir := by
      rw [terminal.isNoDir_word installdir plain] at named
      simpa using named
    refine ⟨expanded plain ?_, there notNone plain⟩
    rw [installerDirs_see, fields_unsplit plain.1]
    exact List.mem_cons_self

/-! ## The directory after the cleaning -/

/-- What a session has done when it starts to install. -/
theorem session_eq_some {fuel : ℕ} {files : List (Option Str)} {args : List Str}
    {answers : ℕ → Str} {fs : FileSystem} {s : Session}
    (runs : session terminal odd extraction fuel files args answers fs = some s) :
    ∃ extracted choice, seeOptions (terminal cwd).toShell files args fs = some s.settings ∧
      extraction.run s.settings.state = some extracted ∧
      chooseDir (terminal cwd) extracted s.settings.installdir = some choice ∧
      s.dirs = cleanDirs (terminal cwd) choice ∧ s.start = ⟨choice.fs, cwd, 0⟩ ∧
      (s.noclean = false → s.after = cleanLoop odd s.dirs s.start) ∧
      (s.settings.interactive = false → s.installdir = choice.installdir) := by
  unfold session at runs
  obtain ⟨settings, options, runs⟩ := Option.bind_eq_some_iff.mp runs
  obtain ⟨extracted, extracts, runs⟩ := Option.bind_eq_some_iff.mp runs
  obtain ⟨choice, chosen, runs⟩ := Option.bind_eq_some_iff.mp runs
  obtain ⟨installdir, asked, runs⟩ := Option.bind_eq_some_iff.mp runs
  obtain rfl := Option.some.inj runs
  refine ⟨extracted, choice, options, extracts, chosen, rfl, rfl, ?_, ?_⟩
  · intro cleans
    dsimp only at cleans ⊢
    rw [cleans, if_neg Bool.false_ne_true]
  · intro silent
    dsimp only at silent ⊢
    rw [silent, askDir, if_neg Bool.false_ne_true] at asked
    exact (Option.some.inj asked).symm

theorem cleanDirs_nonempty (terminal : Terminal cwd) (choice : Choice) :
    ∀ dir ∈ cleanDirs terminal choice, dir ≠ [] := by
  intro dir member
  obtain ⟨word, inside, expanded⟩ := List.mem_flatMap.mp member
  exact terminal.expand_nonempty _ word (unsplit_of_mem_fields inside).1 dir expanded

variable (terminal)

end Session

/-! ## A device -/

/-- The busybox of the archive is put into the temporary directory. -/
def unpack (cwd : ℕ) : Extraction cwd where
  run := fun fs =>
    if fs.isDirectory cwd ∧ fs.entry cwd busybox = none then
      some (fs.create cwd busybox (.file true []))
    else none
  keeps := by
    intro fs next path ran leads
    split_ifs at ran with free
    exact leads.mono (Option.some.inj ran ▸ extends_create free.1 free.2 _)

/-- A device with a busybox in `/system/xbin`, a temporary directory and a directory
`bin` in each of them, and one that is not listed. -/
def usedDevice : FileSystem where
  nodes := [
    .directory true (entriesOf [(Name.named "system", 1), (Name.named "data", 3),
      (Name.named "tmp", 4)]),
    .directory true (entriesOf [(Name.named "xbin", 2)]),
    .directory true (entriesOf [(busybox, 5), (Name.named "bin", 6)]),
    .directory true (entriesOf []),
    .directory true (entriesOf [(Name.named "bin", 7)]),
    .leaf (.file true "ELF".toList),
    .directory true (entriesOf []),
    .directory true (entriesOf [])]
  linked := by decide

/-- The session on that device, from its temporary directory. -/
def usedSession (args : List Str) (answers : ℕ → Str) : Option Session :=
  session wordTerminal (fun _ _ _ => false) (unpack 4) 1 [] args answers usedDevice

/-- The directory of busybox, and the directories that were visited. -/
def Session.places (s : Session) : ℕ × List ℕ :=
  (SelfExtractor.target wordTerminal s, visits (fun _ _ _ => false) s.dirs s.start)

end BbBot.SelfExtractor
