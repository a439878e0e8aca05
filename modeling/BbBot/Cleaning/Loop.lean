/-
# The cleaning loop

`base_installer.sh`, `cleaner.sh` and the self-extracting installer remove an
older installation with the same loop. In every listed directory that has a
busybox, the names that `ls` prints without `busybox` in them are cut into words,
and a word is removed when it is the same file as the directory's busybox, or an
executable file that starts with the directory's busybox as interpreter. The
busybox itself and `ssl_helper` go last.

Each test reads the file system the loop has been deleting from. Deleting never
redirects a path, so a test that succeeds then would have succeeded before the
loop, and nothing is removed that was not an applet or one of the two binaries
at the start.
-/

import BbBot.Unix.Commands

namespace BbBot.Cleaning

open BbBot.Unix BbBot.Unix.FileSystem

/-- The installed binary. -/
def busybox : Name := ⟨"busybox".toList, by decide⟩

/-- The helper that is installed next to it. -/
def sslHelper : Name := ⟨"ssl_helper".toList, by decide⟩

theorem sslHelper_ne_busybox : sslHelper ≠ busybox := by decide

/-- The path of the busybox in a directory. -/
def inDirectory (dir : Str) : Str := dir ++ '/' :: busybox.1

/-- The first line of a wrapper script for the busybox in a directory. -/
def shebang (dir : Str) : Str := "#!".toList ++ inDirectory dir

/-- The words of `$(ls | grep -v busybox)`. -/
def cleanWords (fs : FileSystem) (d : ℕ) : List Str :=
  (fields (grepV busybox.1 (fs.ls d))).flatMap (fs.expand d)

/-! ## The directories -/

/-- `POSSIBLE_INSTALLDIRS` of `base_installer.sh`. -/
def possibleInstalldirs : Str :=
  ("/su/xbin /data/adb/su/xbin /system/xbin /su/bin /data/adb/su/bin /system/bin " ++
    "/system/vendor/bin /vendor/bin").toList

/-- `POSSIBLE_INSTALLDIRS` of the self-extracting installer. -/
def seeInstalldirs : Str :=
  "/su/xbin /data/adb/su/xbin /system/xbin /system/vendor/bin /vendor/bin".toList

/-- The words of `POSSIBLE_CLEANDIRS` in the two installers. -/
def installerDirs (user installdirs : Str) : List Str :=
  fields (user ++ ' ' :: installdirs ++ (" /data/adb/su/bin /system/bin /su/bin " ++
    "/magisk/phh/bin /su/xbin_bind /data/adb/su/xbin_bind").toList)

/-- The words of `POSSIBLE_CLEANDIRS` in `cleaner.sh`. -/
def cleanerDirs (installdir : Str) : List Str :=
  fields (("/su/xbin /data/adb/su/xbin /system/xbin /system/vendor/bin /vendor/bin " ++
    "/data/adb/su/bin /system/bin /su/bin /magisk/phh/bin /su/xbin_bind " ++
    "/data/adb/su/xbin_bind ").toList ++ installdir)

/-- The words of a list are not empty. -/
theorem cleanerDirs_ne_nil {installdir : Str} : ∀ dir ∈ cleanerDirs installdir, dir ≠ [] :=
  fun _ member => (unsplit_of_mem_fields member).1

theorem installerDirs_ne_nil {user installdirs : Str} :
    ∀ dir ∈ installerDirs user installdirs, dir ≠ [] :=
  fun _ member => (unsplit_of_mem_fields member).1

/-- The directories that the cleaner visits without a configuration. -/
theorem cleanerDirs_nil : cleanerDirs [] =
    ["/su/xbin".toList, "/data/adb/su/xbin".toList, "/system/xbin".toList,
      "/system/vendor/bin".toList, "/vendor/bin".toList, "/data/adb/su/bin".toList,
      "/system/bin".toList, "/su/bin".toList, "/magisk/phh/bin".toList, "/su/xbin_bind".toList,
      "/data/adb/su/xbin_bind".toList] := by
  rw [cleanerDirs, String.toList_append, String.toList_append]
  decide +kernel

/-- A directory of the user comes last. -/
theorem cleanerDirs_eq (installdir : Str) :
    cleanerDirs installdir = cleanerDirs [] ++ fields installdir := by
  obtain ⟨front, ends⟩ : ∃ front, "/data/adb/su/xbin_bind ".toList = front ++ [' '] :=
    ⟨_, (List.dropLast_append_getLast? ' ' (by decide)).symm⟩
  have blank : isBlank ' ' = true := by decide
  have append (texts back : Str) :
      texts ++ (front ++ [' ']) ++ back = texts ++ front ++ ' ' :: back := by
    simp
  rw [cleanerDirs, cleanerDirs, String.toList_append, ends, append, append, fields_append _ blank,
    fields_append _ blank]
  simp [fields]

/-- The directories that the self-extracting installer cleans, the user's one first. -/
theorem installerDirs_see (user : Str) : installerDirs user seeInstalldirs =
    fields user ++ ["/su/xbin".toList, "/data/adb/su/xbin".toList, "/system/xbin".toList,
      "/system/vendor/bin".toList, "/vendor/bin".toList, "/data/adb/su/bin".toList,
      "/system/bin".toList, "/su/bin".toList, "/magisk/phh/bin".toList, "/su/xbin_bind".toList,
      "/data/adb/su/xbin_bind".toList] := by
  have fixed : fields (seeInstalldirs ++ (" /data/adb/su/bin /system/bin /su/bin ".toList ++
      "/magisk/phh/bin /su/xbin_bind /data/adb/su/xbin_bind".toList)) =
        ["/su/xbin".toList, "/data/adb/su/xbin".toList, "/system/xbin".toList,
          "/system/vendor/bin".toList, "/vendor/bin".toList, "/data/adb/su/bin".toList,
          "/system/bin".toList, "/su/bin".toList, "/magisk/phh/bin".toList,
          "/su/xbin_bind".toList, "/data/adb/su/xbin_bind".toList] := by
    decide +kernel
  rw [installerDirs, List.append_assoc, List.cons_append, fields_append _ (by decide),
    String.toList_append, fixed]

/-! ## The loop -/

section Loop

-- The outcome of the loop's condition for a word that `[` parses as an operator.
variable (odd : FileSystem → ℕ → Str → Bool)

/-- `[ "$k" -ef "busybox" -o -x $k -a "$(head -n 1 $k)" == "#!$dir/busybox" ]`. -/
def cleanTest (fs : FileSystem) (d : ℕ) (dir k : Str) : Bool :=
  if k ∈ testOperators then odd fs d k
  else
    -- `-a` binds tighter than `-o`. The first line is quoted, and the word is not.
    fs.sameFile d k busybox.1 || (fs.isExecutablePath d k && fs.head d k == shebang dir)

/-- The file system and the number of words removed so far. -/
def cleanStep (d : ℕ) (dir : Str) (state : FileSystem × ℕ) (k : Str) : FileSystem × ℕ :=
  if cleanTest odd state.1 d dir k then (state.1.rm d k, state.2 + 1) else state

/-- The loop over the words of one directory. -/
def cleanEntries (fs : FileSystem) (d : ℕ) (dir : Str) : FileSystem × ℕ :=
  (cleanWords fs d).foldl (cleanStep odd d dir) (fs, 0)

/-- What the loop over the directories carries along. -/
structure State where
  fs : FileSystem
  cwd : ℕ
  total : ℕ

/-- One iteration: `$dir` is skipped unless it has a busybox. -/
def cleanDir (state : State) (dir : Str) : State :=
  if state.fs.pathExists state.cwd (inDirectory dir) then
    let d := state.fs.cd state.cwd dir
    let cleaned := cleanEntries odd state.fs d dir
    -- `rm -f busybox ssl_helper`, inside of the directory.
    { fs := (cleaned.1.rm d busybox.1).rm d sslHelper.1
      cwd := d
      total := state.total + cleaned.2 }
  else state

/-- The loop over `$POSSIBLE_CLEANDIRS`. -/
def cleanLoop (dirs : List Str) (state : State) : State := dirs.foldl (cleanDir odd) state

end Loop

/-! ## What may be removed -/

/-- The name leads to the same file as the busybox of the directory. -/
def Linked (fs : FileSystem) (d : ℕ) (name : Name) : Prop :=
  ∃ i, fs.lookup d name.1 = .found i ∧ fs.lookup d busybox.1 = .found i

/-- The name leads to an executable whose first line names `dir/busybox`. -/
def Wraps (fs : FileSystem) (dir : Str) (d : ℕ) (name : Name) : Prop :=
  ∃ i content, fs.lookup d name.1 = .found i ∧ fs.kind i = some (.file true content) ∧
    firstLine content = shebang dir

/-- The names of a directory, visited as `dir`, that the loop looks for. -/
def Matches (fs : FileSystem) (dir : Str) (d : ℕ) (name : Name) : Prop :=
  Linked fs d name ∨ Wraps fs dir d name

/-- The entries of a directory, visited as `dir`, that belong to its busybox. -/
def Belongs (fs : FileSystem) (dir : Str) (d : ℕ) (name : Name) : Prop :=
  name = busybox ∨ name = sslHelper ∨ Matches fs dir d name

/-- The directory is visited as one of the listed paths, has a busybox, and the
entry belongs to it. -/
def Cleanable (fs : FileSystem) (dirs : List Str) (d : ℕ) (name : Name) : Prop :=
  ∃ dir ∈ dirs, (∃ cwd, fs.lookup cwd dir = .found d) ∧ (∃ i, fs.entry d busybox = some i) ∧
    Belongs fs dir d name

/-- What matches after entries were deleted did so before. -/
theorem Matches.of_extends {small large : FileSystem} (grows : Extends small large) {dir : Str}
    {d : ℕ} {name : Name} : Matches small dir d name → Matches large dir d name := by
  rintro (⟨i, found, same⟩ | ⟨i, content, found, script, first⟩)
  · exact Or.inl ⟨i, grows.lookup_found found, grows.lookup_found same⟩
  · exact Or.inr ⟨i, content, grows.lookup_found found, grows.kind _ _ script, first⟩

theorem shebang_ne_nil (dir : Str) : shebang dir ≠ [] := by
  simp [shebang, inDirectory]

/-- The condition holds only of names that match. -/
theorem matches_of_cleanTest {odd : FileSystem → ℕ → Str → Bool} {fs : FileSystem} {d : ℕ}
    {dir : Str} {name : Name} (operand : name.1 ∉ testOperators)
    (holds : cleanTest odd fs d dir name.1 = true) : Matches fs dir d name := by
  rw [cleanTest, if_neg operand, Bool.or_eq_true, Bool.and_eq_true, beq_iff_eq] at holds
  rcases holds with same | ⟨executable, first⟩
  · exact Or.inl (sameFile_iff.mp same)
  · rw [isExecutablePath] at executable
    rw [head] at first
    split at first
    -- `head` takes the word for options and prints nothing.
    · exact absurd first.symm (shebang_ne_nil dir)
    · split at executable
      · rename_i i found
        rw [found] at first
        dsimp only at first
        split at executable
        · rename_i flag content kind
          rw [contentOf, kind] at first
          exact Or.inr ⟨i, content, found, executable ▸ kind, first⟩
        · -- A directory passes `-x` but has no first line.
          rename_i writable kind
          rw [contentOf, kind] at first
          exact absurd first.symm (shebang_ne_nil dir)
        · exact absurd executable (by simp)
      · exact absurd executable (by simp)

/-! ## One directory, then all of them -/

theorem cleanLoop_cons (odd : FileSystem → ℕ → Str → Bool) (dir : Str) (dirs : List Str)
    (state : State) :
    cleanLoop odd (dir :: dirs) state = cleanLoop odd dirs (cleanDir odd state dir) := rfl

theorem cleanLoop_append (odd : FileSystem → ℕ → Str → Bool) (before after : List Str)
    (state : State) :
    cleanLoop odd (before ++ after) state = cleanLoop odd after (cleanLoop odd before state) :=
  List.foldl_append ..

/-- A directory whose busybox is found is the one that is entered. -/
theorem entered_of_present {fs : FileSystem} {cwd : ℕ} {dir : Str} (nonempty : dir ≠ [])
    (present : fs.pathExists cwd (inDirectory dir) = true) :
    ∃ d j, fs.lookup cwd dir = .found d ∧ fs.entry d busybox = some j ∧ fs.cd cwd dir = d := by
  obtain ⟨i, found⟩ := pathExists_iff.mp present
  obtain ⟨d, j, visited, leads⟩ := lookup_append_name nonempty found
  exact ⟨d, j, visited, leads, cd_of_found visited (isDirectory_of_entry leads)⟩

/-- The names the loop can handle as words: no pattern characters, and no word
that the condition would parse as an operator. -/
def Ordinary (name : Name) : Prop := Literal name.1 ∧ ∀ k ∈ fields name.1, k ∉ testOperators

instance (name : Name) : Decidable (Ordinary name) :=
  inferInstanceAs (Decidable (Literal name.1 ∧ ∀ k ∈ fields name.1, k ∉ testOperators))

/-- Without pattern characters, the words are the fields of what `ls` prints. -/
theorem cleanWords_literal {fs : FileSystem} {d : ℕ}
    (literal : ∀ name ∈ fs.names d, Literal name.1) :
    cleanWords fs d = fields (grepV busybox.1 (fs.ls d)) := by
  have expanded : ∀ word ∈ fields (grepV busybox.1 (fs.ls d)), fs.expand d word = [word] := by
    intro word inside
    have printed := mem_fields_of_mem_grepV inside
    rw [ls, fields_output_eq_flatMap] at printed
    obtain ⟨line, isName, field⟩ := List.mem_flatMap.mp printed
    obtain ⟨name, listed, rfl⟩ := List.mem_map.mp isName
    obtain ⟨star, mark, close⟩ := literal name (mem_listed_iff.mp listed).1
    exact fs.expand_literal d ⟨fun h => star (mem_of_mem_fields field h),
      fun h => mark (mem_of_mem_fields field h), fun h => close (mem_of_mem_fields field h)⟩
  rw [cleanWords, List.flatMap_congr expanded]
  simp

/-- Every word comes from a name of the directory. -/
theorem exists_name_of_mem_cleanWords {fs : FileSystem} {d : ℕ} {k : Str}
    (literal : ∀ name ∈ fs.names d, Literal name.1) (member : k ∈ cleanWords fs d) :
    ∃ name ∈ fs.names d, k ∈ fields name.1 := by
  rw [cleanWords_literal literal] at member
  have printed := mem_fields_of_mem_grepV member
  rw [ls, fields_output_eq_flatMap] at printed
  obtain ⟨line, isName, field⟩ := List.mem_flatMap.mp printed
  obtain ⟨name, listed, rfl⟩ := List.mem_map.mp isName
  exact ⟨name, (mem_listed_iff.mp listed).1, field⟩

section Frame

variable {odd : FileSystem → ℕ → Str → Bool} {initial : FileSystem} {d : ℕ} {dir : Str}
  {gone : ℕ → Name → Prop}

/-- One word: the loop removes at most an entry that matched at the start. -/
theorem cleanStep_trimmed {state : FileSystem × ℕ} {k : Str} (operand : k ∉ testOperators)
    (allowed : ∀ name : Name, name.1 = k → Matches initial dir d name → gone d name)
    (trimmed : Trimmed gone initial state.1) :
    Trimmed gone initial (cleanStep odd d dir state k).1 := by
  unfold cleanStep
  split
  · rename_i holds
    -- The test was made on what is left, and matches are found in larger file systems too.
    refine trimmed.trans (trimmed_rm k fun name named => allowed name named ?_)
    subst named
    exact (matches_of_cleanTest operand holds).of_extends trimmed.extends_
  · exact trimmed

/-- All words of a directory. -/
theorem cleanSteps_trimmed {words : List Str} (operands : ∀ k ∈ words, k ∉ testOperators)
    (allowed : ∀ name : Name, name.1 ∈ words → Matches initial dir d name → gone d name)
    {state : FileSystem × ℕ}
    (trimmed : Trimmed gone initial state.1) :
    Trimmed gone initial (words.foldl (cleanStep odd d dir) state).1 := by
  induction words generalizing state with
  | nil => exact trimmed
  | cons k words ih =>
    exact ih (fun other member => operands other (by simp [member]))
      (fun name member => allowed name (by simp [member]))
      (cleanStep_trimmed (operands k (by simp)) (fun name named => allowed name (by simp [named]))
        trimmed)

variable {dirs : List Str}

/-- One directory: what the visit removes was cleanable at the start. -/
theorem cleanDir_trimmed (listed : dir ∈ dirs) (nonempty : dir ≠ [])
    (ordinary : ∀ cwd d, initial.lookup cwd dir = .found d →
      ∀ name ∈ initial.names d, Ordinary name) {state : State}
    (trimmed : Trimmed (Cleanable initial dirs) initial state.fs) :
    Trimmed (Cleanable initial dirs) initial (cleanDir odd state dir).fs := by
  unfold cleanDir
  split
  · rename_i present
    obtain ⟨d, j, visited, leads, entered⟩ := entered_of_present nonempty present
    -- Deleting has redirected no path: it led here before the loop.
    have visitedBefore := trimmed.extends_.lookup_found visited
    have allowed (name : Name) (belongs : Belongs initial dir d name) :
        Cleanable initial dirs d name :=
      ⟨dir, listed, ⟨_, visitedBefore⟩, ⟨j, trimmed.extends_.entry _ _ _ leads⟩, belongs⟩
    have names (name : Name) (member : name ∈ state.fs.names d) : Ordinary name := by
      obtain ⟨j, leads⟩ := mem_names_iff.mp member
      exact ordinary _ d visitedBefore name
        (mem_names_iff.mpr ⟨j, trimmed.extends_.entry _ _ _ leads⟩)
    have operands (k : Str) (member : k ∈ cleanWords state.fs d) : k ∉ testOperators := by
      obtain ⟨name, inside, field⟩ :=
        exists_name_of_mem_cleanWords (fun name member => (names name member).1) member
      exact (names name inside).2 k field
    dsimp only
    rw [entered]
    refine ((cleanSteps_trimmed operands
      (fun name _ same => allowed name (Or.inr (Or.inr same))) trimmed).trans
      (trimmed_rm _ fun name named => ?_)).trans (trimmed_rm _ fun name named => ?_)
    · exact allowed name (Or.inl (Name.ext named))
    · exact allowed name (Or.inr (Or.inl (Name.ext named)))
  · exact trimmed

/-- The whole loop removes nothing but entries that, before it started, were in a
listed directory with a busybox and belonged to that busybox. Every inode, every
other entry and every directory without a busybox stays as it was. -/
theorem cleanLoop_trimmed (odd : FileSystem → ℕ → Str → Bool) {dirs : List Str} (state : State)
    (nonempty : ∀ dir ∈ dirs, dir ≠ [])
    (ordinary : ∀ dir ∈ dirs, ∀ cwd d, state.fs.lookup cwd dir = .found d →
      ∀ name ∈ state.fs.names d, Ordinary name) :
    Trimmed (Cleanable state.fs dirs) state.fs (cleanLoop odd dirs state).fs := by
  have visits (visited : List Str) (sub : ∀ dir ∈ visited, dir ∈ dirs) {current : State}
      (trimmed : Trimmed (Cleanable state.fs dirs) state.fs current.fs) :
      Trimmed (Cleanable state.fs dirs) state.fs (visited.foldl (cleanDir odd) current).fs := by
    induction visited generalizing current with
    | nil => exact trimmed
    | cons dir visited ih =>
      have listed := sub dir (by simp)
      exact ih (fun other member => sub other (by simp [member]))
        (cleanDir_trimmed listed (nonempty dir listed) (ordinary dir listed) trimmed)
  exact visits dirs (fun _ member => member) (Trimmed.refl _ _)

/-- A device with a busybox, a link to it, a wrapper and two other commands in
`/system/xbin`. One name is split into the words `ls` and `old`. -/
def device : FileSystem where
  nodes := [
    .directory true (entriesOf [(Name.named "system", 1)]),
    .directory true (entriesOf [(Name.named "xbin", 2)]),
    .directory true (entriesOf [(busybox, 3), (Name.named "ls", 4),
      (Name.named "vi", 5), (Name.named "su", 6),
      (Name.named "ls old", 6)]),
    .leaf (.file true "ELF".toList),
    .leaf (.symlink busybox.1),
    .leaf (.file true "#!/system/xbin/busybox\n".toList),
    .leaf (.file true "#!/system/bin/sh\n".toList)]
  linked := by decide

end Frame

end BbBot.Cleaning
