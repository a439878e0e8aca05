/-
# Installing and only cleaning

When does a run with `--onlyclean` give the installation directory back as it was
before a run that installed into it?

The copies and the applets go as they do for `base_installer.sh`. What can stay
or get lost besides is due to three things: the survival script is extracted into
the directory and its name mentions busybox, a file called `addusergroup.sh` is
replaced and removed, and a link into an older installation dangles once the
first run has cleaned that installation, so that an applet of that name is
written through it and the link is then taken for an applet.
-/

import BbBot.SelfExtractor.Install

namespace BbBot.SelfExtractor

open BbBot.Unix BbBot.Unix.FileSystem BbBot.Cleaning BbBot.Applets

/-- Adding accounts leaves a directory alone: none of its names, and nothing they
lead to, is one of the account files. -/
structure LeavesAlone (d : ℕ) (before after : FileSystem) : Prop where
  within : Within before after
  entry : ∀ name, after.entry d name = before.entry d name
  kind : ∀ name i, before.entry d name = some i → after.kind i = before.kind i
  reached : ∀ (name : Name) i, before.lookup d name.1 = .found i → after.kind i = before.kind i
  dangling : ∀ name : Name, (∀ i, before.lookup d name.1 ≠ .found i) →
    ∀ i, after.lookup d name.1 ≠ .found i

theorem LeavesAlone.refl (d : ℕ) (fs : FileSystem) : LeavesAlone d fs fs :=
  ⟨Within.refl fs, fun _ => rfl, fun _ _ _ => rfl, fun _ _ _ => rfl, fun _ dangling => dangling⟩

/-! ## The start of an installation -/

/-- A directory to install into, before (`fs`) and after (`base`) older
installations have been cleaned. -/
structure Site (dir : Str) (d : ℕ) (helper : Str) (applets : List Name) (fs base : FileSystem) :
    Prop where
  trimmed : Trimmed (fun e _ => ∃ i, fs.entry e busybox = some i) fs base
  directory : base.isDirectory d = true
  noBusybox : fs.entry d busybox = none
  noHelper : fs.entry d sslHelper = none
  helperForeign : firstLine helper ≠ shebang dir
  contents : ∀ name ∈ fs.names d, Foreign fs dir d name
  names : ∀ applet ∈ applets, AppletName applet
  noDirectory : ∀ applet ∈ applets, ∀ j, fs.lookup d applet.1 = .found j →
    fs.isDirectory j = false

/-- The applets that the directory has a name for are found. -/
def Sound (d : ℕ) (applets : List Name) (base : FileSystem) : Prop :=
  ∀ applet ∈ applets, ∀ i, base.entry d applet = some i →
    ∃ j, base.lookup d applet.1 = .found j

namespace Site

variable {dir : Str} {d : ℕ} {binary helper : Str} {applets : List Name} {fs base : FileSystem}
  (site : Site dir d helper applets fs base)

include site

/-- Cleaning older installations has not touched the directory. -/
theorem entry_eq (name : Name) : base.entry d name = fs.entry d name :=
  site.trimmed.entry_of_not (by simp [site.noBusybox])

theorem noBusybox_base : base.entry d busybox = none := by rw [site.entry_eq, site.noBusybox]

theorem noHelper_base : base.entry d sslHelper = none := by rw [site.entry_eq, site.noHelper]

theorem mem_names {name : Name} (member : name ∈ base.names d) : name ∈ fs.names d := by
  obtain ⟨i, leads⟩ := mem_names_iff.mp member
  exact mem_names_iff.mpr ⟨i, site.entry_eq name ▸ leads⟩

/-- A name of the directory leads where it did, or stops in another directory. -/
theorem lookup_cases {name : Name} (member : name ∈ base.names d) :
    Foreign base dir d name ∨ ∃ p n, p ≠ d ∧ StopsAt base maxLinks d [name] p n := by
  obtain ⟨plain, j, found, notScript⟩ := site.contents name (site.mem_names member)
  rw [lookup_name] at found
  rcases site.trimmed.walk_found_or_stopsAt found with still | ⟨p, n, i, there, stops⟩
  · refine Or.inl ⟨plain, j, (lookup_name base d name).trans still, fun content kind => ?_⟩
    exact notScript content (site.trimmed.kind j ▸ kind)
  · refine Or.inr ⟨p, n, ?_, stops⟩
    rintro rfl
    have gone := stops.2.1
    rw [site.entry_eq, there] at gone
    exact absurd gone (by simp)

theorem taken {applet : Name} (isApplet : applet ∈ applets) {j : ℕ}
    (found : base.lookup d applet.1 = .found j) : base.isDirectory j = false := by
  rw [site.trimmed.isDirectory_eq]
  exact site.noDirectory applet isApplet j (site.trimmed.extends_.lookup_found found)

variable (binary) in
theorem extends_copy : Extends base (copyBinaries d binary helper base) :=
  extends_copyBinaries binary helper site.directory site.noBusybox_base site.noHelper_base

variable (binary) in
theorem entry_copy (e : ℕ) (name : Name) : (copyBinaries d binary helper base).entry e name =
    if e = d ∧ name = sslHelper then some (base.size + 1)
    else if e = d ∧ name = busybox then some base.size else base.entry e name :=
  entry_copyBinaries binary helper site.directory site.noBusybox_base site.noHelper_base e name

variable (binary) in
theorem entry_copy_busybox :
    (copyBinaries d binary helper base).entry d busybox = some base.size := by
  rw [site.entry_copy, if_neg fun same => sslHelper_ne_busybox same.2.symm, if_pos ⟨rfl, rfl⟩]

variable (binary) in
theorem kind_copy_busybox :
    (copyBinaries d binary helper base).kind base.size = some (.file true binary) :=
  kind_copyBinaries_busybox binary helper site.directory site.noBusybox_base site.noHelper_base

variable (binary) in
theorem entry_copy_helper :
    (copyBinaries d binary helper base).entry d sslHelper = some (base.size + 1) := by
  rw [site.entry_copy, if_pos ⟨rfl, rfl⟩]

variable (binary) in
theorem kind_copy_helper :
    (copyBinaries d binary helper base).kind (base.size + 1) = some (.file true helper) :=
  kind_copyBinaries_helper binary helper site.directory site.noBusybox_base site.noHelper_base

variable (binary) in
/-- A name that stops in another directory still does with the binaries in place. -/
theorem stopsAt_copy {name : Name} {p : ℕ} {n : Name} (outside : p ≠ d)
    (stops : StopsAt base maxLinks d [name] p n) :
    StopsAt (copyBinaries d binary helper base) maxLinks d [name] p n := by
  have grows := site.extends_copy binary
  refine stops.of_within grows.within (grows.isDirectory stops.1) ?_
  rw [site.entry_copy, if_neg fun same => outside same.1, if_neg fun same => outside same.1,
    stops.2.1]

variable (binary) in
theorem usable {applet : Name} (isApplet : applet ∈ applets) :
    Usable (copyBinaries d binary helper base) d applet := by
  have grows := site.extends_copy binary
  have file {j : ℕ} {content : Str}
      (leads : (copyBinaries d binary helper base).entry d applet = some j)
      (kind : (copyBinaries d binary helper base).kind j = some (.file true content)) :
      Usable (copyBinaries d binary helper base) d applet :=
    Or.inr (Or.inl ⟨j, lookup_entry leads (by simp [target, kind]), by simp [isDirectory, kind]⟩)
  cases leads : (copyBinaries d binary helper base).entry d applet with
  | none => exact Or.inl leads
  | some i =>
    rcases mem_names_of_copyBinaries binary helper site.directory site.noBusybox_base
      site.noHelper_base leads with rfl | rfl | old
    · exact file (site.entry_copy_helper binary) (site.kind_copy_helper binary)
    · exact file (site.entry_copy_busybox binary) (site.kind_copy_busybox binary)
    · rcases site.lookup_cases old with ⟨-, j, found, -⟩ | ⟨p, n, outside, stops⟩
      · refine Or.inr (Or.inl ⟨j, grows.lookup_found found, ?_⟩)
        rw [grows.isDirectory_eq (lookup_found_lt (lt_size_of_isDirectory site.directory) found)]
        exact site.taken isApplet found
      · exact Or.inr (Or.inr ⟨p, n, outside, site.stopsAt_copy binary outside stops⟩)

end Site

/-! ## The end of an installation -/

/-- What the last steps do to the directory, when they do no harm: a script is
extracted if its name was free, accounts are added, and the script is removed. -/
structure Finished (free : Prop) (d : ℕ) (full extracted merged later : FileSystem) : Prop where
  size : full.size ≤ extracted.size
  kind : ∀ i < full.size, extracted.kind i = full.kind i
  there : ∀ e name, e ≠ d → extracted.entry e name = full.entry e name
  here : ∀ name, extracted.entry d name = full.entry d name ∨ name = usersScript ∧ free
  alone : LeavesAlone d extracted merged
  trimmed : Trimmed (fun e name => e = d ∧ name = usersScript ∧ free) merged later
  kept : ∀ name i, later.entry d name = some i → full.entry d name = some i

theorem Finished.refl (free : Prop) (d : ℕ) (fs : FileSystem) : Finished free d fs fs fs fs :=
  ⟨Nat.le_refl _, fun _ _ => rfl, fun _ _ _ => rfl, fun _ => Or.inl rfl, LeavesAlone.refl d fs,
    Trimmed.refl _ fs, fun _ _ leads => leads⟩

namespace Finished

variable {free : Prop} {d : ℕ} {full extracted merged later : FileSystem}
  (finished : Finished free d full extracted merged later)

include finished

/-- What was there before the applets is there when the script is extracted. -/
theorem within_extracted {base : FileSystem} (grows : Extends base full)
    (absent : free → base.entry d usersScript = none) : Within base extracted := by
  refine ⟨Nat.le_trans grows.size_le finished.size, fun e name i leads => ?_, fun i old => ?_⟩
  · by_cases inside : e = d
    · subst inside
      rcases finished.here name with same | ⟨rfl, isFree⟩
      · rw [same, grows.entry _ _ _ leads]
      · rw [absent isFree] at leads
        exact absurd leads (by simp)
    · rw [finished.there e name inside, grows.entry _ _ _ leads]
  · rw [target, finished.kind i (Nat.lt_of_lt_of_le old grows.size_le), grows.kind_eq old, target]

/-- And it is there at the end. -/
theorem within_later {base : FileSystem} (grows : Extends base full)
    (absent : free → base.entry d usersScript = none) : Within base later := by
  have merges := (finished.within_extracted grows absent).trans finished.alone.within
  refine ⟨finished.trimmed.size_eq ▸ merges.size, fun e name i leads => ?_, fun i old => ?_⟩
  · rw [finished.trimmed.entry_of_not, merges.entry _ _ _ leads]
    rintro ⟨rfl, rfl, isFree⟩
    rw [absent isFree] at leads
    exact absurd leads (by simp)
  · rw [target, finished.trimmed.kind]
    exact merges.target i old

/-- Other directories have at least the entries they had with the applets. -/
theorem entry_there {e : ℕ} {name : Name} {i : ℕ} (elsewhere : e ≠ d)
    (leads : full.entry e name = some i) : later.entry e name = some i := by
  rw [finished.trimmed.entry_of_not fun same => elsewhere same.1]
  refine finished.alone.within.entry _ _ _ ?_
  rw [finished.there e name elsewhere, leads]

/-- The inodes of the directory are as they were with the applets. -/
theorem kind_entry {name : Name} {i : ℕ} (leads : full.entry d name = some i)
    (stays : later.entry d name = some i) : later.kind i = full.kind i := by
  have merged := finished.trimmed.extends_.entry _ _ _ stays
  rw [finished.alone.entry] at merged
  rw [finished.trimmed.kind, finished.alone.kind name i merged,
    finished.kind i (lt_size_of_entry leads)]

/-- So are the inodes that its names lead to. -/
theorem kind_reached {name : Name} {i : ℕ} (old : i < full.size)
    (found : extracted.lookup d name.1 = .found i) : later.kind i = full.kind i := by
  rw [finished.trimmed.kind, finished.alone.reached name i found, finished.kind i old]

/-- A name that leads nowhere when the script is extracted still does at the end. -/
theorem dangling {name : Name} (nowhere : ∀ i, extracted.lookup d name.1 ≠ .found i) (i : ℕ) :
    later.lookup d name.1 ≠ .found i := fun found =>
  finished.alone.dangling name nowhere i (finished.trimmed.extends_.lookup_found found)

end Finished

section AddUsers

variable {accounts : FileSystem → FileSystem} {d : ℕ} {script : Str} {full : FileSystem}
  (directory : full.isDirectory d = true)
  (alone : etcAccessible full d = true → LeavesAlone d (extract d usersScript false script full)
    (accounts (extract d usersScript false script full)))

include directory alone

/-- The script replaces a file of its name and is removed in the end. -/
theorem addUsers_eq (accessible : etcAccessible full d = true)
    (file : ∀ i, full.entry d usersScript = some i → full.isDirectory i = false) :
    addUsers accounts d script full =
      (accounts (extract d usersScript false script full)).unlink d usersScript := by
  obtain ⟨entry, kind, -⟩ := extract_spec false script directory file
  have made : (extract d usersScript false script full).entry d usersScript =
      some full.size := by rw [entry, if_pos ⟨rfl, rfl⟩]
  have isFile : (extract d usersScript false script full).kind full.size =
      some (.file false script) := by rw [kind, if_pos rfl]
  have notDirectory : (extract d usersScript false script full).isDirectoryPath d
      usersScript.1 = false := by
    rw [isDirectoryPath, lookup_entry made (by simp [target, isFile])]
    simp [isDirectory, isFile]
  rw [addUsers, if_pos accessible]
  dsimp only
  rw [if_neg (by simp [notDirectory])]
  refine rm_name (by decide) (((alone accessible).entry _).trans made) ?_
  simp [isDirectory, (alone accessible).kind _ _ made, isFile]

omit directory alone in
/-- A directory of the script's name stops the step. -/
theorem addUsers_directory {i : ℕ} (leads : full.entry d usersScript = some i)
    (isDir : full.isDirectory i = true) : addUsers accounts d script full = full := by
  have notLink : full.target i = none := by
    obtain ⟨writable, kind⟩ := isDirectory_iff.mp isDir
    simp [target, kind]
  have isPath : full.isDirectoryPath d usersScript.1 = true := by
    rw [isDirectoryPath, lookup_entry leads notLink]
    exact isDir
  rw [addUsers, extract_directory leads isDir]
  split
  · exact if_pos isPath
  · rfl

/-- Where no file called `addusergroup.sh` is in the way, the last step does no harm. -/
theorem addUsers_finished {free : Prop}
    (harmless : etcAccessible full d = true → free ∨
      ∃ i, full.entry d usersScript = some i ∧ full.isDirectory i = true)
    (file : free → ∀ i, full.entry d usersScript = some i → full.isDirectory i = false) :
    ∃ extracted merged, Finished free d full extracted merged
      (addUsers accounts d script full) := by
  cases accessible : etcAccessible full d with
  | false =>
    rw [addUsers, if_neg (by simp [accessible])]
    exact ⟨full, full, Finished.refl free d full⟩
  | true =>
    -- The script is new and goes away again, or a directory keeps it out.
    rcases harmless accessible with isFree | ⟨i, leads, isDir⟩
    · obtain ⟨entry, kind, size⟩ := extract_spec false script directory (file isFree)
      have aside := alone accessible
      rw [addUsers_eq directory alone accessible (file isFree)]
      refine ⟨_, _, by omega, fun i old => ?_, fun e name elsewhere => ?_, fun name => ?_, aside,
        Trimmed.unlink _ ⟨rfl, rfl, isFree⟩, fun name i leads => ?_⟩
      · rw [kind, if_neg (Nat.ne_of_lt old)]
      · rw [entry, if_neg fun same => elsewhere same.1]
      · by_cases isScript : name = usersScript
        · exact Or.inr ⟨isScript, isFree⟩
        · exact Or.inl (by rw [entry, if_neg fun same => isScript same.2])
      · rw [entry_unlink] at leads
        split at leads
        · exact absurd leads (by simp)
        · rename_i other
          rwa [aside.entry, entry, if_neg other] at leads
    · rw [addUsers_directory leads isDir]
      exact ⟨full, full, Finished.refl free d full⟩

/-- The step changes no other name of the directory. -/
theorem entry_addUsers {name : Name} (other : name ≠ usersScript) :
    (addUsers accounts d script full).entry d name = full.entry d name := by
  cases accessible : etcAccessible full d with
  | false => rw [addUsers, if_neg (by simp [accessible])]
  | true =>
    by_cases isDir : ∃ i, full.entry d usersScript = some i ∧ full.isDirectory i = true
    · obtain ⟨i, leads, isDir⟩ := isDir
      rw [addUsers_directory leads isDir]
    · have file (i : ℕ) (leads : full.entry d usersScript = some i) :
          full.isDirectory i = false := by
        rw [Bool.eq_false_iff]
        exact fun directory => isDir ⟨i, leads, directory⟩
      rw [addUsers_eq directory alone accessible file, entry_unlink,
        if_neg fun same => other same.2, (alone accessible).entry,
        (extract_spec false script directory file).1, if_neg fun same => other same.2]

end AddUsers

/-! ## The survival script -/

section AddSurvival

variable {d : ℕ} {script : Str} {full : FileSystem}

/-- Nothing happens without `addon.d`, or with a directory in the script's place. -/
theorem addSurvival_eq
    (harmless : accessible full d addonDir = true →
      ∃ i, full.entry d survivalScript = some i ∧ full.isDirectory i = true) :
    addSurvival d script full = full := by
  rw [addSurvival]
  split
  · rename_i present
    obtain ⟨i, leads, isDir⟩ := harmless present
    have notLink : full.target i = none := by
      obtain ⟨writable, kind⟩ := isDirectory_iff.mp isDir
      simp [target, kind]
    have isPath : full.isDirectoryPath d survivalScript.1 = true := by
      rw [isDirectoryPath, lookup_entry leads notLink]
      exact isDir
    dsimp only
    rw [extract_directory leads isDir]
    split
    · exact if_pos (Or.inr isPath)
    · rfl
  · rfl

/-- The script is a new file of the directory, and the copy of it is elsewhere. -/
theorem entry_addSurvival (script : Str) (directory : full.isDirectory d = true)
    (present : accessible full d addonDir = true)
    (file : ∀ i, full.entry d survivalScript = some i → full.isDirectory i = false)
    (name : Name) : (addSurvival d script full).entry d name =
      if name = survivalScript then some full.size else full.entry d name := by
  have extracted : (extract d survivalScript true script full).entry d name =
      if name = survivalScript then some full.size else full.entry d name := by
    simpa using (extract_spec true script directory file).1 d name
  rw [addSurvival, if_pos present, ← extracted]
  dsimp only
  split
  · rename_i addon _
    split
    · rfl
    · rename_i elsewhere
      exact entry_cp_of_ne (fun same => elsewhere (Or.inl same.symm)) ..
  · rfl

theorem isDirectory_addSurvival (script : Str) (directory : full.isDirectory d = true)
    (present : accessible full d addonDir = true)
    (file : ∀ i, full.entry d survivalScript = some i → full.isDirectory i = false) :
    (addSurvival d script full).isDirectory d = true := by
  have leads := entry_addSurvival script directory present file survivalScript
  rw [if_pos rfl] at leads
  exact isDirectory_of_entry leads

end AddSurvival

/-! ## The second run -/

/-- The directory has the entries it had, with their inodes as they were. -/
def Restored (d : ℕ) (fs after : FileSystem) : Prop :=
  ∀ name, after.entry d name = fs.entry d name ∧
    ∀ i, fs.entry d name = some i → after.kind i = fs.kind i

namespace Site

variable {odd : FileSystem → ℕ → Str → Bool} {dir : Str} {d cwd : ℕ} {binary helper : Str}
  {applets : List Name} {fs base full extracted merged later : FileSystem} {dirs : List Str}
  (site : Site dir d helper applets fs base)
  (finished : Finished (base.entry d usersScript = none) d full extracted merged later)

include site

omit finished in
/-- The name of the script is not one of the binaries. -/
theorem entry_copy_usersScript (binary : Str) (absent : base.entry d usersScript = none) :
    (copyBinaries d binary helper base).entry d usersScript = none := by
  have notHelper : usersScript ≠ sslHelper := by decide
  have notBusybox : usersScript ≠ busybox := by decide
  rw [site.entry_copy, if_neg fun same => notHelper same.2, if_neg fun same => notBusybox same.2,
    absent]

include finished

/-- When all applets were found, the directory is furnished for the second run. -/
theorem furnished (populated : Populated busybox.1 (wrapper dir) d (· ∈ applets)
      (copyBinaries d binary helper base) full) :
    Furnished dir d binary helper applets base later := by
  have copied := site.extends_copy binary
  have grows := copied.trans populated.extends_
  have within := finished.within_later populated.extends_ (site.entry_copy_usersScript binary)
  have extracts := finished.within_extracted grows fun absent => absent
  have unchanged {name : Name} {i : ℕ} {content : Str}
      (leads : (copyBinaries d binary helper base).entry d name = some i)
      (kind : (copyBinaries d binary helper base).kind i = some (.file true content)) :
      later.kind i = some (.file true content) := by
    rw [finished.kind_entry (populated.extends_.entry _ _ _ leads) (within.entry _ _ _ leads)]
    exact populated.extends_.kind _ _ kind
  refine ⟨within, unchanged (site.entry_copy_busybox binary) (site.kind_copy_busybox binary),
    unchanged (site.entry_copy_helper binary) (site.kind_copy_helper binary),
    fun name member => ?_, fun name i free leads => ?_⟩
  · refine ⟨(site.contents name (site.mem_names member)).1, ?_⟩
    rcases site.lookup_cases member with ⟨-, j, found, notScript⟩ | ⟨p, n, outside, stops⟩
    · have old := lookup_found_lt (lt_size_of_isDirectory site.directory) found
      refine Or.inl ⟨j, found, fun content kind => notScript content ?_⟩
      rw [← grows.kind_eq old, ← finished.kind_reached
        (Nat.lt_of_lt_of_le old grows.size_le) (extracts.lookup_found found), kind]
    · refine Or.inr (finished.dangling fun i found => ?_)
      have inside := lt_size_of_isDirectory stops.1
      -- The place behind the link is still free, so nothing is found there.
      refine stops.not_found extracts ?_ ?_ i ((lookup_name ..).symm.trans found)
      · rw [isDirectory, finished.kind p (Nat.lt_of_lt_of_le inside grows.size_le),
          grows.kind_eq inside]
        exact stops.1
      · rw [finished.there p n outside, populated.elsewhere p n outside]
        exact (site.stopsAt_copy binary outside stops).2.1
  · have present := finished.kept name i leads
    obtain ⟨isApplet, -, kind⟩ := populated.created name i free present
    rw [finished.kind_entry present leads]
    exact ⟨isApplet, kind⟩

/-- The second run then restores the directory. -/
theorem restored (populated : Populated busybox.1 (wrapper dir) d (· ∈ applets)
      (copyBinaries d binary helper base) full) (nonempty : ∀ dir ∈ dirs, dir ≠ [])
    (oneLine : '\n' ∉ dir) (visited : later.lookup cwd dir = .found d) :
    Restored d fs (cleanLoop odd (dir :: dirs) ⟨later, cwd, 0⟩).fs := by
  have furnished := site.furnished finished populated
  have grows := (site.extends_copy binary).trans populated.extends_
  have within := finished.within_later grows fun absent => absent
  obtain ⟨cleaned, result, kinds, -, entries⟩ := furnished.cleanDir_eq binary helper
    site.directory site.noBusybox_base site.noHelper_base site.helperForeign site.names odd oneLine
    0 visited
  rw [cleanLoop_cons, result]
  intro name
  rw [cleanLoop_entry_of_none nonempty _ ((entries busybox).trans site.noBusybox_base)]
  refine ⟨(entries name).trans (site.entry_eq name), fun i leads => ?_⟩
  have here : base.entry d name = some i := (site.entry_eq name).trans leads
  rw [kind_cleanLoop nonempty]
  dsimp only
  rw [kinds, finished.kind_entry (grows.entry _ _ _ here) (within.entry _ _ _ here),
    grows.kind_eq (lt_size_of_entry here), site.trimmed.kind]

omit finished in
/-- The names of the directory with applets are plain. -/
theorem plain_of_stocked (stocked : Stocked dir d applets (copyBinaries d binary helper base) full)
    {name : Name} {i : ℕ} (leads : full.entry d name = some i) : Plain name := by
  cases first : (copyBinaries d binary helper base).entry d name with
  | none => exact (site.names name (stocked.here name i first leads).1).1
  | some j =>
    rcases mem_names_of_copyBinaries binary helper site.directory site.noBusybox_base
      site.noHelper_base first with rfl | rfl | old
    · decide
    · decide
    · exact (site.contents name (site.mem_names old)).1

/-- The second run finds the busybox of the first. -/
theorem busybox_later (stocked : Stocked dir d applets (copyBinaries d binary helper base) full) :
    later.entry d busybox = some base.size ∧ later.target base.size = none := by
  have copied := site.entry_copy_busybox binary
  have leads : later.entry d busybox = some base.size :=
    (finished.within_later stocked.extends_ (site.entry_copy_usersScript binary)).entry _ _ _ copied
  refine ⟨leads, ?_⟩
  rw [target, finished.kind_entry (stocked.extends_.entry _ _ _ copied) leads,
    stocked.extends_.kind _ _ (site.kind_copy_busybox binary)]

omit finished in
/-- A second run that restores the directory has every entry of before while it
goes through the words. -/
theorem within_rounds (within : Within base later) {first rest : List Str}
    (present : later.pathExists cwd (inDirectory dir) = true) (entered : later.cd cwd dir = d)
    (split : cleanWords later d = first ++ rest) (nonempty : ∀ dir ∈ dirs, dir ≠ [])
    (restored : Restored d fs (cleanLoop odd (dir :: dirs) ⟨later, cwd, 0⟩).fs) :
    Within base (first.foldl (cleanStep odd d dir) (later, 0)).1 := by
  have kept : Extends (cleanLoop odd (dir :: dirs) ⟨later, cwd, 0⟩).fs
      (cleanDir odd ⟨later, cwd, 0⟩ dir).fs := extends_cleanLoop odd nonempty _
  have between : Extends (cleanDir odd ⟨later, cwd, 0⟩ dir).fs
      (first.foldl (cleanStep odd d dir) (later, 0)).1 := cleanDir_extends present entered split
  have trimmed : Trimmed (fun e _ => e = d) later
      (first.foldl (cleanStep odd d dir) (later, 0)).1 :=
    cleanSteps_within _ (fun _ _ => rfl) (Trimmed.refl _ _)
  refine ⟨trimmed.size_eq ▸ within.size, fun e name k leads => ?_, fun k inside => ?_⟩
  · by_cases inside : e = d
    · -- What is there at the end was there all along.
      subst inside
      refine between.entry _ _ _ (kept.entry _ _ _ ?_)
      rw [(restored name).1, ← site.entry_eq, leads]
    · rw [trimmed.entry_of_not inside, within.entry _ _ _ leads]
  · rw [target, trimmed.kind]
    exact within.target k inside

/-- A script that was written through a link of the directory costs that link. -/
theorem not_restored_of_stopsAt
    (stocked : Stocked dir d applets (copyBinaries d binary helper base) full) {applet : Name}
    (isApplet : applet ∈ applets) {i j p : ℕ} {n : Name} (leads : base.entry d applet = some i)
    (outside : p ≠ d) (stops : StopsAt base maxLinks d [applet] p n)
    (there : full.entry p n = some j) (script : full.kind j = some (.file true (wrapper dir)))
    (found : full.lookup d applet.1 = .found j) (nonempty : ∀ dir ∈ dirs, dir ≠ [])
    (oneLine : '\n' ∉ dir) (visited : later.lookup cwd dir = .found d) :
    ¬ Restored d fs (cleanLoop odd (dir :: dirs) ⟨later, cwd, 0⟩).fs := by
  have grows := (site.extends_copy binary).trans stocked.extends_
  have extracts := finished.within_extracted grows fun absent => absent
  have within := finished.within_later grows fun absent => absent
  obtain ⟨plain, shown, notOption, mention⟩ := site.names applet isApplet
  rw [lookup_name] at found
  have missing : base.walk maxLinks d [applet] = .missing p n :=
    stops.missing_of_found grows.within (grows.isDirectory stops.1) there
      (by simp [target, script]) (by simp [isDirectory, script]) found
  -- While the entries of before are in place, the link leads to the script.
  have resolves (current : FileSystem) (larger : Within base current)
      (leads : current.entry p n = some j)
      (kind : current.kind j = some (.file true (wrapper dir))) :
      current.lookup d applet.1 = .found j :=
    (lookup_name current d applet).trans (larger.walk_filled missing leads (by simp [target, kind]))
  have laterScript : later.kind j = some (.file true (wrapper dir)) := by
    have old := lt_size_of_entry there
    rw [finished.kind_reached old (resolves extracted extracts ?_ ?_), script]
    · rw [finished.there p n outside, there]
    · rw [finished.kind j old, script]
  -- The applet's entry is the dangling link of before, which `rm` removes.
  have isLink : ∃ path, later.kind i = some (.symlink path) := by
    cases link : base.target i with
    | none =>
      rw [walk_of_entry leads link, walk_nil] at missing
      exact absurd missing (by simp)
    | some path =>
      exact ⟨path, target_eq_some_iff.mp ((within.target i (lt_size_of_entry leads)).trans link)⟩
  obtain ⟨binaryLater, notLink⟩ := site.busybox_later finished stocked
  have present : later.pathExists cwd (inDirectory dir) = true :=
    pathExists_iff.mpr ⟨base.size, lookup_slash_entry visited binaryLater notLink⟩
  have entered : later.cd cwd dir = d :=
    cd_of_found visited (isDirectory_of_entry binaryLater)
  have isWord : applet.1 ∈ cleanWords later d := by
    rw [cleanWords_eq fun name member => by
      obtain ⟨k, here⟩ := mem_names_iff.mp member
      exact site.plain_of_stocked stocked (finished.kept name k here)]
    refine List.mem_map_of_mem (mem_visitedNames_iff.mpr
      ⟨mem_names_iff.mpr ⟨i, within.entry _ _ _ leads⟩, shown, fun infix_ => ?_⟩)
    rw [mention infix_, site.noBusybox_base] at leads
    exact absurd leads (by simp)
  obtain ⟨first, rest, split⟩ := List.append_of_mem isWord
  intro restored
  -- When the round of the applet comes, its link still leads to the script.
  have larger := site.within_rounds within present entered split nonempty restored
  have trimmed : Trimmed (fun e _ => e = d) later
      (first.foldl (cleanStep odd d dir) (later, 0)).1 :=
    cleanSteps_within _ (fun _ _ => rfl) (Trimmed.refl _ _)
  have kind := (trimmed.kind j).trans laterScript
  have removed : (cleanDir odd ⟨later, cwd, 0⟩ dir).fs.entry d applet = none := by
    refine cleanDir_removes present entered split notOption (fun k here => ?_) ?_
    · obtain rfl := Option.some.inj ((within.entry _ _ _ leads).symm.trans here)
      obtain ⟨path, link⟩ := isLink
      simp [isDirectory, link]
    · refine cleanTest_script plain.2.2 notOption (resolves _ larger ?_ kind) kind
        (firstLine_shebang oneLine [])
      rw [trimmed.entry_of_not outside, finished.entry_there outside there]
  have gone : (cleanLoop odd (dir :: dirs) ⟨later, cwd, 0⟩).fs.entry d applet = none :=
    (extends_cleanLoop odd nonempty _).entry_eq_none removed
  rw [(restored applet).1, ← site.entry_eq, leads] at gone
  exact absurd gone (by simp)

omit finished in
/-- With a writable `addon.d`, the survival script stays or replaces a file. -/
theorem not_restored_of_survival {accounts : FileSystem → FileSystem} {script users : Str}
    (stocked : Stocked dir d applets (copyBinaries d binary helper base) full)
    (present : accessible full d addonDir = true)
    (file : ∀ i, base.entry d survivalScript = some i → base.isDirectory i = false)
    (alone : etcAccessible (addSurvival d script full) d = true →
      LeavesAlone d (extract d usersScript false users (addSurvival d script full))
        (accounts (extract d usersScript false users (addSurvival d script full))))
    (nonempty : ∀ dir ∈ dirs, dir ≠ []) :
    ¬ Restored d fs (cleanLoop odd dirs
      ⟨addUsers accounts d users (addSurvival d script full), cwd, 0⟩).fs := by
  have grows := (site.extends_copy binary).trans stocked.extends_
  have directory := grows.isDirectory site.directory
  have fileFull (i : ℕ) (leads : full.entry d survivalScript = some i) :
      full.isDirectory i = false := by
    cases first : (copyBinaries d binary helper base).entry d survivalScript with
    | none =>
      rcases (stocked.here _ i first leads).2 with link | wrapper
      · simp [isDirectory, link]
      · simp [isDirectory, wrapper]
    | some k =>
      have notHelper : survivalScript ≠ sslHelper := by decide
      have notBusybox : survivalScript ≠ busybox := by decide
      obtain rfl := Option.some.inj ((stocked.extends_.entry _ _ _ first).symm.trans leads)
      rw [site.entry_copy, if_neg fun same => notHelper same.2,
        if_neg fun same => notBusybox same.2] at first
      rw [grows.isDirectory_eq (lt_size_of_entry first)]
      exact file k first
  have supplied := entry_addSurvival script directory present fileFull
  have directoryNow := isDirectory_addSurvival script directory present fileFull
  have script' : (addUsers accounts d users (addSurvival d script full)).entry d survivalScript =
      some full.size := by
    rw [entry_addUsers directoryNow alone (by decide), supplied, if_pos rfl]
  have plain (name : Name) (member : name ∈
      (addUsers accounts d users (addSurvival d script full)).names d) : Plain name := by
    obtain ⟨i, leads⟩ := mem_names_iff.mp member
    by_cases isUsers : name = usersScript
    · rw [isUsers]
      decide
    rw [entry_addUsers directoryNow alone isUsers, supplied] at leads
    split at leads
    · rename_i isScript
      rw [isScript]
      decide
    · exact site.plain_of_stocked stocked leads
  intro restored
  have stays := (restored survivalScript).1
  -- `grep -v busybox` takes the script out of the words of every visit.
  have mention : busybox.1 <:+: survivalScript.1 := ⟨"88-".toList, ".sh".toList, by decide⟩
  rw [cleanLoop_entry_of_mention nonempty
    ⟨addUsers accounts d users (addSurvival d script full), cwd, 0⟩ plain mention (by decide)
    (by decide)] at stays
  dsimp only at stays
  rw [script', ← site.entry_eq] at stays
  -- The script would have to be an inode of before, and it is a new one.
  have inside := lt_size_of_entry stays.symm
  have larger := grows.size_le
  omega

omit finished in
/-- With a writable `etc`, a file called `addusergroup.sh` is lost. -/
theorem not_restored_of_users {accounts : FileSystem → FileSystem} {users : Str}
    (grows : Extends base full) (present : etcAccessible full d = true) {i : ℕ}
    (leads : base.entry d usersScript = some i) (file : base.isDirectory i = false)
    (alone : etcAccessible full d = true → LeavesAlone d
      (extract d usersScript false users full) (accounts (extract d usersScript false users full)))
    (nonempty : ∀ dir ∈ dirs, dir ≠ []) :
    ¬ Restored d fs (cleanLoop odd dirs ⟨addUsers accounts d users full, cwd, 0⟩).fs := by
  have fileFull (k : ℕ) (here : full.entry d usersScript = some k) :
      full.isDirectory k = false := by
    obtain rfl := Option.some.inj ((grows.entry _ _ _ leads).symm.trans here)
    rw [grows.isDirectory_eq (lt_size_of_entry leads), file]
  have removed : (addUsers accounts d users full).entry d usersScript = none := by
    rw [addUsers_eq (grows.isDirectory site.directory) alone present fileFull, entry_unlink,
      if_pos ⟨rfl, rfl⟩]
  intro restored
  have gone := (extends_cleanLoop odd nonempty
    ⟨addUsers accounts d users full, cwd, 0⟩).entry_eq_none removed
  rw [(restored usersScript).1, ← site.entry_eq, leads] at gone
  exact absurd gone (by simp)

omit finished in
/-- An entry of before is there with the applets in place, a directory if it was one. -/
theorem isDirectory_full (grows : Extends base full) {name : Name} {i : ℕ}
    (leads : fs.entry d name = some i) :
    full.entry d name = some i ∧ full.isDirectory i = fs.isDirectory i := by
  have here : base.entry d name = some i := (site.entry_eq name).trans leads
  refine ⟨grows.entry _ _ _ here, ?_⟩
  rw [grows.isDirectory_eq (lt_size_of_entry here), site.trimmed.isDirectory_eq]

omit finished in
/-- The survival script is not extracted over a directory. -/
theorem addSurvival_full {script : Str} (grows : Extends base full)
    (noSurvival : accessible full d addonDir = true →
      ∃ i, fs.entry d survivalScript = some i ∧ fs.isDirectory i = true) :
    addSurvival d script full = full := by
  refine addSurvival_eq fun present => ?_
  obtain ⟨i, leads, isDir⟩ := noSurvival present
  obtain ⟨here, same⟩ := site.isDirectory_full grows leads
  exact ⟨i, here, same.trans isDir⟩

omit finished in
/-- The users' script leaves its trace in no other entry. -/
theorem addUsers_full {accounts : FileSystem → FileSystem} {users : Str}
    (stocked : Stocked dir d applets (copyBinaries d binary helper base) full)
    (noUsers : etcAccessible full d = true →
      ∀ i, fs.entry d usersScript = some i → fs.isDirectory i = true)
    (alone : etcAccessible full d = true → LeavesAlone d (extract d usersScript false users full)
      (accounts (extract d usersScript false users full))) :
    ∃ extracted merged, Finished (base.entry d usersScript = none) d full extracted merged
      (addUsers accounts d users full) := by
  have grows := (site.extends_copy binary).trans stocked.extends_
  refine addUsers_finished (grows.isDirectory site.directory) alone (fun present => ?_)
    (fun free i leads => ?_)
  · cases first : base.entry d usersScript with
    | none => exact Or.inl rfl
    | some i =>
      rw [site.entry_eq] at first
      obtain ⟨here, same⟩ := site.isDirectory_full grows first
      exact Or.inr ⟨i, here, same.trans (noUsers present i first)⟩
  · rcases (stocked.here _ i (site.entry_copy_usersScript binary free) leads).2 with
      link | wrapper
    · simp [isDirectory, link]
    · simp [isDirectory, wrapper]

omit finished in
/-- What the second run gives back, by the state at the end of the setup loop. -/
theorem restored_iff {accounts : FileSystem → FileSystem} {script users : Str}
    {rounds : List (Str × Bool)} (words : rounds.map Prod.fst = applets.map Name.word)
    (loop : seeSetupLoop dir d (copyBinaries d binary helper base) rounds = .ok full)
    (alone : etcAccessible (addSurvival d script full) d = true →
      LeavesAlone d (extract d usersScript false users (addSurvival d script full))
        (accounts (extract d usersScript false users (addSurvival d script full))))
    (nonempty : ∀ other ∈ dirs, other ≠ []) (oneLine : '\n' ∉ dir)
    (absolute : dir.head? = some '/') (visited : base.lookup root dir = .found d) :
    Restored d fs (cleanLoop odd (dir :: dirs)
        ⟨addUsers accounts d users (addSurvival d script full), cwd, 0⟩).fs ↔
      Sound d applets base ∧
      (accessible full d addonDir = true →
        ∃ i, fs.entry d survivalScript = some i ∧ fs.isDirectory i = true) ∧
      (etcAccessible full d = true →
        ∀ i, fs.entry d usersScript = some i → fs.isDirectory i = true) := by
  have binaryCopied := site.entry_copy_busybox binary
  have program := site.kind_copy_busybox binary
  have operands (applet : Name) (member : applet ∈ applets) : isOption applet.1 = false :=
    (site.names applet member).2.2.1
  have usable (applet : Name) (member : applet ∈ applets) := site.usable binary member
  have listed := (rounds_of_words words).1
  have stocked : Stocked dir d applets (copyBinaries d binary helper base) full := by
    have reached := (seeSetupLoop_stocked binaryCopied program operands usable listed
      (Stocked.refl _ : Stocked dir d applets _ _)).1
    rwa [loop] at reached
  have grows := (site.extends_copy binary).trans stocked.extends_
  have nonempty' : ∀ other ∈ dir :: dirs, other ≠ [] := by
    intro other member
    rcases List.mem_cons.mp member with rfl | inside
    · rintro rfl
      exact absurd absolute (by simp)
    · exact nonempty other inside
  have visits {later : FileSystem} (within : Within base later) :
      later.lookup cwd dir = .found d := by
    rw [lookup_absolute _ absolute cwd root]
    exact within.lookup_found visited
  constructor
  · intro restored
    have noSurvival : accessible full d addonDir = true →
        ∃ i, fs.entry d survivalScript = some i ∧ fs.isDirectory i = true := by
      intro present
      by_contra none
      refine site.not_restored_of_survival stocked present (fun i leads => ?_) alone nonempty'
        restored
      rw [Bool.eq_false_iff]
      intro isDir
      exact none ⟨i, site.entry_eq _ ▸ leads, site.trimmed.isDirectory_eq i ▸ isDir⟩
    -- From here on the survival script plays no part.
    rw [site.addSurvival_full grows noSurvival] at restored alone
    have noUsers : etcAccessible full d = true →
        ∀ i, fs.entry d usersScript = some i → fs.isDirectory i = true := by
      intro present i leads
      by_contra file
      refine site.not_restored_of_users grows present ((site.entry_eq _).trans leads) ?_ alone
        nonempty' restored
      rw [site.trimmed.isDirectory_eq, Bool.eq_false_iff]
      exact file
    refine ⟨fun applet isApplet i leads => ?_, noSurvival, noUsers⟩
    rcases site.lookup_cases (mem_names_iff.mpr ⟨i, leads⟩) with
      ⟨-, j, found, -⟩ | ⟨p, n, outside, stops⟩
    · exact ⟨j, found⟩
    · obtain ⟨j, there, kind, found⟩ := seeSetupLoop_stopsAt binaryCopied program operands usable
        listed loop isApplet (words ▸ List.mem_map_of_mem isApplet)
        ((site.extends_copy binary).entry _ _ _ leads) outside
        (site.stopsAt_copy binary outside stops)
      -- Either way the users' script leaves no trace, so the visit decides.
      obtain ⟨extracted, merged, finished⟩ := site.addUsers_full stocked noUsers alone
      exact absurd restored (site.not_restored_of_stopsAt finished stocked isApplet leads outside
        stops there kind found nonempty oneLine
        (visits (finished.within_later grows fun absent => absent)))
  · rintro ⟨sound, noSurvival, noUsers⟩
    rw [site.addSurvival_full grows noSurvival] at alone ⊢
    obtain ⟨extracted, merged, finished⟩ := site.addUsers_full stocked noUsers alone
    obtain ⟨other, ends, populated⟩ := install_populated binary helper site.directory
      site.noBusybox_base site.noHelper_base site.names
      (fun applet member i leads => (sound applet member i leads).imp fun j found =>
        ⟨found, site.taken member found⟩) (fun _ => false) words
    -- The loop of this run is the one that `install_populated` speaks of.
    obtain rfl := Except.ok.inj (loop.symm.trans ends)
    exact site.restored finished populated nonempty oneLine
      (visits (finished.within_later grows fun absent => absent))

end Site

/-! ## Two runs -/

theorem installerDirs_cons {dir : Str} (word : Unsplit dir) :
    ∃ dirs, installerDirs dir seeInstalldirs = dir :: dirs := by
  rw [installerDirs_see, fields_unsplit word]
  exact ⟨_, rfl⟩

/-- In a directory without a busybox, the binaries are new files. -/
theorem copyMembers_eq {d : ℕ} {archive : Archive} {fs : FileSystem}
    (directory : fs.isDirectory d = true) (noBusybox : fs.entry d busybox = none)
    (noHelper : fs.entry d sslHelper = none) :
    copyMembers d archive fs = copyBinaries d archive.binary archive.helper fs := by
  rw [copyBinaries_eq _ _ directory noBusybox noHelper, copyMembers,
    cp_absent _ directory noBusybox, extract_absent]
  rw [entry_create directory, if_neg fun same => sslHelper_ne_busybox same.2, noHelper]

/-- The first run changes no directory without a busybox before it installs. -/
theorem seeStart_trimmed (odd : FileSystem → ℕ → Str → Bool) (noclean : Bool) (dir : Str)
    (cwd : ℕ) (fs : FileSystem) :
    Trimmed (fun e _ => ∃ i, fs.entry e busybox = some i) fs
      (seeStart odd noclean dir cwd fs).fs := by
  cases noclean with
  | true => exact Trimmed.refl _ fs
  | false => exact cleanLoop_busybox installerDirs_ne_nil ⟨fs, cwd, 0⟩

/-- A device with a command and a link to it in `/system/xbin`. Whether survival
scripts can be added is up to `writable`. -/
def phone (writable : Bool) : FileSystem where
  nodes := [
    .directory true (entriesOf [(Name.named "system", 1)]),
    .directory true (entriesOf [(Name.named "xbin", 2),
      (Name.named "addon.d", 3)]),
    .directory true (entriesOf [(Name.named "cat", 4),
      (Name.named "dog", 5)]),
    .directory writable (entriesOf []),
    .leaf (.file true "ELF".toList),
    .leaf (.symlink "cat".toList)]
  linked := by cases writable <;> decide

/-- The archive in small. -/
def miniArchive : Archive where
  binary := "BB".toList
  helper := "SSL".toList
  survival := "#!/sbin/sh\n".toList
  users := "_passwd=$etc/passwd\n".toList

/-- One applet is linked, one gets a script and one is there. -/
def someRounds : List (Str × Bool) :=
  [("ls".toList, true), ("vi".toList, false), ("cat".toList, true)]

theorem phone_foreign (writable : Bool) :
    ∀ name ∈ (phone writable).names 2, Foreign (phone writable) "/system/xbin".toList 2 name := by
  have both : ∀ name ∈ (phone writable).names 2, Plain name ∧
      (phone writable).lookup 2 name.1 = .found 4 := by
    cases writable <;> decide +kernel
  intro name member
  refine ⟨(both name member).1, 4, (both name member).2, fun content kind => ?_⟩
  have known : (phone writable).kind 4 = some (.file true "ELF".toList) := by
    cases writable <;> decide +kernel
  rw [known] at kind
  obtain rfl : "ELF".toList = content := by simpa using kind
  decide

end BbBot.SelfExtractor
