/-
# One zip for all architectures

The universal zip has a folder for each architecture. `download_files.py` fills it from
the zip of that architecture, with all members but the scripts, and `mkzip.sh` copies it.
The installer finds out the architecture by itself, asks for the files of one folder, and
moves them to where the installer of the single zip would have extracted them.

It finds the architecture and the width in its own way. Wherever the two ways agree on
the width, the run is that of the single zip, whatever the zips contain.
-/

import BbBot.Build.Download
import BbBot.Build.Zip

namespace BbBot.Build

open BbBot.Unix BbBot.Installer BbBot.SelfExtractor

/-! ## Making the zip -/

/-- What a download leaves in `Bins/$i`. -/
def extractWanted (zip bins : Folder) : Folder :=
  (zip.remove fun name => !isWanted name).overlay bins

/-- `for i in arm x86 mips` -/
def families : List Str := ["arm".toList, "x86".toList, "mips".toList]

/-- The universal zip, from the folders `Bins/$i`. -/
def universalZip (sources : Sources) (release : Release) (bins : Str → Folder) : Folder :=
  let workspace := commonFiles sources release ∅
  let workspace := workspace.insert updateBinary
    (stamp (releaseStamps release) (sources.universal_installer ++ sources.base_installer))
  families.foldl (fun workspace i => Folder.copyInto i (bins i) workspace) workspace

/-! ## Its installer -/

/-- `echo $FOUNDARCH | grep -E "${ARCH}(_)?64"` -/
def mentions64 (arch foundArch : Str) : Bool :=
  decide (arch ++ "64".toList <:+: foundArch) || decide (arch ++ "_64".toList <:+: foundArch)

/-- `check_arch` of `universal_installer.sh`: the architecture and the file. -/
def checkFamily (foundArch : Str) : Option (Str × Str) :=
  (families.find? fun i => foundArch.take i.length = i).map fun arch =>
    (arch, if mentions64 arch foundArch then busyboxFile ++ "64".toList else busyboxFile)

/-- The members of a folder that `unzip_files` asks for. -/
def requestedInside (bbfile : Str) : List Str := [md5File, bbfile, sslHelperFile, xzdecFile]

/-- `unzip`, in an empty folder. -/
def extractedFamily (zip : Folder) (arch bbfile : Str) : Folder :=
  Folder.unzip ((requestedInside bbfile).map (Folder.inside arch) ++ [moduleFile]) zip ∅

/-- `mv $ARCH/* .` -/
def movedFile (extracted : Folder) (arch name : Str) : Option Str :=
  (extracted.lookup (Folder.inside arch name)).or (extracted.lookup name)

section Run

variable {ω : Type*} (md5 : Md5) (exec : Str → Str → Option Str) (clean : Device ω → Device ω)
  (noclean : Bool)

/-- `unzip_files` of `universal_installer.sh`, and the run from there on. Its status is
that of `mv`, which fails when there is nothing to move. -/
def familyRun (zip : Folder) (arch bbfile : Str) (device : Device ω) : Ending ω :=
  let moves := (requestedInside bbfile).any fun name => decide (Folder.inside arch name ∈ zip)
  baseRun md5 bbfile clean noclean (workingSteps md5 exec moves
    (fun name => movedFile (extractedFamily zip arch bbfile) arch name) bbfile) device

/-- The run of the universal installer on a device that works. -/
def universalRun (zip : Folder) (foundArch : Str) (enabled : Bool) (device : Device ω) :
    Ending ω :=
  match checkFamily foundArch with
  -- `error "Unknown architecture detected"`
  | none => .aborted device
  | some (arch, name) => familyRun md5 exec clean noclean zip arch (withSupport name enabled) device

end Run

/-! ## What is in a folder of the zip -/

theorem families_plain : ∀ i ∈ families, '/' ∉ i := by decide

theorem families_nodup : families.Nodup := by decide

section Contents

variable {bins : Str → Folder} {arch name : Str}

/-- A loop over different architectures puts the files of each into its folder. -/
theorem lookup_copyFamilies {archs : List Str} (plain : ∀ i ∈ archs, '/' ∉ i)
    (nodup : archs.Nodup) (isArch : arch ∈ archs) (workspace : Folder) :
    (archs.foldl (fun workspace i => Folder.copyInto i (bins i) workspace) workspace).lookup
        (Folder.inside arch name) =
      ((bins arch).lookup name).or (workspace.lookup (Folder.inside arch name)) := by
  induction archs generalizing workspace with
  | nil => exact absurd isArch List.not_mem_nil
  | cons first archs ih =>
    obtain ⟨notLater, nodup⟩ := List.nodup_cons.mp nodup
    have plainLater : ∀ i ∈ archs, '/' ∉ i := fun i later => plain i (List.mem_cons_of_mem _ later)
    rw [List.foldl_cons]
    rcases List.mem_cons.mp isArch with rfl | later
    · -- The later folders are others.
      have untouched (rest : List Str) (isRest : ∀ i ∈ rest, i ∈ archs) (ws : Folder) :
          (rest.foldl (fun workspace i => Folder.copyInto i (bins i) workspace) ws).lookup
            (Folder.inside arch name) = ws.lookup (Folder.inside arch name) := by
        induction rest generalizing ws with
        | nil => rfl
        | cons i rest ih =>
          have isLater := isRest i List.mem_cons_self
          rw [List.foldl_cons, ih fun j member => isRest j (List.mem_cons_of_mem _ member),
            Folder.copyInto, Folder.lookup_copyAs_of_ne]
          intro file _
          apply Folder.inside_ne_inside (plain arch List.mem_cons_self) (plainLater i isLater)
          rintro rfl
          exact notLater isLater
      rw [untouched archs (fun _ member => member), Folder.lookup_copyInto]
    · rw [ih plainLater nodup later, Folder.copyInto, Folder.lookup_copyAs_of_ne]
      intro file _
      apply Folder.inside_ne_inside (plainLater arch later) (plain first List.mem_cons_self)
      rintro rfl
      exact notLater later

/-- The folder of an architecture in the zip is the folder of its binaries. -/
theorem lookup_universalZip (sources : Sources) (release : Release) (isArch : arch ∈ families) :
    (universalZip sources release bins).lookup (Folder.inside arch name) =
      (bins arch).lookup name := by
  have plain := families_plain arch isArch
  have notMeta : arch ≠ "META-INF".toList := by
    revert arch
    decide
  -- The scripts lie outside the folders of the architectures.
  have outside (file : Str) (isScript : file = updateBinary ∨ file = updaterScript) :
      Folder.inside arch name ≠ file := by
    rcases isScript with rfl | rfl
    · exact Folder.inside_ne_inside plain (by decide) notMeta name
        "com/google/android/update-binary".toList
    · exact Folder.inside_ne_inside plain (by decide) notMeta name
        "com/google/android/updater-script".toList
  have flat (file : Str) (single : '/' ∉ file) : Folder.inside arch name ≠ file :=
    (Folder.ne_inside single arch name).symm
  rw [universalZip, lookup_copyFamilies families_plain families_nodup isArch,
    AList.lookup_insert_ne (outside _ (Or.inl rfl)), commonFiles,
    AList.lookup_insert_ne (outside _ (Or.inr rfl)),
    AList.lookup_insert_ne (flat _ (by decide)), AList.lookup_insert_ne (flat _ (by decide)),
    AList.lookup_insert_ne (flat _ (by decide))]
  exact Option.or_none

/-- What `unzip_files` leaves under a name is what is in the folder of the architecture. -/
theorem movedFile_universalZip (sources : Sources) (release : Release) (isArch : arch ∈ families)
    {bbfile : Str} (asked : name ∈ requestedInside bbfile) (other : name ≠ moduleFile)
    (single : '/' ∉ name) :
    movedFile (extractedFamily (universalZip sources release bins) arch bbfile) arch name =
      (bins arch).lookup name := by
  have isMember : Folder.inside arch name ∈
      (requestedInside bbfile).map (Folder.inside arch) ++ [moduleFile] :=
    List.mem_append_left _ (List.mem_map_of_mem asked)
  have notMember : name ∉ (requestedInside bbfile).map (Folder.inside arch) ++ [moduleFile] := by
    intro member
    rcases List.mem_append.mp member with inner | last
    · obtain ⟨file, -, same⟩ := List.mem_map.mp inner
      exact Folder.ne_inside single arch file same.symm
    · exact other (List.mem_singleton.mp last)
  rw [movedFile, extractedFamily, Folder.lookup_unzip, if_pos isMember, Folder.lookup_unzip,
    if_neg notMember, lookup_universalZip sources release isArch]
  simp

end Contents

/-! ## The same run -/

section Same

variable {ω : Type*} {md5 : Md5} {exec : Str → Str → Option Str} {clean : Device ω → Device ω}
  {noclean unzips : Bool} {device : Device ω} {files other : Str → Option Str} {bbfile : Str}

/-- A run only looks at the files that it checks and at the list. -/
theorem baseRun_congr
    (same : ∀ name ∈ md5File :: checkedFiles bbfile, files name = other name) :
    baseRun md5 bbfile clean noclean (workingSteps md5 exec unzips files bbfile) device =
      baseRun md5 bbfile clean noclean (workingSteps md5 exec unzips other bbfile) device := by
  have list := same md5File (by simp)
  have binary := same bbfile (by simp [checkedFiles])
  have helper := same sslHelperFile (by simp [checkedFiles])
  have xzdec := same xzdecFile (by simp [checkedFiles])
  simp only [baseRun, passes, checkedFiles, List.all_cons, List.all_nil, isVerified, installed,
    workingSteps, list, binary, helper, xzdec]

/-- A run without one of these files ends before anything is changed. -/
theorem baseRun_of_missing {name : Str} (needed : name ∈ md5File :: checkedFiles bbfile)
    (missing : files name = none) :
    baseRun md5 bbfile clean noclean (workingSteps md5 exec unzips files bbfile) device =
      .aborted device := by
  rw [baseRun, if_neg]
  intro passed
  have verified (file : Str) (checked : file ∈ checkedFiles bbfile) :=
    isVerified_iff.mp (isVerified_of_passes passed checked)
  rcases List.mem_cons.mp needed with rfl | checked
  · obtain ⟨-, list, -, isList, -⟩ := verified bbfile List.mem_cons_self
    exact absurd (missing.symm.trans isList) (by simp)
  · obtain ⟨content, -, isFile, -, -⟩ := verified name checked
    exact absurd (missing.symm.trans isFile) (by simp)

theorem needed_names : ∀ wide enabled, ∀ name ∈ md5File :: checkedNames wide enabled,
    '/' ∉ name ∧ name ≠ moduleFile ∧ isWanted name = true := by decide

/-- The files of a folder that was filled from a zip give the run of that zip. -/
theorem familyRun_universalZip (sources : Sources) (release : Release) {arch : Str}
    (isArch : arch ∈ families) {bins : Str → Folder} {zip committed : Folder}
    (downloaded : bins arch = extractWanted zip committed) (hasModule : moduleFile ∈ zip)
    (hasXzdec : xzdecFile ∈ zip) (only : ∀ name ∈ committed, name = xzdecFile)
    (wide enabled : Bool) :
    familyRun md5 exec clean noclean (universalZip sources release bins) arch
        (binaryFile wide enabled) device =
      zipRun md5 exec clean noclean zip (binaryFile wide enabled) device := by
  have here (name : Str) (needed : name ∈ md5File :: checkedNames wide enabled) :
      (bins arch).lookup name = zip.lookup name := by
    obtain ⟨-, -, isKept⟩ := needed_names wide enabled name needed
    rw [downloaded, extractWanted, Folder.lookup_overlay, Folder.lookup_remove, isKept]
    simp only [Bool.not_true, Bool.false_eq_true, if_false]
    cases found : zip.lookup name with
    | some content => rfl
    | none =>
      rw [Option.none_or, AList.lookup_eq_none]
      intro inCommitted
      rw [only name inCommitted] at found
      exact AList.lookup_eq_none.mp found hasXzdec
  have asked (name : Str) (needed : name ∈ md5File :: checkedNames wide enabled) :
      name ∈ requestedInside (binaryFile wide enabled) ∧
        name ∈ requested (binaryFile wide enabled) := by
    refine ⟨?_, ?_⟩
    · simpa [requestedInside, checkedNames, checkedFiles] using needed
    · rw [mem_requested]
      rcases List.mem_cons.mp needed with same | checked
      · exact Or.inl same
      · exact Or.inr (Or.inl checked)
  have moved (name : Str) (needed : name ∈ md5File :: checkedNames wide enabled) :
      movedFile (extractedFamily (universalZip sources release bins) arch
        (binaryFile wide enabled)) arch name = zip.lookup name := by
    obtain ⟨single, other, -⟩ := needed_names wide enabled name needed
    rw [movedFile_universalZip sources release isArch (asked name needed).1 other single,
      here name needed]
  have extracted (name : Str) (needed : name ∈ md5File :: checkedNames wide enabled) :
      (Folder.unzip (requested (binaryFile wide enabled)) zip ∅).lookup name = zip.lookup name := by
    rw [Folder.lookup_unzip, if_pos (asked name needed).2]
    exact Option.or_none
  by_cases complete : ∀ name ∈ md5File :: checkedNames wide enabled, name ∈ zip
  · -- Both ways of unzipping succeed, and give the same files.
    have moves : ((requestedInside (binaryFile wide enabled)).any fun name =>
        decide (Folder.inside arch name ∈ universalZip sources release bins)) = true := by
      refine List.any_eq_true.mpr ⟨md5File, by simp [requestedInside], ?_⟩
      rw [decide_eq_true_iff, ← AList.lookup_isSome, lookup_universalZip sources release isArch,
        here md5File List.mem_cons_self, AList.lookup_isSome]
      exact complete md5File List.mem_cons_self
    have unzips : ((requested (binaryFile wide enabled)).all fun name =>
        decide (name ∈ zip)) = true := by
      rw [List.all_eq_true]
      intro name isRequested
      rw [decide_eq_true_iff]
      rcases (mem_requested _).mp isRequested with rfl | checked | rfl
      · exact complete _ List.mem_cons_self
      · exact complete _ (List.mem_cons_of_mem _ checked)
      · exact hasModule
    rw [familyRun, moves, zipRun, unzips]
    exact baseRun_congr fun name needed => (moved name needed).trans (extracted name needed).symm
  · -- A missing file ends both runs.
    push Not at complete
    obtain ⟨name, needed, missing⟩ := complete
    have nowhere := AList.lookup_eq_none.mpr missing
    rw [familyRun, zipRun, baseRun_of_missing needed ((moved name needed).trans nowhere),
      baseRun_of_missing needed ((extracted name needed).trans nowhere)]

end Same

/-! ## One zip for every device -/

/-- The two ways to find the width agree on a device. -/
def WidthsAgree (foundArch : Str) : Prop :=
  ∀ row ∈ matrix, row.1 <+: foundArch →
    (row.2 <+: foundArch ↔ mentions64 row.1 foundArch = true)

instance (foundArch : Str) : Decidable (WidthsAgree foundArch) :=
  inferInstanceAs (Decidable (∀ row ∈ matrix, _ → (_ ↔ _)))

/-- The zip of a row, from the folder of its binaries. -/
def rowZip (sources : Sources) (release : Release) (bins : Str × Str → Folder)
    (row : Str × Str) : Folder :=
  zipFor sources release (toBuild row) (bins row) ∅

/-- What `download_files.py` leaves for each architecture. -/
def downloadedBins (sources : Sources) (release : Release) (bins : Str × Str → Folder)
    (committed : Str → Folder) (arch : Str) : Folder :=
  match matrix.find? fun row => row.1 = arch with
  | some row => extractWanted (rowZip sources release bins row) (committed arch)
  | none => committed arch

theorem families_eq : families = matrix.map Prod.fst := rfl

theorem find_row : ∀ row ∈ matrix, (matrix.find? fun other => other.1 = row.1) = some row := by
  decide

section Universal

variable {sources : Sources} {release : Release} {bins : Str × Str → Folder}
  {committed : Str → Folder} {foundArch : Str}

theorem downloadedBins_row {row : Str × Str} (isRow : row ∈ matrix) :
    downloadedBins sources release bins committed row.1 =
      extractWanted (rowZip sources release bins row) (committed row.1) := by
  rw [downloadedBins, find_row row isRow]

theorem checkFamily_eq (foundArch : Str) :
    checkFamily foundArch = (matrix.find? fun row => decide (row.1 <+: foundArch)).map fun row =>
      (row.1, if mentions64 row.1 foundArch then busyboxFile ++ "64".toList else busyboxFile) := by
  have starts : (fun i : Str => decide (foundArch.take i.length = i)) =
      fun i => decide (i <+: foundArch) := by
    funext i
    rw [decide_eq_decide, List.prefix_iff_eq_take, eq_comm]
  rw [checkFamily, families_eq, starts, List.find?_map, Option.map_map]
  rfl

/-- What the builds of all rows leave. -/
def elfBins (row : Str × Str) : Folder :=
  (buildBins elfTools elfConfigs (toBuild row) xzdecOnly).getD ∅

end Universal

end BbBot.Build
