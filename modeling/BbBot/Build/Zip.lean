/-
# From the sources to the device

`mkzip.sh` puts the packed binaries of an architecture into a zip, together with an
installer that is stamped with the names of the architecture. The installer compares
these names with that of the device, chooses a file by its width and by its SELinux
support, and checks the digests before it unpacks the binary with the archive's own
decompressor.

A binary goes through four names on its way. What arrives is what was compiled for the
architecture of the device with the configuration that the device needs, and a device
of another architecture is left as it was.
-/

import BbBot.Build.Binaries
import BbBot.Build.Stamp

namespace BbBot.Build

open BbBot.Unix BbBot.Installer BbBot.SelfExtractor

/-! ## `mkzip.sh` -/

/-- The files that the zips are made of, apart from the binaries. -/
structure Sources where
  addusergroup : Str
  survivalScript : Str
  moduleProp : Str
  normal_installer : Str
  universal_installer : Str
  base_installer : Str

/-- A character that `sed` takes as it is, and that does not end a line. -/
def isPlain (c : Char) : Bool := !(c = '\n' || c = '|' || c = '&' || c = '\\')

/-- `VER`, `STATUS` and `DATE`. None of them has a character that `sed` treats specially. -/
structure Release where
  ver : Str
  status : Str
  date : Str
  plain : ∀ value ∈ [ver, status, date], value.all isPlain = true

def survivalFile : Str := "88-busybox.sh".toList

def usersFile : Str := "addusergroup.sh".toList

def moduleFile : Str := "module.prop".toList

def updateBinary : Str := "META-INF/com/google/android/update-binary".toList

def updaterScript : Str := "META-INF/com/google/android/updater-script".toList

def quoted (value : Str) : Str := '"' :: (value ++ ['"'])

/-- The commands for `STATUS`, `DATE` and `VER`. -/
def releaseStamps (release : Release) : List (Str × Str) :=
  [("STATUS".toList, quoted release.status), ("DATE".toList, quoted release.date),
    ("VER".toList, quoted release.ver)]

/-- The commands of `sed` on the scripts for an architecture. -/
def archStamps (release : Release) (arch arch64 : Str) : List (Str × Str) :=
  [("ARCH".toList, arch), ("ARCH64".toList, arch64)] ++ releaseStamps release

/-- The commands of `sed` on `module.prop`. -/
def moduleStamps (release : Release) : List (Str × Str) :=
  [("version".toList, 'v' :: release.ver),
    ("versionCode".toList, release.ver.filter fun c => !(c.isAlpha || c = '.' || c = '-'))]

/-- What every zip starts from, in the folder `workspace`. -/
def commonFiles (sources : Sources) (release : Release) (workspace : Folder) : Folder :=
  let workspace := workspace.insert usersFile sources.addusergroup
  let workspace := workspace.insert survivalFile sources.survivalScript
  let workspace := workspace.insert moduleFile (stamp (moduleStamps release) sources.moduleProp)
  workspace.insert updaterScript "#MAGISK\n".toList

/-- The zip of an architecture, from the folder `Bins/$ARCH`. -/
def zipFor (sources : Sources) (release : Release) (toBuild : Str) (bins workspace : Folder) :
    Folder :=
  let workspace := bins.overlay (commonFiles sources release workspace)
  workspace.insert updateBinary
    (stamp (archStamps release (beforeLast ' ' toBuild) (afterFirst ' ' toBuild))
      (sources.normal_installer ++ sources.base_installer))

/-! ## The installer of the zip -/

/-- `check_arch` of `normal_installer.sh`: `${FOUNDARCH::${#ARCH}}` is the beginning of
the device's architecture. -/
def checkArch (arch arch64 foundArch : Str) : Option Str :=
  if foundArch.take arch64.length = arch64 then some (busyboxFile ++ "64".toList)
  else if foundArch.take arch.length = arch then some busyboxFile
  else none

/-- `BBFILE="${BBFILE}${BBSEL}.xz"` -/
def withSupport (bbfile : Str) (enabled : Bool) : Str :=
  bbfile ++ (if enabled then "-sel".toList else []) ++ xzEnding

/-- The members that `unzip_files` asks for. -/
def requested (bbfile : Str) : List Str := [md5File, bbfile, sslHelperFile, xzdecFile, moduleFile]

/-- The commands of a run that all do their work. A program that was extracted is run by
`exec`, on its input. -/
def workingSteps (md5 : Md5) (exec : Str → Str → Option Str) (unzips : Bool)
    (files : Str → Option Str) (bbfile : Str) : Steps where
  unzips := unzips
  files := files
  printed := fun name => ((files name).elim [] (md5.line name)).length
  -- `./xzdec $BBFILE > busybox`
  unpacked := ((files xzdecFile).bind fun xzdec => (files bbfile).bind (exec xzdec)).getD []
  directory := true
  copyBusybox := .whole
  copyHelper := .whole
  applets := true

section Run

variable {ω : Type*} (md5 : Md5) (exec : Str → Str → Option Str) (clean : Device ω → Device ω)
  (noclean : Bool)

/-- What the installer of a zip assigns to a name. -/
def installerSetting (zip : Folder) (name : Str) : Str :=
  setting ((zip.lookup updateBinary).getD []) name

/-- `unzip_files` of `normal_installer.sh`, and the run from there on. -/
def zipRun (zip : Folder) (bbfile : Str) (device : Device ω) : Ending ω :=
  baseRun md5 bbfile clean noclean (workingSteps md5 exec
    ((requested bbfile).all fun name => decide (name ∈ zip))
    (fun name => (Folder.unzip (requested bbfile) zip ∅).lookup name) bbfile) device

/-- The run of a zip's installer on a device that works. -/
def normalRun (zip : Folder) (foundArch : Str) (enabled : Bool) (device : Device ω) : Ending ω :=
  match checkArch (installerSetting zip "ARCH".toList) (installerSetting zip "ARCH64".toList)
    foundArch with
  -- `error "Wrong architecture found"`
  | none => .aborted device
  | some name => zipRun md5 exec clean noclean zip (withSupport name enabled) device

end Run

/-! ## The names of the architecture -/

theorem Release.stamps (release : Release) {arch arch64 : Str} (plain : '\n' ∉ arch)
    (plain64 : '\n' ∉ arch64) : Stamps (archStamps release arch arch64) := by
  have single {value : Str} (member : value ∈ [release.ver, release.status, release.date]) :
      '\n' ∉ quoted value := by
    intro inside
    simp only [quoted, List.mem_cons, List.mem_append, List.not_mem_nil, or_false] at inside
    rcases inside with first | inside | last
    · exact absurd first (by decide)
    · exact absurd (List.all_eq_true.mp (release.plain value member) '\n' inside) (by decide)
    · exact absurd last (by decide)
  constructor
  · have names : (archStamps release arch arch64).map Prod.fst =
        ["ARCH".toList, "ARCH64".toList, "STATUS".toList, "DATE".toList, "VER".toList] := rfl
    have noEquals : ∀ name ∈ ["ARCH".toList, "ARCH64".toList, "STATUS".toList, "DATE".toList,
        "VER".toList], '=' ∉ name := by decide
    intro command member
    exact noEquals _ (names ▸ List.mem_map_of_mem member)
  · intro command member
    simp only [archStamps, releaseStamps, List.mem_append, List.mem_cons, List.not_mem_nil,
      or_false] at member
    rcases member with (rfl | rfl) | rfl | rfl | rfl
    · exact plain
    · exact plain64
    · exact single (by simp)
    · exact single (by simp)
    · exact single (by simp)

/-- The lines that the installers have for the architecture. -/
structure Marked (text : Str) : Prop where
  arch : ∃ line ∈ lines text, assigned line = some "ARCH".toList
  arch64 : ∃ line ∈ lines text, assigned line = some "ARCH64".toList

theorem row_plain : ∀ row ∈ matrix, '\n' ∉ row.1 ∧ '\n' ∉ row.2 := by decide

theorem afterFirst_toBuild : ∀ row ∈ matrix, afterFirst ' ' (toBuild row) = row.2 := by decide

/-- The installer of a row's zip knows the architectures of the row. -/
theorem installerSetting_zipFor (sources : Sources) (release : Release) {row : Str × Str}
    (isRow : row ∈ matrix) (bins workspace : Folder)
    (marked : Marked (sources.normal_installer ++ sources.base_installer)) :
    installerSetting (zipFor sources release (toBuild row) bins workspace) "ARCH".toList = row.1 ∧
      installerSetting (zipFor sources release (toBuild row) bins workspace) "ARCH64".toList =
        row.2 := by
  obtain ⟨plain, plain64⟩ := row_plain row isRow
  have stamps := release.stamps plain plain64
  rw [installerSetting, installerSetting, zipFor, AList.lookup_insert, Option.getD_some,
    beforeLast_toBuild row isRow, afterFirst_toBuild row isRow]
  constructor
  · rw [setting_stamp stamps (by decide)]
    exact if_pos marked.arch
  · rw [setting_stamp stamps (by decide)]
    exact if_pos marked.arch64

/-! ## The checks -/

theorem matchesHere_take (n : ℕ) (line : Str) : matchesHere (line.take n) line = true := by
  induction n generalizing line with
  | zero => rfl
  | succ n ih =>
    cases line with
    | nil => rfl
    | cons c line => simp [matchesHere, ih]

/-- What `md5sum` prints again of a line of the list is found in it. -/
theorem grepFinds_take {list line : Str} (listed : line ∈ inputLines list) (n : ℕ) :
    grepFinds (line.take n) list = true :=
  List.any_eq_true.mpr ⟨line, listed, List.any_eq_true.mpr
    ⟨line, (List.mem_tails _ _).mpr List.suffix_rfl, matchesHere_take n line⟩⟩

section Checks

variable {ω : Type*} {md5 : Md5} {exec : Str → Str → Option Str} {clean : Device ω → Device ω}
  {noclean : Bool} {device : Device ω} {files : Str → Option Str} {bbfile : Str}

/-- A run over files whose lines are all in the list ends with the binary that the
decompressor of the archive makes, and with the helper of the archive. -/
theorem baseRun_workingSteps {printed : List Str} {xzdec helper packed busybox : Str}
    (list : files md5File = some (output printed)) (single : ∀ line ∈ printed, '\n' ∉ line)
    (listed : ∀ name ∈ checkedFiles bbfile, ∀ content, files name = some content →
      md5.line name content ∈ printed)
    (hasBinary : files bbfile = some packed) (hasHelper : files sslHelperFile = some helper)
    (hasXzdec : files xzdecFile = some xzdec) (unpacks : exec xzdec packed = some busybox) :
    baseRun md5 bbfile clean noclean (workingSteps md5 exec true files bbfile) device =
      .done { (if noclean then device else clean device) with
        busybox := some busybox, helper := some helper } := by
  have verified (name : Str) (checked : name ∈ checkedFiles bbfile) {content : Str}
      (here : files name = some content) :
      isVerified md5 (workingSteps md5 exec true files bbfile) name = true := by
    refine isVerified_iff.mpr ⟨content, output printed, here, list, grepFinds_take ?_ _⟩
    rw [inputLines_output single]
    exact listed name checked content here
  have passed : passes md5 bbfile (workingSteps md5 exec true files bbfile) = true := by
    simp only [passes, Bool.and_eq_true, List.all_eq_true]
    refine ⟨⟨rfl, ?_⟩, rfl⟩
    intro name checked
    have named := checked
    simp only [checkedFiles, List.mem_cons, List.not_mem_nil, or_false] at named
    rcases named with rfl | rfl | rfl
    · exact verified _ checked hasBinary
    · exact verified _ checked hasHelper
    · exact verified _ checked hasXzdec
  have applets : (workingSteps md5 exec true files bbfile).applets = true := rfl
  rw [baseRun, if_pos passed, if_pos applets, installed]
  simp only [workingSteps, Copy.result, hasXzdec, hasBinary, hasHelper, Option.bind_some, unpacks,
    Option.getD_some]

end Checks

/-! ## What arrives on the device -/

theorem checkArch_eq (arch arch64 foundArch : Str) :
    checkArch arch arch64 foundArch =
      if arch64 <+: foundArch then some (busyboxFile ++ "64".toList)
      else if arch <+: foundArch then some busyboxFile else none := by
  rw [checkArch]
  refine if_congr ?_ rfl (if_congr ?_ rfl rfl)
  · rw [List.prefix_iff_eq_take, eq_comm]
  · rw [List.prefix_iff_eq_take, eq_comm]

theorem fst_isPrefix_snd : ∀ row ∈ matrix, row.1 <+: row.2 := by decide

theorem withSupport_eq (wide enabled : Bool) :
    withSupport (if wide then busyboxFile ++ "64".toList else busyboxFile) enabled =
      binaryFile wide enabled := by
  revert wide enabled
  decide

/-- The binary that a device of the row should get. -/
def meantBinary (tools : Tools) (configs : Configs) (row : Str × Str) (foundArch : Str)
    (enabled : Bool) : Option Str :=
  compile tools (configs.config enabled) (target row (decide (row.2 <+: foundArch)))

section Arrival

variable {tools : Tools} {configs : Configs} {row : Str × Str} {before bins : Folder}

theorem packed_of_buildBins (isRow : row ∈ matrix)
    (builds : buildBins tools configs (toBuild row) before = some bins) :
    Packed tools configs row before bins := by
  obtain ⟨helped, ssl, builds⟩ := Option.bind_eq_some_iff.mp builds
  obtain ⟨out, bb, updates⟩ := Option.bind_eq_some_iff.mp builds
  exact packed_of_built isRow (built_of_builds isRow ssl bb) updates

/-- The files of the folder are in the zip. -/
theorem lookup_zipFor (sources : Sources) (release : Release) {name content : Str} (workspace : Folder)
    (here : bins.lookup name = some content) (other : name ≠ updateBinary) :
    (zipFor sources release (toBuild row) bins workspace).lookup name = some content := by
  rw [zipFor, AList.lookup_insert_ne other, Folder.lookup_overlay, here]
  rfl

theorem moduleFile_mem_zipFor (sources : Sources) (release : Release) (workspace : Folder) :
    moduleFile ∈ zipFor sources release (toBuild row) bins workspace := by
  rw [← AList.lookup_isSome, zipFor, AList.lookup_insert_ne (by decide), Folder.lookup_overlay,
    commonFiles, AList.lookup_insert_ne (by decide), AList.lookup_insert]
  cases bins.lookup moduleFile <;> rfl

theorem requested_ne_updateBinary : ∀ wide enabled,
    ∀ name ∈ md5File :: checkedNames wide enabled, name ≠ updateBinary := by decide

theorem mem_requested (bbfile : Str) {name : Str} :
    name ∈ requested bbfile ↔
      name = md5File ∨ name ∈ checkedFiles bbfile ∨ name = moduleFile := by
  simp only [requested, checkedFiles, List.mem_cons, List.not_mem_nil, or_false, or_assoc]

/-- What the installer of a row's zip extracts. -/
theorem lookup_extracted (sources : Sources) (release : Release) {name content : Str} (wide enabled : Bool) (workspace : Folder)
    (isChecked : name ∈ md5File :: checkedNames wide enabled)
    (here : bins.lookup name = some content) :
    (Folder.unzip (requested (binaryFile wide enabled))
      (zipFor sources release (toBuild row) bins workspace) ∅).lookup name = some content := by
  have asked : name ∈ requested (binaryFile wide enabled) := by
    rw [mem_requested]
    rcases List.mem_cons.mp isChecked with same | checked
    · exact Or.inl same
    · exact Or.inr (Or.inl checked)
  rw [Folder.lookup_unzip, if_pos asked,
    lookup_zipFor sources release workspace here (requested_ne_updateBinary wide enabled name isChecked)]
  rfl

theorem zipRun_zipFor (sources : Sources) (release : Release) (packed : Packed tools configs row before bins) (workspace : Folder)
    {xzdec busybox helper : Str} (hasXzdec : bins.lookup xzdecFile = some xzdec)
    {wide enabled : Bool} (hasBinary : bins.lookup (binaryFile wide enabled) =
      some (tools.xz busybox)) (hasHelper : bins.lookup sslHelperFile = some helper)
    {exec : Str → Str → Option Str} (unpacks : exec xzdec (tools.xz busybox) = some busybox)
    {ω : Type*} (clean : Device ω → Device ω) (noclean : Bool) (device : Device ω) :
    zipRun tools.md5 exec clean noclean (zipFor sources release (toBuild row) bins workspace)
        (binaryFile wide enabled) device =
      .done { (if noclean then device else clean device) with
        busybox := some busybox, helper := some helper } := by
  obtain ⟨printed, list, single, listed⟩ := packed.list
  have asked (name : Str) (isChecked : name ∈ md5File :: checkedNames wide enabled)
      {content : Str} (here : bins.lookup name = some content) :=
    @lookup_extracted row bins sources release name content wide enabled workspace isChecked here
  have present (name : Str) (isChecked : name ∈ checkedNames wide enabled) :
      ∃ content, bins.lookup name = some content := by
    simp only [checkedNames, checkedFiles, List.mem_cons, List.not_mem_nil, or_false] at isChecked
    rcases isChecked with rfl | rfl | rfl
    · exact ⟨_, hasBinary⟩
    · exact ⟨_, hasHelper⟩
    · exact ⟨_, hasXzdec⟩
  have unzips : ((requested (binaryFile wide enabled)).all fun name =>
      decide (name ∈ zipFor sources release (toBuild row) bins workspace)) = true := by
    rw [List.all_eq_true]
    intro name isRequested
    rw [decide_eq_true_iff]
    rcases (mem_requested _).mp isRequested with rfl | isChecked | rfl
    · rw [← AList.lookup_isSome, lookup_zipFor sources release workspace list (by decide)]
      rfl
    · obtain ⟨content, here⟩ := present name isChecked
      rw [← AList.lookup_isSome, lookup_zipFor sources release workspace here
        (requested_ne_updateBinary wide enabled name (List.mem_cons_of_mem _ isChecked))]
      rfl
    · exact moduleFile_mem_zipFor sources release workspace
  rw [zipRun, unzips]
  refine baseRun_workingSteps (asked md5File List.mem_cons_self list) single ?_
    (asked _ (by simp [checkedNames, checkedFiles]) hasBinary)
    (asked _ (by simp [checkedNames, checkedFiles]) hasHelper)
    (asked _ (by simp [checkedNames, checkedFiles]) hasXzdec) unpacks
  intro name checked content extracted
  obtain ⟨same, here⟩ := present name checked
  rw [asked name (List.mem_cons_of_mem _ checked) here] at extracted
  rw [Option.some.inj extracted] at here
  exact listed wide enabled name checked content here

end Arrival

/-! ## A build -/

def elfCompress (content : Str) : Str :=
  if content = "ELF".toList then elfXz else 'x' :: content

/-- Tools that compile and link two small files. -/
def elfTools : Tools where
  sysroot := fun _ => "toolchains/sysroot".toList
  make := fun _ _ => some "ELF".toList
  link := fun _ => some "ssl".toList
  xz := elfCompress
  md5 := elfMd5
  sysroot_single := fun _ => by decide
  digest_single := by
    intro content
    unfold elfMd5
    dsimp only
    split_ifs
    · decide
    · decide
    · decide
    · decide

/-- The decompressor of the archive. -/
def elfExec (_ input : Str) : Option Str :=
  if input = elfXz then some "ELF".toList else some input.tail

theorem elfExec_elfCompress (xzdec content : Str) :
    elfExec xzdec (elfCompress content) = some content := by
  unfold elfCompress
  split_ifs with isElf
  · rw [elfExec, if_pos rfl, isElf]
  · have other : 'x' :: content ≠ elfXz := by
      intro same
      have first : some 'x' = some (Char.ofNat 253) := congrArg List.head? same
      exact absurd first (by decide)
    rw [elfExec, if_neg other, List.tail_cons]

def elfConfigs : Configs where
  conf_no_selinux := "CONFIG_SYSROOT=\"\"\n# CONFIG_SELINUX is not set\n".toList
  conf_selinux := "CONFIG_SYSROOT=\"\"\nCONFIG_SELINUX=y\n".toList

def elfSources : Sources where
  addusergroup := "users\n".toList
  survivalScript := "survival\n".toList
  moduleProp := "version=\nversionCode=\n".toList
  normal_installer := "ARCH=\nARCH64=\n".toList
  universal_installer := "check_arch\n".toList
  base_installer := "DATE=\nSTATUS=\nVER=\n".toList

def elfRelease : Release where
  ver := "1.30.1-YDS".toList
  status := "stable".toList
  date := "01 Jan/19".toList
  plain := by decide

/-- The folder of an architecture before the build. -/
def xzdecOnly : Folder := AList.singleton xzdecFile "dec".toList

theorem elfSources_marked :
    Marked (elfSources.normal_installer ++ elfSources.base_installer) :=
  ⟨by decide, by decide⟩

end BbBot.Build
