/-
# Building and packing the binaries

`build-ssl.sh` links the helper of an architecture. `build-bb.sh` compiles the binary of
every architecture that it is given, first without and then with SELinux support. One
configuration file serves all of them: before each compilation the line that names the
toolchain's libraries is replaced. `update-bins.sh` compresses the binaries under the
names that the installers ask for, and writes the list of digests.

The names decide which binary ends up where. A binary is found by what is in its name,
`xz` does not write over a file, and the list is only appended to.
-/

import BbBot.Unix.Folders
import BbBot.Installer.Verification

namespace BbBot.Build

open BbBot.Unix BbBot.Installer

/-- What the compilers and the packing tools make of their inputs. -/
structure Tools where
  /-- `find $toolc -name sysroot`, for the toolchain of an architecture. -/
  sysroot : Str → Str
  /-- `make` for an architecture, with the configuration. -/
  make : Str → Str → Option Str
  /-- The helper that the commands of `build-ssl.sh` leave, for a toolchain. -/
  link : Str → Option Str
  xz : Str → Str
  md5 : Md5
  sysroot_single : ∀ arch, '\n' ∉ sysroot arch
  digest_single : ∀ content, '\n' ∉ md5.digest content

/-- The two configurations of the binary. -/
structure Configs where
  conf_no_selinux : Str
  conf_selinux : Str

def mipseb : Str := "mipseb".toList

/-! ## `build-ssl.sh` -/

/-- `case $TO_BUILD in` -/
def suffix (toBuild : Str) : Option Str :=
  if "arm".toList <+: toBuild then some "arm".toList
  else if "x86".toList <+: toBuild then some "x86".toList
  else if toBuild = mipseb then some mipseb
  else if "mips".toList <+: toBuild then some "mips".toList
  else none

def helperName (arch : Str) : Str := "ssl_helper-".toList ++ arch

/-- `build-ssl.sh`: only the last command, which moves the helper, is looked at. -/
def buildSsl (tools : Tools) (toBuild : Str) (out : Folder) : Option Folder := do
  let suffix ← suffix toBuild
  let helper ← tools.link suffix
  some (out.insert (helperName suffix) helper)

/-! ## `build-bb.sh` -/

def sysrootName : Str := "CONFIG_SYSROOT".toList

def sysrootLine (sysr : Str) : Str := sysrootName ++ ("=\"".toList ++ sysr ++ "\"".toList)

/-- `s|.*CONFIG_SYSROOT.*|CONFIG_SYSROOT="$sysr"|`, on one line. -/
def replaceSysroot (sysr line : Str) : Str :=
  if sysrootName <:+: line then sysrootLine sysr else line

/-- `sed -i` with that command, on `.config`. -/
def setSysroot (sysr config : Str) : Str :=
  unlines ((lines config).map (replaceSysroot sysr))

def busyboxDash : Str := "busybox-".toList

def binaryName (arch current : Str) : Str := busyboxDash ++ (arch ++ '-' :: current)

/-- The loop of `build`. The configuration is the one that the last round has left. -/
def buildArchs (tools : Tools) (current : Str) :
    List Str → Str → Folder → Option (Str × Folder)
  | [], config, out => some (config, out)
  | arch :: archs, config, out => do
    let config := setSysroot (tools.sysroot arch) config
    let busybox ← tools.make arch config
    buildArchs tools current archs config (out.insert (binaryName arch current) busybox)

/-- `build`, which calls itself when it is asked for everything. -/
def build (tools : Tools) (current : Str) (words : List Str) (config : Str) (out : Folder) :
    Option (Str × Folder) :=
  if words.head? = some "all".toList then
    buildArchs tools current (["arm", "arm64", "x86", "x86_64", "mips", "mips64",
      "mipseb"].map String.toList) config out
  else buildArchs tools current words config out

/-- `build-bb.sh` -/
def buildBb (tools : Tools) (configs : Configs) (toBuild : Str) (out : Folder) :
    Option Folder := do
  let (_, out) ← build tools "nosel".toList (fields toBuild) configs.conf_no_selinux out
  if toBuild = mipseb then some out
  else do
    let (_, out) ← build tools "sel".toList (fields toBuild) configs.conf_selinux out
    some out

/-! ## `update-bins.sh` -/

def outPath : Str := "../../../out/".toList

/-- `busybox-${i}{64,_64,}-*` -/
def isListed (i name : Str) : Bool :=
  ["64".toList, "_64".toList, []].any fun wide =>
    (busyboxDash ++ (i ++ (wide ++ ['-']))).isPrefixOf name

/-- `$(ls ../../../out/busybox-${i}{64,_64,}-*)` -/
def listedBinaries (i : Str) (out : Folder) : List Str :=
  fields (output ((out.listing.filter (isListed i)).map (outPath ++ ·)))

/-- The file that a path names. -/
def outFile (out : Folder) (path : Str) : Option Str :=
  if outPath <+: path then out.lookup (path.drop outPath.length) else none

/-- What the name of a packed binary has after `busybox`. -/
def extra (f : Str) : Str :=
  let sel := if "nosel".toList <:+: f then [] else "-sel".toList
  if "64".toList <:+: f then "64".toList ++ sel else sel

def busyboxFile : Str := "busybox".toList

def xzEnding : Str := ".xz".toList

def plainName (f : Str) : Str := busyboxFile ++ extra f

def packedName (f : Str) : Str := plainName f ++ xzEnding

/-- `$(md5sum name)`, which is empty when there is no such file. -/
def md5sum (md5 : Md5) (name : Str) (folder : Folder) : Str :=
  match folder.lookup name with
  | some content => md5.line name content
  | none => []

/-- `echo line >> file` -/
def echoTo (file line : Str) (folder : Folder) : Folder :=
  folder.insert file ((folder.lookup file).getD [] ++ (line ++ ['\n']))

/-- One round of the loop over the binaries. -/
def placeBinary (tools : Tools) (i : Str) (out bins : Folder) (f : Str) : Folder :=
  let bins := bins.copy (outFile out f) (plainName f)
  -- `xz` refuses to write over a file.
  let bins := if packedName f ∈ bins then bins
    else bins.copy ((bins.lookup (plainName f)).map tools.xz) (packedName f)
  let bins := AList.erase (plainName f) bins
  if i = mipseb then bins else echoTo md5File (md5sum tools.md5 (packedName f) bins) bins

/-- `rm busybox*` and `rm ssl_helper` -/
def isOld (name : Str) : Bool := busyboxFile.isPrefixOf name || decide (name = sslHelperFile)

/-- The folder before the loop, with the helper that was linked. -/
def startBins (helper : Option Str) (bins : Folder) : Folder :=
  (bins.remove isOld).copy helper sslHelperFile

/-- The list that the loop appends to. -/
def startList (md5 : Md5) (bins : Folder) : Folder :=
  bins.insert md5File (output [md5sum md5 sslHelperFile bins, md5sum md5 xzdecFile bins])

/-- `update-bins.sh`, in the folder `Bins/$i`. Its status is that of the last `cp`. -/
def updateBins (tools : Tools) (toBuild : Str) (out bins : Folder) : Option Folder :=
  let i := beforeLast ' ' toBuild
  let bins := startBins (out.lookup (helperName i)) bins
  let bins := if i = mipseb then bins else startList tools.md5 bins
  let bins := (listedBinaries i out).foldl (placeBinary tools i out) bins
  (out.lookup (helperName i)).map fun helper => bins.insert sslHelperFile helper

/-- What `readytorock.sh` runs for an architecture before the zip is made. A script that
fails ends it. -/
def buildBins (tools : Tools) (configs : Configs) (toBuild : Str) (bins : Folder) :
    Option Folder := do
  let out ← buildSsl tools toBuild ∅
  let out ← buildBb tools configs toBuild out
  updateBins tools toBuild out bins

/-! ## One configuration for all architectures -/

theorem newline_notMem_sysrootLine {sysr : Str} (single : '\n' ∉ sysr) :
    '\n' ∉ sysrootLine sysr := by
  have name : '\n' ∉ sysrootName := by decide
  simp [sysrootLine, name, single]

/-- The line has the name of the setting, so it is replaced again. -/
theorem replaceSysroot_replaceSysroot (first second line : Str) :
    replaceSysroot second (replaceSysroot first line) = replaceSysroot second line := by
  have again : sysrootName <:+: sysrootLine first := (List.prefix_append _ _).isInfix
  rw [replaceSysroot, replaceSysroot, replaceSysroot]
  by_cases here : sysrootName <:+: line
  · rw [if_pos here, if_pos again, if_pos here]
  · rw [if_neg here, if_neg here]

/-- Only the last toolchain that was written into a configuration is in it. -/
theorem setSysroot_setSysroot {first : Str} (single : '\n' ∉ first) (second config : Str) :
    setSysroot second (setSysroot first config) = setSysroot second config := by
  have pieces : lines (setSysroot first config) = (lines config).map (replaceSysroot first) := by
    apply lines_unlines
    · simp [lines]
    · intro piece member
      obtain ⟨line, isLine, rfl⟩ := List.mem_map.mp member
      rw [replaceSysroot]
      split_ifs
      · exact newline_notMem_sysrootLine single
      · exact newline_notMem_of_mem_lines isLine
  rw [setSysroot, pieces, List.map_map, setSysroot]
  congr 2
  funext line
  exact replaceSysroot_replaceSysroot first second line

/-- The binary of an architecture, compiled with a configuration as it was written. -/
def compile (tools : Tools) (config arch : Str) : Option Str :=
  tools.make arch (setSysroot (tools.sysroot arch) config)

theorem binaryName_injective (current : Str) {arch other : Str}
    (same : binaryName arch current = binaryName other current) : arch = other := by
  have ends : arch ++ '-' :: current = other ++ '-' :: current := List.append_cancel_left same
  exact List.append_cancel_right ends

/-- Every architecture gets a binary of its own, as if it had been the first one. -/
theorem buildArchs_spec {tools : Tools} {current : Str} {archs : List Str}
    {start config final : Str} {out built : Folder}
    (fresh : ∀ sysr, setSysroot sysr config = setSysroot sysr start)
    (builds : buildArchs tools current archs config out = some (final, built)) :
    (∀ arch ∈ archs, ∃ busybox, compile tools start arch = some busybox ∧
      built.lookup (binaryName arch current) = some busybox) ∧
    ∀ name, (∀ arch ∈ archs, name ≠ binaryName arch current) →
      built.lookup name = out.lookup name := by
  induction archs generalizing config out with
  | nil =>
    obtain ⟨-, rfl⟩ := Prod.mk.inj (Option.some.inj builds)
    exact ⟨by simp, fun name _ => rfl⟩
  | cons arch archs ih =>
    rw [buildArchs] at builds
    obtain ⟨busybox, makes, builds⟩ := Option.bind_eq_some_iff.mp builds
    rw [fresh] at makes
    have freshAgain (sysr : Str) :
        setSysroot sysr (setSysroot (tools.sysroot arch) config) = setSysroot sysr start := by
      rw [setSysroot_setSysroot (tools.sysroot_single arch), fresh]
    obtain ⟨later, others⟩ := ih freshAgain builds
    refine ⟨?_, ?_⟩
    · intro other member
      by_cases again : other ∈ archs
      · exact later other again
      · obtain rfl := (List.mem_cons.mp member).resolve_right again
        refine ⟨busybox, makes, ?_⟩
        rw [others _ fun later member same => again ?_]
        · exact AList.lookup_insert _
        · rwa [binaryName_injective _ same]
    · intro name other
      rw [others name fun arch member => other arch (List.mem_cons_of_mem _ member)]
      exact AList.lookup_insert_ne (other arch List.mem_cons_self)

/-! ## The rows of the build matrix -/

/-- The architectures that get a zip, each with its 64-bit variant. -/
def matrix : List (Str × Str) :=
  [("arm".toList, "arm64".toList), ("x86".toList, "x86_64".toList),
    ("mips".toList, "mips64".toList)]

/-- `TO_BUILD` -/
def toBuild (row : Str × Str) : Str := row.1 ++ ' ' :: row.2

def target (row : Str × Str) (wide : Bool) : Str := if wide then row.2 else row.1

def currentName (sel : Bool) : Str := if sel then "sel".toList else "nosel".toList

def Configs.config (configs : Configs) (sel : Bool) : Str :=
  if sel then configs.conf_selinux else configs.conf_no_selinux

theorem fields_toBuild : ∀ row ∈ matrix, fields (toBuild row) = [row.1, row.2] := by decide

theorem suffix_toBuild : ∀ row ∈ matrix, suffix (toBuild row) = some row.1 := by decide

theorem beforeLast_toBuild : ∀ row ∈ matrix, beforeLast ' ' (toBuild row) = row.1 := by decide

theorem toBuild_ne_mipseb : ∀ row ∈ matrix, toBuild row ≠ mipseb ∧ row.1 ≠ mipseb := by decide

theorem fst_ne_all : ∀ row ∈ matrix, row.1 ≠ "all".toList := by decide

variable {tools : Tools} {configs : Configs} {row : Str × Str} {out : Folder}

/-- What the two build scripts leave for a row. -/
structure Built (tools : Tools) (configs : Configs) (row : Str × Str) (out : Folder) : Prop where
  helper : ∃ helper, tools.link row.1 = some helper ∧
    out.lookup (helperName row.1) = some helper
  binary : ∀ wide sel, ∃ busybox,
    compile tools (configs.config sel) (target row wide) = some busybox ∧
      out.lookup (binaryName (target row wide) (currentName sel)) = some busybox
  only : ∀ name ∈ out, name = helperName row.1 ∨
    ∃ wide sel, name = binaryName (target row wide) (currentName sel)

theorem helperName_ne_binaryName (arch other current : Str) :
    helperName arch ≠ binaryName other current := by
  intro same
  have first : some 's' = some 'b' := congrArg List.head? same
  exact absurd first (by decide)

theorem binaryName_current {arch other : Str} {sel otherSel : Bool}
    (same : binaryName arch (currentName sel) = binaryName other (currentName otherSel)) :
    sel = otherSel := by
  have ends := congrArg (fun name => name.reverse.take 5) same
  cases sel <;> cases otherSel
  · rfl
  · exact absurd ends (by simp [binaryName, currentName])
  · exact absurd ends (by simp [binaryName, currentName])
  · rfl

theorem built_of_builds (isRow : row ∈ matrix) {helped : Folder}
    (ssl : buildSsl tools (toBuild row) ∅ = some helped)
    (bb : buildBb tools configs (toBuild row) helped = some out) :
    Built tools configs row out := by
  obtain ⟨suffix, named, ssl⟩ := Option.bind_eq_some_iff.mp ssl
  obtain rfl := Option.some.inj ((suffix_toBuild row isRow).symm.trans named)
  obtain ⟨helper, links, ssl⟩ := Option.bind_eq_some_iff.mp ssl
  obtain rfl := Option.some.inj ssl
  rw [buildBb, fields_toBuild row isRow] at bb
  obtain ⟨⟨left, plain⟩, first, bb⟩ := Option.bind_eq_some_iff.mp bb
  dsimp only at bb
  rw [if_neg (toBuild_ne_mipseb row isRow).1] at bb
  obtain ⟨⟨right, both⟩, second, bb⟩ := Option.bind_eq_some_iff.mp bb
  obtain rfl := Option.some.inj bb
  have notAll : ([row.1, row.2] : List Str).head? ≠ some "all".toList :=
    fun same => fst_ne_all row isRow (Option.some.inj same)
  rw [build, if_neg notAll] at first second
  obtain ⟨noSelinux, others⟩ := buildArchs_spec (fun _ => rfl) first
  obtain ⟨selinux, othersSel⟩ := buildArchs_spec (fun _ => rfl) second
  have isTarget (wide : Bool) : target row wide ∈ [row.1, row.2] := by
    cases wide <;> simp [target]
  refine ⟨⟨helper, links, ?_⟩, ?_, ?_⟩
  · rw [othersSel _ fun arch _ => helperName_ne_binaryName _ _ _,
      others _ fun arch _ => helperName_ne_binaryName _ _ _]
    exact AList.lookup_insert _
  · intro wide sel
    cases sel with
    | true => exact selinux _ (isTarget wide)
    | false =>
      obtain ⟨busybox, makes, found⟩ := noSelinux _ (isTarget wide)
      refine ⟨busybox, makes, ?_⟩
      rw [othersSel _ fun arch _ same => ?_]
      · exact found
      · have differ : false = true := binaryName_current
          (same : binaryName _ (currentName false) = binaryName arch (currentName true))
        exact absurd differ (by decide)
  · intro name member
    by_contra other
    rw [not_or, not_exists] at other
    have noneSel (sel : Bool) :
        ∀ arch ∈ [row.1, row.2], name ≠ binaryName arch (currentName sel) := by
      intro arch isArch same
      rcases List.mem_pair.mp isArch with rfl | rfl
      · exact other.2 false ⟨sel, same⟩
      · exact other.2 true ⟨sel, same⟩
    have nowhere : both.lookup name = none := by
      rw [othersSel name (noneSel true), others name (noneSel false),
        AList.lookup_insert_ne other.1]
      rfl
    exact AList.lookup_eq_none.mp nowhere member

/-! ## Packing -/

/-- The path of a binary in `out`. -/
def binaryPath (row : Str × Str) (wide sel : Bool) : Str :=
  outPath ++ binaryName (target row wide) (currentName sel)

theorem isListed_binaryName : ∀ row ∈ matrix, ∀ wide sel,
    isListed row.1 (binaryName (target row wide) (currentName sel)) = true := by decide

theorem isListed_helperName : ∀ row ∈ matrix, isListed row.1 (helperName row.1) = false := by
  decide

theorem unsplit_binaryPath : ∀ row ∈ matrix, ∀ wide sel, Unsplit (binaryPath row wide sel) := by
  decide

theorem outFile_append (name : Str) : outFile out (outPath ++ name) = out.lookup name := by
  rw [outFile, if_pos (List.prefix_append _ _), List.drop_left]

/-- The loop goes over the binaries of the row, and over nothing else. -/
theorem listedBinaries_spec (isRow : row ∈ matrix) (built : Built tools configs row out) :
    (listedBinaries row.1 out).Nodup ∧
      ∀ f, f ∈ listedBinaries row.1 out ↔ ∃ wide sel, f = binaryPath row wide sel := by
  have named (f : Str) : f ∈ (out.listing.filter (isListed row.1)).map (outPath ++ ·) ↔
      ∃ wide sel, f = binaryPath row wide sel := by
    rw [List.mem_map]
    constructor
    · rintro ⟨name, member, rfl⟩
      obtain ⟨isFile, matched⟩ := List.mem_filter.mp member
      rcases built.only name (Folder.mem_listing_iff.mp isFile) with rfl | ⟨wide, sel, rfl⟩
      · exact absurd matched (by simp [isListed_helperName row isRow])
      · exact ⟨wide, sel, rfl⟩
    · rintro ⟨wide, sel, rfl⟩
      obtain ⟨busybox, -, found⟩ := built.binary wide sel
      refine ⟨_, List.mem_filter.mpr ⟨?_, isListed_binaryName row isRow wide sel⟩, rfl⟩
      rw [Folder.mem_listing_iff, ← AList.lookup_isSome, found]
      rfl
  have whole : listedBinaries row.1 out =
      (out.listing.filter (isListed row.1)).map (outPath ++ ·) := by
    apply fields_output
    intro f member
    obtain ⟨wide, sel, rfl⟩ := (named f).mp member
    exact unsplit_binaryPath row isRow wide sel
  rw [whole]
  refine ⟨?_, named⟩
  exact (Folder.nodup_listing.filter _).map (List.append_right_injective outPath)

def extras : List Str := [[], "-sel".toList, "64".toList, "64-sel".toList]

theorem extra_mem_extras (f : Str) : extra f ∈ extras := by
  rw [extra]
  split_ifs
  · exact List.mem_of_getElem? (i := 2) rfl
  · exact List.mem_of_getElem? (i := 3) rfl
  · exact List.mem_of_getElem? (i := 0) rfl
  · exact List.mem_of_getElem? (i := 1) rfl

theorem packed_ne_plain : ∀ first ∈ extras, ∀ second ∈ extras,
    busyboxFile ++ first ++ xzEnding ≠ busyboxFile ++ second := by decide

theorem packedName_ne_plainName (f g : Str) : packedName f ≠ plainName g :=
  packed_ne_plain (extra f) (extra_mem_extras f) (extra g) (extra_mem_extras g)

theorem md5File_ne : ∀ extra ∈ extras, md5File ≠ busyboxFile ++ extra ∧
    md5File ≠ busyboxFile ++ extra ++ xzEnding := by decide

theorem packedName_ne_md5File (f : Str) : packedName f ≠ md5File :=
  fun same => (md5File_ne (extra f) (extra_mem_extras f)).2 same.symm

theorem md5File_ne_plainName (f : Str) : md5File ≠ plainName f :=
  (md5File_ne (extra f) (extra_mem_extras f)).1

/-- The line of the list for a packed binary. -/
def packedLine (tools : Tools) (f content : Str) : Str :=
  tools.md5.line (packedName f) (tools.xz content)

variable {bins : Folder} {i f content name : Str}

/-- A round packs one binary under a new name and appends its line. -/
theorem lookup_placeBinary (hasList : i ≠ mipseb) (readable : outFile out f = some content)
    (fresh : packedName f ∉ bins) :
    (placeBinary tools i out bins f).lookup name =
      if name = md5File then
        some ((bins.lookup md5File).getD [] ++ (packedLine tools f content ++ ['\n']))
      else if name = packedName f then some (tools.xz content)
      else if name = plainName f then none
      else bins.lookup name := by
  have copied (other : Str) : (bins.copy (outFile out f) (plainName f)).lookup other =
      if other = plainName f then some content else bins.lookup other := by
    rw [Folder.lookup_copy, readable]
    rfl
  have stillFresh : packedName f ∉ bins.copy (outFile out f) (plainName f) := by
    rw [← AList.lookup_eq_none, copied, if_neg (packedName_ne_plainName f f)]
    exact AList.lookup_eq_none.mpr fresh
  -- The folder before the line is appended.
  have packed (other : Str) : (AList.erase (plainName f)
      ((bins.copy (outFile out f) (plainName f)).copy
        (((bins.copy (outFile out f) (plainName f)).lookup (plainName f)).map tools.xz)
        (packedName f))).lookup other =
      if other = packedName f then some (tools.xz content)
      else if other = plainName f then none else bins.lookup other := by
    by_cases plain : other = plainName f
    · subst plain
      rw [AList.lookup_erase, if_neg (packedName_ne_plainName f f).symm, if_pos rfl]
    · rw [AList.lookup_erase_ne plain, Folder.lookup_copy, copied, copied, if_pos rfl, if_neg plain,
        if_neg plain]
      rfl
  rw [placeBinary]
  simp only [if_neg stillFresh, if_neg hasList]
  rw [echoTo]
  by_cases list : name = md5File
  · subst list
    rw [AList.lookup_insert, if_pos rfl, packed, if_neg (packedName_ne_md5File f).symm,
      if_neg (md5File_ne_plainName f), md5sum, packed, if_pos rfl]
    rfl
  · rw [AList.lookup_insert_ne list, if_neg list, packed]

/-- The loop packs every binary, and leaves the other files as they are. -/
theorem placeBinaries_spec (hasList : i ≠ mipseb) {list : Str}
    (listed : bins.lookup md5File = some list) {fs : List Str} (nodup : fs.Nodup)
    (apart : ∀ f ∈ fs, ∀ g ∈ fs, packedName f = packedName g → f = g)
    (readable : ∀ f ∈ fs, (outFile out f).isSome) (fresh : ∀ f ∈ fs, packedName f ∉ bins) :
    (∀ f ∈ fs, (fs.foldl (placeBinary tools i out) bins).lookup (packedName f) =
      (outFile out f).map tools.xz) ∧
    (∀ name ≠ md5File, (∀ f ∈ fs, name ≠ packedName f) →
      (fs.foldl (placeBinary tools i out) bins).lookup name =
        if name ∈ fs.map plainName then none else bins.lookup name) ∧
    (fs.foldl (placeBinary tools i out) bins).lookup md5File =
      some (list ++ output (fs.map fun f => packedLine tools f ((outFile out f).getD []))) := by
  induction fs generalizing bins list with
  | nil => exact ⟨by simp, fun name _ _ => rfl, by simp [output, listed]⟩
  | cons f fs ih =>
    obtain ⟨notLater, nodup⟩ := List.nodup_cons.mp nodup
    obtain ⟨content, found⟩ := Option.isSome_iff_exists.mp (readable f List.mem_cons_self)
    have step (name : Str) := @lookup_placeBinary tools out bins i f content name hasList found
      (fresh f List.mem_cons_self)
    have differs (g : Str) (later : g ∈ fs) : packedName g ≠ packedName f := by
      intro same
      have equal := apart g (List.mem_cons_of_mem _ later) f List.mem_cons_self same
      exact notLater (equal ▸ later)
    have listedAfter := step md5File
    rw [if_pos rfl, listed, Option.getD_some] at listedAfter
    obtain ⟨packs, keeps, lists⟩ := ih listedAfter nodup
      (fun g hg h hh => apart g (List.mem_cons_of_mem _ hg) h (List.mem_cons_of_mem _ hh))
      (fun g hg => readable g (List.mem_cons_of_mem _ hg))
      (by
        intro g later
        rw [← AList.lookup_eq_none, step, if_neg (packedName_ne_md5File g),
          if_neg (differs g later), if_neg (packedName_ne_plainName g f)]
        exact AList.lookup_eq_none.mpr (fresh g (List.mem_cons_of_mem _ later)))
    rw [List.foldl_cons]
    refine ⟨?_, ?_, ?_⟩
    · intro g member
      rcases List.mem_cons.mp member with rfl | later
      · have notPlain : packedName g ∉ fs.map plainName := by
          intro member
          obtain ⟨h, -, same⟩ := List.mem_map.mp member
          exact packedName_ne_plainName g h same.symm
        rw [keeps _ (packedName_ne_md5File g) fun h later => (differs h later).symm,
          if_neg notPlain, step, if_neg (packedName_ne_md5File g), if_pos rfl, found]
        rfl
      · exact packs g later
    · intro name notList other
      rw [keeps name notList fun g later => other g (List.mem_cons_of_mem _ later), step,
        if_neg notList, if_neg (other f List.mem_cons_self)]
      by_cases first : name = plainName f
      · rw [if_pos first, ite_self, List.map_cons, if_pos (first ▸ List.mem_cons_self)]
      · rw [if_neg first, List.map_cons]
        exact if_congr (List.mem_cons.trans (or_iff_right first)).symm rfl rfl
    · rw [lists, List.map_cons, found]
      simp [output]

/-! ## What a row leaves for its zip -/

/-- The name of a binary. -/
def plainFile (wide sel : Bool) : Str :=
  busyboxFile ++ ((if wide then "64".toList else []) ++ if sel then "-sel".toList else [])

/-- The name of a packed binary. -/
def binaryFile (wide sel : Bool) : Str := plainFile wide sel ++ xzEnding

theorem packedName_binaryPath : ∀ row ∈ matrix, ∀ wide sel,
    packedName (binaryPath row wide sel) = binaryFile wide sel := by decide

theorem plainName_binaryPath : ∀ row ∈ matrix, ∀ wide sel,
    plainName (binaryPath row wide sel) = plainFile wide sel := by decide

theorem binaryFile_injective : ∀ wide sel otherWide otherSel,
    binaryFile wide sel = binaryFile otherWide otherSel → wide = otherWide ∧ sel = otherSel := by
  decide

theorem binaryFile_ne_helper : ∀ wide sel, binaryFile wide sel ≠ sslHelperFile := by decide

theorem helper_ne_binary : ∀ extra ∈ extras, busyboxFile ++ extra ≠ sslHelperFile ∧
    busyboxFile ++ extra ++ xzEnding ≠ sslHelperFile := by decide

theorem plainName_ne_helper (f : Str) : plainName f ≠ sslHelperFile :=
  (helper_ne_binary (extra f) (extra_mem_extras f)).1

theorem packedName_ne_helper (f : Str) : packedName f ≠ sslHelperFile :=
  (helper_ne_binary (extra f) (extra_mem_extras f)).2

theorem newline_notMem_line (tools : Tools) {name : Str} (single : '\n' ∉ name) (content : Str) :
    '\n' ∉ tools.md5.line name content := by
  have blanks : '\n' ∉ "  ".toList := by decide
  rw [Md5.line, List.mem_append, List.mem_append, not_or, not_or]
  exact ⟨⟨tools.digest_single content, blanks⟩, single⟩

theorem newline_notMem_md5sum (tools : Tools) (folder : Folder) {name : Str}
    (single : '\n' ∉ name) : '\n' ∉ md5sum tools.md5 name folder := by
  rw [md5sum]
  cases folder.lookup name with
  | none => exact List.not_mem_nil
  | some content => exact newline_notMem_line tools single content

theorem binaryFile_single : ∀ wide sel, '\n' ∉ binaryFile wide sel := by decide

/-- The files that an installer checks. -/
def checkedNames (wide sel : Bool) : List Str := checkedFiles (binaryFile wide sel)

/-- The files that the installers of a row ask for, and their list. -/
structure Packed (tools : Tools) (configs : Configs) (row : Str × Str) (before bins : Folder) :
    Prop where
  helper : ∃ helper, tools.link row.1 = some helper ∧ bins.lookup sslHelperFile = some helper
  binary : ∀ wide sel, ∃ busybox,
    compile tools (configs.config sel) (target row wide) = some busybox ∧
      bins.lookup (binaryFile wide sel) = some (tools.xz busybox)
  plain : ∀ wide sel, bins.lookup (plainFile wide sel) = none
  other : ∀ name ≠ md5File, isOld name = false → bins.lookup name = before.lookup name
  list : ∃ printed, bins.lookup md5File = some (output printed) ∧
    (∀ line ∈ printed, '\n' ∉ line) ∧
    ∀ wide sel, ∀ name ∈ checkedNames wide sel, ∀ content,
      bins.lookup name = some content → tools.md5.line name content ∈ printed

theorem isOld_append (rest : Str) : isOld (busyboxFile ++ rest) = true := by
  rw [isOld, List.isPrefixOf_iff_prefix.mpr (List.prefix_append _ _), Bool.true_or]

theorem isOld_plainName (f : Str) : isOld (plainName f) = true := isOld_append _

theorem isOld_packedName (f : Str) : isOld (packedName f) = true := by
  rw [packedName, plainName, List.append_assoc]
  exact isOld_append _

theorem isOld_sslHelperFile : isOld sslHelperFile = true := by decide

section Start

variable (helper : Str) (md5 : Md5) (before : Folder)

theorem startBins_helper :
    (startBins (some helper) before).lookup sslHelperFile = some helper :=
  AList.lookup_insert _

theorem startBins_other {name : Str} (other : name ≠ sslHelperFile) :
    (startBins (some helper) before).lookup name =
      if isOld name then none else before.lookup name := by
  rw [startBins, Folder.lookup_copy, if_neg other, Folder.lookup_remove]

theorem startList_list : (startList md5 before).lookup md5File =
    some (output [md5sum md5 sslHelperFile before, md5sum md5 xzdecFile before]) :=
  AList.lookup_insert _

theorem startList_other {name : Str} (other : name ≠ md5File) :
    (startList md5 before).lookup name = before.lookup name :=
  AList.lookup_insert_ne other

end Start

theorem packed_of_built (isRow : row ∈ matrix) (built : Built tools configs row out)
    {before : Folder} (updates : updateBins tools (toBuild row) out before = some bins) :
    Packed tools configs row before bins := by
  obtain ⟨helper, links, found⟩ := built.helper
  have hasList := (toBuild_ne_mipseb row isRow).2
  obtain ⟨nodup, mem_iff⟩ := listedBinaries_spec isRow built
  have readable (f : Str) (member : f ∈ listedBinaries row.1 out) : (outFile out f).isSome := by
    obtain ⟨wide, sel, rfl⟩ := (mem_iff f).mp member
    obtain ⟨busybox, -, here⟩ := built.binary wide sel
    rw [binaryPath, outFile_append, here]
    rfl
  have apart (f : Str) (hf : f ∈ listedBinaries row.1 out) (g : Str)
      (hg : g ∈ listedBinaries row.1 out) (same : packedName f = packedName g) : f = g := by
    obtain ⟨wide, sel, rfl⟩ := (mem_iff f).mp hf
    obtain ⟨otherWide, otherSel, rfl⟩ := (mem_iff g).mp hg
    rw [packedName_binaryPath row isRow, packedName_binaryPath row isRow] at same
    obtain ⟨rfl, rfl⟩ := binaryFile_injective _ _ _ _ same
    rfl
  have fresh (f : Str) (_ : f ∈ listedBinaries row.1 out) :
      packedName f ∉ startList tools.md5 (startBins (some helper) before) := by
    rw [← AList.lookup_eq_none, startList_other _ _ (packedName_ne_md5File f),
      startBins_other _ _ (packedName_ne_helper f), if_pos (isOld_packedName f)]
  obtain ⟨packs, keeps, lists⟩ :=
    placeBinaries_spec hasList (startList_list _ _) nodup apart readable fresh
  rw [updateBins, beforeLast_toBuild row isRow, found] at updates
  simp only [if_neg hasList, Option.map_some, Option.some.injEq] at updates
  rw [← updates]
  have kept (name : Str) (notList : name ≠ md5File) (new : isOld name = false) :
      ((listedBinaries row.1 out).foldl (placeBinary tools row.1 out)
        (startList tools.md5 (startBins (some helper) before))).lookup name =
          before.lookup name := by
    have apart (old : Str) (isOldName : isOld old = true) : name ≠ old := by
      rintro rfl
      exact absurd (new.symm.trans isOldName) (by decide)
    have notPlain : name ∉ (listedBinaries row.1 out).map plainName := by
      intro member
      obtain ⟨f, -, same⟩ := List.mem_map.mp member
      exact apart _ (isOld_plainName f) same.symm
    rw [keeps name notList fun f _ => apart _ (isOld_packedName f), if_neg notPlain,
      startList_other _ _ notList, startBins_other _ _ (apart _ isOld_sslHelperFile), new]
    rfl
  have binary (wide sel : Bool) : ∃ busybox,
      compile tools (configs.config sel) (target row wide) = some busybox ∧
      outFile out (binaryPath row wide sel) = some busybox ∧
      ((listedBinaries row.1 out).foldl (placeBinary tools row.1 out)
        (startList tools.md5 (startBins (some helper) before))).lookup (binaryFile wide sel) =
          some (tools.xz busybox) := by
    obtain ⟨busybox, compiles, here⟩ := built.binary wide sel
    have packed := packs _ ((mem_iff _).mpr ⟨wide, sel, rfl⟩)
    rw [packedName_binaryPath row isRow, binaryPath, outFile_append, here] at packed
    exact ⟨busybox, compiles, by rw [binaryPath, outFile_append, here], packed⟩
  refine ⟨⟨helper, links, AList.lookup_insert _⟩, ?_, ?_, ?_, ?_⟩
  · intro wide sel
    obtain ⟨busybox, compiles, -, packed⟩ := binary wide sel
    refine ⟨busybox, compiles, ?_⟩
    rw [AList.lookup_insert_ne (binaryFile_ne_helper wide sel)]
    exact packed
  · intro wide sel
    have isPath := (mem_iff _).mpr ⟨wide, sel, rfl⟩
    have named := plainName_binaryPath row isRow wide sel
    rw [← named, AList.lookup_insert_ne (plainName_ne_helper _),
      keeps _ (md5File_ne_plainName _).symm fun f _ => (packedName_ne_plainName f _).symm,
      if_pos (List.mem_map_of_mem isPath)]
  · intro name notList new
    rw [AList.lookup_insert_ne, kept name notList new]
    rintro rfl
    exact absurd (new.symm.trans isOld_sslHelperFile) (by decide)
  · let start := startBins (some helper) before
    refine ⟨[md5sum tools.md5 sslHelperFile start, md5sum tools.md5 xzdecFile start] ++
      (listedBinaries row.1 out).map fun f => packedLine tools f ((outFile out f).getD []),
      ?_, ?_, ?_⟩
    · rw [AList.lookup_insert_ne (by decide), lists, output, output, output, List.flatMap_append]
    · intro line member
      rcases List.mem_append.mp member with first | later
      · rcases List.mem_pair.mp first with rfl | rfl
        · exact newline_notMem_md5sum tools start (by decide)
        · exact newline_notMem_md5sum tools start (by decide)
      · obtain ⟨f, isFile, rfl⟩ := List.mem_map.mp later
        obtain ⟨wide, sel, rfl⟩ := (mem_iff f).mp isFile
        apply newline_notMem_line
        rw [packedName_binaryPath row isRow]
        exact binaryFile_single wide sel
    · intro wide sel name checked content here
      simp only [checkedNames, checkedFiles, List.mem_cons, List.not_mem_nil, or_false] at checked
      rcases checked with rfl | rfl | rfl
      · obtain ⟨busybox, -, file, packed⟩ := binary wide sel
        rw [AList.lookup_insert_ne (binaryFile_ne_helper wide sel), packed] at here
        obtain rfl := Option.some.inj here
        apply List.mem_append_right
        refine List.mem_map.mpr ⟨binaryPath row wide sel, (mem_iff _).mpr ⟨wide, sel, rfl⟩, ?_⟩
        rw [file, packedLine, packedName_binaryPath row isRow]
        rfl
      · rw [AList.lookup_insert] at here
        apply List.mem_append_left
        rw [md5sum, startBins_helper, Option.some.inj here]
        exact List.mem_cons_self
      · rw [AList.lookup_insert_ne (by decide), kept _ (by decide) (by decide)] at here
        have started : start.lookup xzdecFile = some content := by
          rw [startBins_other _ _ (by decide), if_neg (by decide), here]
        apply List.mem_append_left
        rw [md5sum, md5sum, started]
        exact List.mem_cons_of_mem _ List.mem_cons_self

end BbBot.Build
