/-
# The payload of the self-extracting installer

After the zip is made, `mkzip.sh` removes the installer from the workspace, decompresses
the binaries, and packs what is left into the archive that `mkSEE.sh` appends to the
stamped script. The installer cuts the archive out of itself again and takes four
members from it.

The binaries lose the ending of their names when they are decompressed, and the
installer asks for them without it. So it installs the binaries that the zip installs.
-/

import BbBot.Build.Zip
import BbBot.SelfExtractor.Install

namespace BbBot.Build

open BbBot.Unix BbBot.Installer BbBot.SelfExtractor

/-! ## Making the payload -/

/-- `rm -r bins.md5 META-INF xzdec` -/
def isDropped (name : Str) : Bool :=
  decide (name = md5File) || decide (name = xzdecFile) || "META-INF/".toList.isPrefixOf name

/-- `*xz` -/
def endsInXz (name : Str) : Bool := "xz".toList.isSuffixOf name && !decide ('/' ∈ name)

/-- `unxz name`: a file without the ending is left alone, and no file is written over. -/
def unxzFile (unxz : Str → Option Str) (folder : Folder) (name : Str) : Folder :=
  if xzEnding <:+ name then
    let plain := name.take (name.length - xzEnding.length)
    if plain ∈ folder then folder
    else
      match (folder.lookup name).bind unxz with
      | some content => AList.erase name (folder.insert plain content)
      | none => folder
  else folder

/-- What is packed, from the files of the zip. -/
def payloadFiles (unxz : Str → Option Str) (zip : Folder) : Folder :=
  let workspace := zip.remove isDropped
  (workspace.listing.filter endsInXz).foldl (unxzFile unxz) workspace

/-- The installer of a row, from the template, the programs `dd.yds` and `7zr`, and the
files of the zip. -/
def selfExtractor (rounds : ℕ) (release : Release) (row : Str × Str) (template dd sevenZip : Str)
    (pack : Folder → Str) (files : Folder) : Option Str :=
  mkSee rounds (stamp (archStamps release row.1 row.2) template) dd sevenZip (pack files)

/-! ## Taking it apart -/

/-- The members that the installer extracts, with the binary for the width and the support
that it has found. -/
def seeArchive (unpack : Str → Option Folder) (file : Str) (wide enabled : Bool) :
    Option SelfExtractor.Archive := do
  let bbx ← extractBB file
  let members ← unpack bbx
  let binary ← members.lookup (plainFile wide enabled)
  let helper ← members.lookup sslHelperFile
  let survival ← members.lookup survivalFile
  let users ← members.lookup usersFile
  some ⟨binary, helper, survival, users⟩

/-! ## Decompressing -/

section Unxz

variable {unxz : Str → Option Str} {folder : Folder} {name plain : Str} {names : List Str}

/-- Decompressing a file leaves the others alone, except one that is missing and has its
name without the ending. -/
theorem lookup_unxzFile_of_ne {other : Str} (different : other ≠ name)
    (keeps : other ∈ folder ∨ name ≠ other ++ xzEnding) :
    (unxzFile unxz folder name).lookup other = folder.lookup other := by
  unfold unxzFile
  dsimp only
  split_ifs with ends taken
  · rfl
  · cases unpacked : (folder.lookup name).bind unxz with
    | none => rfl
    | some content =>
      dsimp only
      rw [AList.lookup_erase_ne different, AList.lookup_insert_ne]
      rintro rfl
      obtain ⟨front, rfl⟩ := ends
      rw [List.length_append, Nat.add_sub_cancel, List.take_left] at taken keeps
      rcases keeps with here | other
      · exact taken here
      · exact other rfl
  · rfl

theorem lookup_unxzFile {packed content : Str} (free : plain ∉ folder)
    (here : folder.lookup (plain ++ xzEnding) = some packed) (unpacks : unxz packed = some content) :
    (unxzFile unxz folder (plain ++ xzEnding)).lookup plain = some content := by
  have cut : (plain ++ xzEnding).take ((plain ++ xzEnding).length - xzEnding.length) = plain := by
    rw [List.length_append, Nat.add_sub_cancel, List.take_left]
  have shorter : plain ≠ plain ++ xzEnding := by
    intro same
    have lengths := congrArg List.length same
    rw [List.length_append] at lengths
    exact absurd lengths (by simp [xzEnding])
  rw [unxzFile, if_pos (List.suffix_append _ _), cut, here, Option.bind_some, unpacks]
  dsimp only
  rw [if_neg free, AList.lookup_erase_ne shorter, AList.lookup_insert]

/-- A file that is there and is not decompressed stays. -/
theorem lookup_unxzAll_of_notMem {content : Str} (other : name ∉ names)
    (here : folder.lookup name = some content) :
    (names.foldl (unxzFile unxz) folder).lookup name = some content := by
  induction names generalizing folder with
  | nil => exact here
  | cons first names ih =>
    have apart : name ≠ first := by
      rintro rfl
      exact other List.mem_cons_self
    apply ih fun later => other (List.mem_cons_of_mem _ later)
    rw [lookup_unxzFile_of_ne apart (Or.inl ?_), here]
    rw [← AList.lookup_isSome, here]
    rfl

/-- A file that is decompressed is there without its ending. -/
theorem lookup_unxzAll {packed content : Str} (nodup : names.Nodup)
    (isNamed : plain ++ xzEnding ∈ names) (notNamed : plain ∉ names) (free : plain ∉ folder)
    (here : folder.lookup (plain ++ xzEnding) = some packed) (unpacks : unxz packed = some content) :
    (names.foldl (unxzFile unxz) folder).lookup plain = some content := by
  induction names generalizing folder with
  | nil => exact absurd isNamed List.not_mem_nil
  | cons first names ih =>
    obtain ⟨notLater, nodup⟩ := List.nodup_cons.mp nodup
    have notPlain : plain ≠ first := fun same => notNamed (same ▸ List.mem_cons_self)
    have notNamedLater : plain ∉ names := fun later => notNamed (List.mem_cons_of_mem _ later)
    rw [List.foldl_cons]
    by_cases now : plain ++ xzEnding = first
    · subst now
      exact lookup_unxzAll_of_notMem notNamedLater (lookup_unxzFile free here unpacks)
    · -- Another file is decompressed, and does not get one of the two names.
      refine ih nodup ((List.mem_cons.mp isNamed).resolve_left now) notNamedLater ?_ ?_
      · rw [← AList.lookup_eq_none, lookup_unxzFile_of_ne notPlain (Or.inr (Ne.symm now))]
        exact AList.lookup_eq_none.mpr free
      · rw [lookup_unxzFile_of_ne now (Or.inl ?_), here]
        rw [← AList.lookup_isSome, here]
        rfl

end Unxz

/-! ## The script around the payload -/

/-- A built installer is the script of its template, with some offsets, and the payloads
that these offsets cut out of it. -/
theorem mkSee_script (template : Template) (dd sevenZip bbx : Str) (nonempty : dd ≠ [])
    (offsetsFit : template.text.length + 20 + dd.length + sevenZip.length < 10 ^ 8)
    (archiveFits : bbx.length < 10 ^ 8) {rounds : ℕ} (enough : dd.length < rounds) :
    ∃ (layout : Layout) (padding : ℕ) (payload file : Str), layout.Fits ∧
      file = template.script layout padding ++ payload ∧
      mkSee rounds template.text dd sevenZip bbx = some file ∧
      extractDD file = some dd ∧ extract7z file = some sevenZip ∧ extractBB file = some bbx := by
  have positive : 0 < dd.length := List.length_pos_of_ne_nil nonempty
  obtain ⟨padding, within, -, -, found⟩ := search_eq template.text.length positive enough
  have dividesScript := Nat.gcd_dvd_left (template.text.length + padding) dd.length
  have dividesPayload := Nat.gcd_dvd_right (template.text.length + padding) dd.length
  have blockPositive := Nat.gcd_pos_of_pos_right (template.text.length + padding) positive
  let layout := layoutFor (template.text.length + padding)
    (Nat.gcd (template.text.length + padding) dd.length) dd.length sevenZip.length bbx.length
  have fits : layout.Fits :=
    layoutFor_fits (Nat.le_of_dvd positive dividesPayload) (by omega) archiveFits
  have cuts := layoutFor_cuts sevenZip bbx (template.length_script fits padding) dividesScript
    dividesPayload
  have reads := extract_eq fun command member =>
    template.setting_script fits padding (dd ++ sevenZip ++ bbx) member
  refine ⟨layout, padding, dd ++ sevenZip ++ bbx, _, fits, rfl, ?_, ?_, ?_, ?_⟩
  · rw [mkSee_eq template sevenZip bbx blockPositive found, List.append_assoc _ dd,
      List.append_assoc _ (dd ++ sevenZip)]
  · rw [reads.1, cuts.1]
  · rw [reads.2.1, cuts.2.1]
  · rw [reads.2.2, cuts.2.2]

theorem archStamps_apart (release : Release) (arch arch64 : Str) :
    Apart (archStamps release arch arch64) := by
  have names : (archStamps release arch arch64).map Prod.fst =
      ["ARCH".toList, "ARCH64".toList, "STATUS".toList, "DATE".toList, "VER".toList] := rfl
  have apart : ∀ name ∈ settingNames, ∀ other ∈ ["ARCH".toList, "ARCH64".toList, "STATUS".toList,
      "DATE".toList, "VER".toList], ¬ name <+: other := by decide
  intro name member command inScript
  exact apart name member _ (names ▸ List.mem_map_of_mem inScript)

section Members

variable {tools : Tools} {configs : Configs} {row : Str × Str} {before bins : Folder}
  (sources : Sources) (release : Release)

theorem commonNames_ne : ∀ wide sel, ∀ name ∈ [updateBinary, updaterScript, moduleFile,
    survivalFile, usersFile], plainFile wide sel ≠ name := by decide

theorem kept_names : ∀ wide sel, isDropped (binaryFile wide sel) = false ∧
    isDropped (plainFile wide sel) = false ∧ endsInXz (binaryFile wide sel) = true ∧
    endsInXz (plainFile wide sel) = false ∧ binaryFile wide sel ≠ updateBinary := by decide

theorem lookup_zipFor_plain (packed : Packed tools configs row before bins) (wide sel : Bool) :
    (zipFor sources release (toBuild row) bins ∅).lookup (plainFile wide sel) = none := by
  have apart := commonNames_ne wide sel
  rw [zipFor, AList.lookup_insert_ne (apart _ (by simp)), Folder.lookup_overlay,
    packed.plain wide sel, Option.none_or, commonFiles, AList.lookup_insert_ne (apart _ (by simp)),
    AList.lookup_insert_ne (apart _ (by simp)),
    AList.lookup_insert_ne (apart survivalFile (by simp)),
    AList.lookup_insert_ne (apart usersFile (by simp))]
  rfl

/-- The scripts of a zip are those of the sources, unless a folder of binaries has one. -/
theorem lookup_zipFor_scripts (noSurvival : bins.lookup survivalFile = none)
    (noUsers : bins.lookup usersFile = none) :
    (zipFor sources release (toBuild row) bins ∅).lookup survivalFile =
        some sources.survivalScript ∧
      (zipFor sources release (toBuild row) bins ∅).lookup usersFile =
        some sources.addusergroup := by
  constructor
  · rw [zipFor, AList.lookup_insert_ne (by decide), Folder.lookup_overlay, noSurvival,
      Option.none_or, commonFiles, AList.lookup_insert_ne (by decide),
      AList.lookup_insert_ne (by decide)]
    exact AList.lookup_insert _
  · rw [zipFor, AList.lookup_insert_ne (by decide), Folder.lookup_overlay, noUsers,
      Option.none_or, commonFiles, AList.lookup_insert_ne (by decide),
      AList.lookup_insert_ne (by decide), AList.lookup_insert_ne (by decide)]
    exact AList.lookup_insert _

variable {unxz : Str → Option Str} {zip : Folder} {name content : Str}

/-- A file of the zip that is neither removed nor decompressed is packed. -/
theorem lookup_payloadFiles (kept : isDropped name = false) (other : endsInXz name = false)
    (here : zip.lookup name = some content) :
    (payloadFiles unxz zip).lookup name = some content := by
  apply lookup_unxzAll_of_notMem
  · intro member
    exact absurd ((List.mem_filter.mp member).2.symm.trans other) (by decide)
  · rw [Folder.lookup_remove, kept, here]
    rfl

/-- A binary of the zip is packed without the ending of its name. -/
theorem lookup_payloadFiles_plain {wide sel : Bool} {packed : Str}
    (free : zip.lookup (plainFile wide sel) = none)
    (here : zip.lookup (binaryFile wide sel) = some packed) (unpacks : unxz packed = some content) :
    (payloadFiles unxz zip).lookup (plainFile wide sel) = some content := by
  obtain ⟨kept, keptPlain, isNamed, notNamed, -⟩ := kept_names wide sel
  have found : (zip.remove isDropped).lookup (binaryFile wide sel) = some packed := by
    rw [Folder.lookup_remove, kept, here]
    rfl
  refine lookup_unxzAll (Folder.nodup_listing.filter _) (List.mem_filter.mpr ⟨?_, isNamed⟩) ?_ ?_
    found unpacks
  · rw [Folder.mem_listing_iff, ← AList.lookup_isSome]
    exact Option.isSome_iff_exists.mpr ⟨packed, found⟩
  · intro member
    exact absurd ((List.mem_filter.mp member).2.symm.trans notNamed) (by decide)
  · rw [← AList.lookup_eq_none, Folder.lookup_remove, keptPlain]
    exact free

end Members

/-! ## A template -/

/-- A script with the settings of the architecture and of the release. -/
def archBody : Str :=
  unlines ["#!/system/bin/sh".toList, "byteCountDD=00000000".toList,
    "byteCount7z=00000000".toList, "byteCountBB=00000000".toList,
    "bytesToSkipDD=00000000".toList, "bytesToSkip7z=00000000".toList,
    "bytesToSkipBB=00000000".toList, "blockSize=00000001".toList, "ARCH=".toList,
    "ARCH64=".toList, "STATUS=".toList, "DATE=".toList, "VER=".toList]

def archTail : Str := "####".toList

theorem archBody_placeholder : ∀ name ∈ settingNames, ∃ digits : Str, digits.length = 8 ∧
    (lines archBody).filter (fun line => name.isPrefixOf line) = [name ++ '=' :: digits] := by
  simp only [settingNames, List.mem_cons, List.not_mem_nil, or_false, forall_eq_or_imp, forall_eq]
  exact ⟨⟨"00000000".toList, by decide +kernel⟩, ⟨"00000000".toList, by decide +kernel⟩,
    ⟨"00000000".toList, by decide +kernel⟩, ⟨"00000001".toList, by decide +kernel⟩,
    ⟨"00000000".toList, by decide +kernel⟩, ⟨"00000000".toList, by decide +kernel⟩,
    ⟨"00000000".toList, by decide +kernel⟩⟩

theorem archTail_unfinished : '\n' ∉ archTail := by decide

theorem archTail_other : ∀ name ∈ settingNames, ¬ name <+: archTail := by decide

def archTemplate : Template :=
  ⟨archBody, archTail, archTail_unfinished, archBody_placeholder, archTail_other⟩

/-- The scripts `survival` and `users`, four times `ELF`, `ssl`, and a stamped
`module.prop`, packed. -/
def elf7z : Str :=
  [55, 122, 188, 175, 39, 28, 0, 4, 56, 197, 199, 178, 66, 0, 0, 0, 0, 0, 0, 0, 19, 1, 0, 0,
    0, 0, 0, 0, 237, 121, 219, 205, 0, 57, 157, 74, 142, 0, 162, 113, 227, 217, 125, 157, 183,
    81, 180, 5, 154, 170, 173, 224, 190, 88, 111, 233, 130, 71, 110, 155, 249, 146, 3, 130,
    187, 130, 219, 182, 26, 92, 210, 197, 88, 254, 226, 225, 161, 190, 213, 53, 84, 54, 215,
    95, 250, 95, 26, 21, 189, 99, 121, 108, 255, 255, 27, 80, 0, 0, 1, 4, 6, 0, 1, 9, 66, 0,
    7, 11, 1, 0, 1, 35, 3, 1, 1, 5, 93, 0, 0, 0, 2, 12, 67, 0, 8, 13, 8, 9, 9, 6, 3, 3, 3, 3,
    37, 10, 1, 74, 221, 229, 215, 234, 223, 21, 235, 149, 114, 99, 74, 149, 114, 99, 74, 149,
    114, 99, 74, 149, 114, 99, 74, 230, 54, 224, 146, 93, 8, 224, 233, 0, 0, 5, 8, 17, 128,
    195, 0, 56, 0, 56, 0, 45, 0, 98, 0, 117, 0, 115, 0, 121, 0, 98, 0, 111, 0, 120, 0, 46, 0,
    115, 0, 104, 0, 0, 0, 97, 0, 100, 0, 100, 0, 117, 0, 115, 0, 101, 0, 114, 0, 103, 0, 114,
    0, 111, 0, 117, 0, 112, 0, 46, 0, 115, 0, 104, 0, 0, 0, 98, 0, 117, 0, 115, 0, 121, 0, 98,
    0, 111, 0, 120, 0, 0, 0, 98, 0, 117, 0, 115, 0, 121, 0, 98, 0, 111, 0, 120, 0, 45, 0, 115,
    0, 101, 0, 108, 0, 0, 0, 98, 0, 117, 0, 115, 0, 121, 0, 98, 0, 111, 0, 120, 0, 54, 0, 52,
    0, 0, 0, 98, 0, 117, 0, 115, 0, 121, 0, 98, 0, 111, 0, 120, 0, 54, 0, 52, 0, 45, 0, 115,
    0, 101, 0, 108, 0, 0, 0, 109, 0, 111, 0, 100, 0, 117, 0, 108, 0, 101, 0, 46, 0, 112, 0,
    114, 0, 111, 0, 112, 0, 0, 0, 115, 0, 115, 0, 108, 0, 95, 0, 104, 0, 101, 0, 108, 0, 112,
    0, 101, 0, 114, 0, 0, 0, 0, 0].map Char.ofNat

/-- A row for the test. -/
def mipsRow : Str × Str := ("mips".toList, "mips64".toList)

/-- What is packed for that row. -/
def mipsPayload (bins : Folder) : Folder :=
  payloadFiles (elfExec []) (zipFor elfSources elfRelease (toBuild mipsRow) bins ∅)

end BbBot.Build
