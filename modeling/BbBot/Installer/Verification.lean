/-
# From the archive to the installed binary

`base_installer.sh` unzips the binary, a helper and a decompressor, looks up the
digest of each in a list, decompresses the binary, cleans older installations and
copies the new one. Some of these commands are followed by a check of their status
and some are not.

The digest is looked up with `grep "$(md5sum file)" bins.md5`. When `md5sum` prints
nothing, the pattern is empty and every line matches. Nothing looks at the status of
the decompressor or of `cp`, so what they leave behind is installed, or nothing is,
and by then the older installations are gone.
-/

import BbBot.Unix.Text
import Mathlib.Data.List.Infix

namespace BbBot.Installer

open BbBot.Unix

/-! ## Looking for a digest -/

/-- Does the line start with the pattern? A dot matches every character. -/
def matchesHere : Str → Str → Bool
  | [], _ => true
  | _ :: _, [] => false
  -- Only dots are special among the characters that `md5sum` prints.
  | c :: pattern, x :: line => (c = '.' || c = x) && matchesHere pattern line

/-- `grep pattern` of a text, for a pattern in which only dots are special. -/
def grepFinds (pattern text : Str) : Bool :=
  (inputLines text).any fun line => line.tails.any (matchesHere pattern)

/-- The digest stands in a line of the list. -/
def Listed (digest list : Str) : Prop := ∃ line ∈ inputLines list, digest <:+: line

instance (digest list : Str) : Decidable (Listed digest list) :=
  inferInstanceAs (Decidable (∃ line ∈ inputLines list, digest <:+: line))

/-- The part of a pattern without dots is found as it is. -/
theorem prefix_of_matchesHere {front back line : Str} (plain : '.' ∉ front)
    (found : matchesHere (front ++ back) line = true) : front <+: line := by
  induction front generalizing line with
  | nil => exact List.nil_prefix
  | cons c front ih =>
    cases line with
    | nil => exact absurd found (by simp [matchesHere])
    | cons x line =>
      rw [List.cons_append, matchesHere, Bool.and_eq_true] at found
      -- Without a dot the characters are the same ones.
      have notDot : c ≠ '.' := by
        rintro rfl
        exact plain List.mem_cons_self
      have same : c = x := by simpa [notDot] using found.1
      rw [same, List.cons_prefix_cons]
      exact ⟨rfl, ih (fun member => plain (List.mem_cons_of_mem _ member)) found.2⟩

/-- A pattern that starts with a digest finds no line without it. -/
theorem listed_of_grepFinds {digest back list : Str} (plain : '.' ∉ digest)
    (found : grepFinds (digest ++ back) list = true) : Listed digest list := by
  obtain ⟨line, member, found⟩ := List.any_eq_true.mp found
  obtain ⟨tail, isTail, found⟩ := List.any_eq_true.mp found
  have front := prefix_of_matchesHere plain found
  exact ⟨line, member, front.isInfix.trans ((List.mem_tails _ _).mp isTail).isInfix⟩

/-! ## The commands -/

/-- A digest in hexadecimal digits. -/
structure Md5 where
  digest : Str → Str
  plain : ∀ content, '.' ∉ digest content

/-- The line that `md5sum` prints for a file. -/
def Md5.line (md5 : Md5) (name content : Str) : Str :=
  md5.digest content ++ "  ".toList ++ name

/-- What `cp` does with one file. -/
inductive Copy
  | whole
  | part (length : ℕ)
  | failed

/-- What is in the place of the copy afterwards. -/
def Copy.result (copy : Copy) (source before : Option Str) : Option Str :=
  match copy with
  | .whole => source
  | .part length => source.map (List.take length)
  | .failed => before

/-- The files that the script handles. -/
def sslHelperFile : Str := "ssl_helper".toList

def xzdecFile : Str := "xzdec".toList

def md5File : Str := "bins.md5".toList

/-- What the commands of a run do. -/
structure Steps where
  /-- The status of `unzip_files`, and the files that are there afterwards. -/
  unzips : Bool
  files : Str → Option Str
  /-- The number of characters that `md5sum` prints for a file. -/
  printed : Str → ℕ
  /-- What the decompressor writes. -/
  unpacked : Str
  /-- An installation directory is found or created. -/
  directory : Bool
  copyBusybox : Copy
  copyHelper : Copy
  /-- The applets are set up without an error. -/
  applets : Bool

/-- The installation directory's files, and older installations elsewhere. -/
structure Device (ω : Type*) where
  busybox : Option Str
  helper : Option Str
  others : ω

section Run

variable {ω : Type*} (md5 : Md5) (decompress : Str → Option Str) (bbfile : Str)
  (clean : Device ω → Device ω)

/-- `[ -e $i ]` and `grep "$(md5sum $i)" bins.md5` -/
def isVerified (steps : Steps) (name : Str) : Bool :=
  match steps.files name, steps.files md5File with
  -- The status of `md5sum` is not looked at, only what it has printed so far.
  | some content, some list => grepFinds ((md5.line name content).take (steps.printed name)) list
  | _, _ => false

/-- The files whose digests are looked up. -/
def checkedFiles : List Str := [bbfile, sslHelperFile, xzdecFile]

/-- The checks that can end the run while nothing has been changed. -/
def passes (steps : Steps) : Bool :=
  steps.unzips && (checkedFiles bbfile).all (isVerified md5 steps) && steps.directory

/-- The device after the cleaning and the copying. -/
def installed (noclean : Bool) (steps : Steps) (device : Device ω) : Device ω :=
  -- From here on nothing can be undone.
  let cleaned := if noclean then device else clean device
  { cleaned with
    busybox := steps.copyBusybox.result (some steps.unpacked) cleaned.busybox
    helper := steps.copyHelper.result (steps.files sslHelperFile) cleaned.helper }

/-- How a run ends. -/
inductive Ending (ω : Type*)
  | aborted (device : Device ω)
  | done (device : Device ω)

/-- The run from the extraction on. -/
def baseRun (noclean : Bool) (steps : Steps) (device : Device ω) : Ending ω :=
  if passes md5 bbfile steps then
    if steps.applets then .done (installed clean noclean steps device)
    else .aborted (installed clean noclean steps device)
  else .aborted device

/-! ## What a run should come to -/

/-- The file was extracted and its own digest is in the list. -/
def Genuine (steps : Steps) (name content : Str) : Prop :=
  steps.files name = some content ∧
    ∃ list, steps.files md5File = some list ∧ Listed (md5.digest content) list

/-- A run is aborted with nothing changed, or ends with a file of the archive that is
listed, decompressed as the binary, and another one as the helper. -/
def Sound (steps : Steps) (device : Device ω) : Ending ω → Prop
  | .aborted final => final = device
  | .done final =>
    (∃ name content binary, Genuine md5 steps name content ∧ decompress content = some binary ∧
      final.busybox = some binary) ∧
    ∃ name content, Genuine md5 steps name content ∧ final.helper = some content

/-- A copy leaves the contents that were meant: it was made of them and is whole, or
they were there before it failed. -/
def Delivers (copy : Copy) (source before : Option Str) (meant : Str) : Prop :=
  match copy with
  | .whole => source = some meant
  | .part length => ∃ text, source = some text ∧ text.take length = meant
  | .failed => before = some meant

/-- `md5sum` prints the whole digest of a file that is looked up, or the digest is
listed anyway. -/
def Digested (steps : Steps) (name content : Str) : Prop :=
  name ∈ checkedFiles bbfile ∧ (md5.digest content).length ≤ steps.printed name ∨
    ∃ list, steps.files md5File = some list ∧ Listed (md5.digest content) list

/-- Every command does all of its work. -/
structure Completes (noclean : Bool) (steps : Steps) (device : Device ω) : Prop where
  binary : ∃ name content binary, steps.files name = some content ∧
    decompress content = some binary ∧ Digested md5 bbfile steps name content ∧
    Delivers steps.copyBusybox (some steps.unpacked)
      (if noclean then device else clean device).busybox binary
  helper : ∃ name content, steps.files name = some content ∧
    Digested md5 bbfile steps name content ∧
    Delivers steps.copyHelper (steps.files sslHelperFile)
      (if noclean then device else clean device).helper content
  applets : steps.applets = true

theorem result_eq_some_iff {copy : Copy} {source before : Option Str} {meant : Str} :
    copy.result source before = some meant ↔ Delivers copy source before meant := by
  cases copy with
  | whole => rfl
  | part length => exact Option.map_eq_some_iff
  | failed => rfl

variable {md5 bbfile}

/-- A file that passes has been extracted, and the printed part of its line is in the
list. -/
theorem isVerified_iff {steps : Steps} {name : Str} :
    isVerified md5 steps name = true ↔
      ∃ content list, steps.files name = some content ∧ steps.files md5File = some list ∧
        grepFinds ((md5.line name content).take (steps.printed name)) list = true := by
  unfold isVerified
  cases steps.files name with
  | none => simp
  | some content =>
    cases steps.files md5File with
    | none => simp
    | some list => simp

theorem isVerified_of_passes {steps : Steps} {name : Str}
    (holds : passes md5 bbfile steps = true) (checked : name ∈ checkedFiles bbfile) :
    isVerified md5 steps name = true := by
  rw [passes, Bool.and_eq_true, Bool.and_eq_true] at holds
  exact List.all_eq_true.mp holds.1.2 name checked

/-- When all checks pass, a file is genuine exactly when its digest was printed or is
listed anyway. -/
theorem genuine_iff_digested {steps : Steps} {name content : Str}
    (holds : passes md5 bbfile steps = true) (extracted : steps.files name = some content) :
    Genuine md5 steps name content ↔ Digested md5 bbfile steps name content := by
  constructor
  · rintro ⟨-, listed⟩
    exact Or.inr listed
  · rintro (⟨checked, printed⟩ | listed)
    · obtain ⟨same, list, files, isList, found⟩ :=
        isVerified_iff.mp (isVerified_of_passes holds checked)
      obtain rfl : same = content := Option.some.inj (files.symm.trans extracted)
      refine ⟨extracted, list, isList, ?_⟩
      -- What was printed starts with the digest.
      rw [Md5.line, List.append_assoc, List.take_append, List.take_of_length_le printed] at found
      exact listed_of_grepFinds (md5.plain same) found
    · exact ⟨extracted, listed⟩

variable (md5 bbfile)

end Run

/-! ## An archive -/

/-- The text `ELF`, compressed. -/
def elfXz : Str :=
  [253, 55, 122, 88, 90, 0, 0, 0, 255, 18, 217, 65, 2, 0, 33, 1, 12, 0, 0, 0, 143, 152, 65, 156,
    1, 0, 2, 69, 76, 70, 0, 0, 0, 1, 19, 3, 3, 165, 96, 216, 6, 114, 158, 122, 1, 0, 0, 0, 0, 0,
    89, 90].map Char.ofNat

/-- The digests of that text, of `ssl`, of `dec` and of the empty text. -/
def elfMd5 : Md5 where
  digest := fun content =>
    if content = elfXz then "14076554180e09c96e0e0062585cb8e4".toList
    else if content = "ssl".toList then "f9d5c16a7f42203f8c195432354a3271".toList
    else if content = "dec".toList then "1feea25ecb958229287f885aebe7c49b".toList
    else "d41d8cd98f00b204e9800998ecf8427e".toList
  plain := by
    intro content
    split_ifs
    · decide
    · decide
    · decide
    · decide

def elfDecompress (content : Str) : Option Str :=
  if content = elfXz then some "ELF".toList else none

/-- An archive with its list, in which the binary may be another one. -/
def archiveFiles (binary : Str) (name : Str) : Option Str :=
  if name = "busybox.xz".toList then some binary
  else if name = sslHelperFile then some "ssl".toList
  else if name = xzdecFile then some "dec".toList
  else if name = md5File then
    some (output ["14076554180e09c96e0e0062585cb8e4  busybox.xz".toList,
      "f9d5c16a7f42203f8c195432354a3271  ssl_helper".toList,
      "1feea25ecb958229287f885aebe7c49b  xzdec".toList])
  else none

/-- A run in which all goes well. -/
def goodSteps : Steps where
  unzips := true
  files := archiveFiles elfXz
  printed := fun _ => 64
  unpacked := "ELF".toList
  directory := true
  copyBusybox := .whole
  copyHelper := .whole
  applets := true

/-- A device with an older installation, which is cleaned. -/
def olderDevice : Device Unit := ⟨some "old".toList, some "old".toList, ()⟩

def removeOlder (_ : Device Unit) : Device Unit := ⟨none, none, ()⟩

/-- The run of an archive on that device. -/
def archiveRun (steps : Steps) : Ending Unit :=
  baseRun elfMd5 "busybox.xz".toList removeOlder false steps olderDevice

/-- Only the binary of the archive can be decompressed. -/
theorem archiveFiles_decompress (binary name : Str) :
    (archiveFiles binary name).bind elfDecompress =
      if name = "busybox.xz".toList then elfDecompress binary else none := by
  unfold archiveFiles
  split_ifs
  · rfl
  · rw [Option.bind_some]
    decide +kernel
  · rw [Option.bind_some]
    decide +kernel
  · rw [Option.bind_some]
    decide +kernel
  · rfl

/-- A run that passes all checks ends, and is not sound unless its binary is that of a
file in the archive. -/
theorem archiveRun_passes {steps : Steps} {final : Device Unit}
    (holds : passes elfMd5 "busybox.xz".toList steps = true) (applets : steps.applets = true)
    (ends : installed removeOlder false steps olderDevice = final)
    (wrong : ∀ name binary, (steps.files name).bind elfDecompress = some binary →
      final.busybox ≠ some binary) :
    archiveRun steps = .done final ∧
      ¬ Sound elfMd5 elfDecompress steps olderDevice (archiveRun steps) := by
  have done : archiveRun steps = .done final := by
    rw [archiveRun, baseRun, if_pos holds, if_pos applets, ends]
  refine ⟨done, ?_⟩
  rw [done]
  rintro ⟨⟨name, content, binary, genuine, full, copied⟩, -⟩
  apply wrong name binary _ copied
  rw [genuine.1, Option.bind_some, full]

end BbBot.Installer
