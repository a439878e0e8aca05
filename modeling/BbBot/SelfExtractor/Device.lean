/-
# The tests of the installer on a device

The installer expands paths unquoted. A plain word, which has no blank and no
pattern character and does not start with a dash, reaches `[` and `mkdir` as one
operand, and what they say and do follows from the file system. What the tests make
of other values is left open, except that `mkdir` removes nothing.
-/

import BbBot.SelfExtractor.Install
import BbBot.SelfExtractor.Options
import BbBot.Unix.Directories

namespace BbBot.SelfExtractor

open BbBot.Unix BbBot.Unix.FileSystem BbBot.Installer

/-- The word is one operand, wherever it is expanded. -/
def PlainWord (word : Str) : Prop := Unsplit word ∧ Literal word ∧ isOption word = false

instance (word : Str) : Decidable (PlainWord word) :=
  inferInstanceAs (Decidable (Unsplit word ∧ Literal word ∧ isOption word = false))

/-- A shell that runs in a directory of a device. -/
structure DeviceShell (cwd : ℕ) extends Shell FileSystem where
  expand_word : ∀ fs word, PlainWord word → expand fs word = [word]
  expand_nonempty : ∀ fs word, word ≠ [] → ∀ expanded ∈ expand fs word, expanded ≠ []
  isThere_word : ∀ fs word, PlainWord word → isThere fs word = fs.pathExists cwd word
  isAccessible_word : ∀ fs word, PlainWord word → isAccessible fs word = accessible fs cwd word
  isWritable_word : ∀ fs word, PlainWord word → isWritable fs word = fs.isWritablePath cwd word
  mkdir_word : ∀ fs word, PlainWord word → mkdir fs word = fs.mkdir cwd word
  extends_mkdir : ∀ fs value next, mkdir fs value = some next → Extends fs next

/-- The path leads to a directory. -/
def LeadsToDir (fs : FileSystem) (cwd : ℕ) (path : Str) : Prop :=
  ∃ d, fs.lookup cwd path = .found d ∧ fs.isDirectory d = true

theorem LeadsToDir.mono {small large : FileSystem} {cwd : ℕ} {path : Str}
    (grows : Extends small large) (leads : LeadsToDir small cwd path) :
    LeadsToDir large cwd path := by
  obtain ⟨d, found, directory⟩ := leads
  exact ⟨d, grows.lookup_found found, grows.isDirectory directory⟩

theorem leadsToDir_of_accessible {fs : FileSystem} {cwd : ℕ} {path : Str}
    (holds : accessible fs cwd path = true) : LeadsToDir fs cwd path := by
  rw [accessible, Bool.and_eq_true] at holds
  have directory := holds.1
  unfold isDirectoryPath at directory
  split at directory
  · rename_i d found
    exact ⟨d, found, directory⟩
  · exact absurd directory (by simp)

namespace DeviceShell

variable {cwd : ℕ} (shell : DeviceShell cwd)

theorem leadsToDir_of_isAccessible {fs : FileSystem} {word : Str} (plain : PlainWord word)
    (holds : shell.isAccessible fs word = true) : LeadsToDir fs cwd word := by
  rw [shell.isAccessible_word fs word plain] at holds
  exact leadsToDir_of_accessible holds

theorem leadsToDir_of_mkdir {fs next : FileSystem} {word : Str} (plain : PlainWord word)
    (made : shell.mkdir fs word = some next) : LeadsToDir next cwd word := by
  rw [shell.mkdir_word fs word plain] at made
  obtain ⟨i, found, isNew⟩ := lookup_mkdir made
  exact ⟨i, found, isDirectory_iff.mpr ⟨true, isNew⟩⟩

end DeviceShell

/-! ## A shell -/

/-- A test of a file whose operand is expanded unquoted. With no word left the
operator is the only argument of `[`, and an argument that is not empty is true.
Several words are too many. -/
def fileTest (test : Str → Bool) (value : Str) : Bool :=
  -- Unquoted, so the number of words decides what `[` sees.
  match fields value with
  | [] => true
  | [word] => test word
  | _ => false

theorem fileTest_unsplit {test : Str → Bool} {word : Str} (unsplit : Unsplit word) :
    fileTest test word = test word := by
  rw [fileTest, fields_unsplit unsplit]

/-- A shell that takes patterns as they are and creates one directory at a time. -/
def wordShell (cwd : ℕ) : DeviceShell cwd where
  expand := fun _ word => [word]
  isEmpty := plainShell.isEmpty
  isThere := fun fs => fileTest (fs.pathExists cwd)
  isAccessible := fun fs => fileTest (accessible fs cwd)
  isWritable := fun fs => fileTest (fs.isWritablePath cwd)
  mkdir := fun fs value => if isOption value then none else
    match fields value with
    | [word] => fs.mkdir cwd word
    | _ => none
  isBit := plainShell.isBit
  isOne := plainShell.isOne
  isEmpty_nil := plainShell.isEmpty_nil
  isEmpty_word := plainShell.isEmpty_word
  isThere_mkdir := by
    intro fs word next unsplit made
    split_ifs at made
    rw [fields_unsplit unsplit] at made
    -- What was created is what the path leads to afterwards.
    obtain ⟨i, found, -⟩ := lookup_mkdir made
    rw [fileTest_unsplit unsplit]
    exact pathExists_iff.mpr ⟨i, found⟩
  isBit_zero := plainShell.isBit_zero
  isBit_one := plainShell.isBit_one
  isOne_zero := plainShell.isOne_zero
  isOne_one := plainShell.isOne_one
  isEmpty_of_isBit := plainShell.isEmpty_of_isBit
  expand_word := by
    intro fs word plain
    rfl
  expand_nonempty := by
    intro fs word nonempty expanded member
    rwa [List.mem_singleton.mp member]
  isThere_word := by
    intro fs word plain
    exact fileTest_unsplit plain.1
  isAccessible_word := by
    intro fs word plain
    exact fileTest_unsplit plain.1
  isWritable_word := by
    intro fs word plain
    exact fileTest_unsplit plain.1
  mkdir_word := by
    intro fs word plain
    rw [plain.2.2, fields_unsplit plain.1]
    rfl
  extends_mkdir := by
    intro fs value next made
    split_ifs at made
    split at made
    · exact extends_mkdir made
    · exact absurd made (by simp)

end BbBot.SelfExtractor
