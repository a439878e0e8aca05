/-
# Tests and tools on a working directory

The conditions of `[` and the tools `ls`, `head`, `rm`, `ln`, `chmod` and
redirected `echo`, each as a function of the file system and a working
directory. An operand that starts with a dash is taken for options, so a tool
does nothing with a file of that name. `ls` does not show names that start with
a dot.

Tests follow symbolic links and redirection creates the file that a dangling
link leads to, while `rm` and `ln` act on the entry itself.
-/

import BbBot.Unix.Resolution
import BbBot.Unix.Text
import Mathlib.Data.List.Sort

namespace BbBot.Unix

/-- Words that `[` may parse as operators instead of operands. -/
def testOperators : List Str :=
  ["!".toList, "(".toList, ")".toList, "=".toList, "==".toList, "!=".toList, "<".toList,
    ">".toList, "-a".toList, "-o".toList, "-eq".toList, "-ne".toList, "-lt".toList,
    "-le".toList, "-gt".toList, "-ge".toList, "-nt".toList, "-ot".toList, "-ef".toList,
    "-b".toList, "-c".toList, "-d".toList, "-e".toList, "-f".toList, "-g".toList, "-G".toList,
    "-h".toList, "-k".toList, "-L".toList, "-n".toList, "-N".toList, "-O".toList, "-p".toList,
    "-r".toList, "-s".toList, "-S".toList, "-t".toList, "-u".toList, "-w".toList, "-x".toList,
    "-z".toList]

/-- Tools read an operand that starts with a dash as options. -/
def isOption (word : Str) : Bool := word.head? == some '-'

/-- Names that `ls` and patterns leave out. -/
def Name.isHidden (name : Name) : Bool := name.1.head? == some '.'

namespace FileSystem

variable (fs : FileSystem)

/-! ## Conditions -/

/-- `[ -e path ]`. -/
def pathExists (d : ℕ) (path : Str) : Bool :=
  match fs.lookup d path with
  | .found _ => true
  | _ => false

/-- `[ -d path ]`. -/
def isDirectoryPath (d : ℕ) (path : Str) : Bool :=
  match fs.lookup d path with
  | .found i => fs.isDirectory i
  | _ => false

/-- `[ -w path ]` for the superuser: only a read-only directory is not writable. -/
def isWritablePath (d : ℕ) (path : Str) : Bool :=
  match fs.lookup d path with
  | .found i =>
    match fs.kind i with
    | some (.directory writable) => writable
    | some _ => true
    | none => false
  | _ => false

/-- `[ -x path ]`. -/
def isExecutablePath (d : ℕ) (path : Str) : Bool :=
  match fs.lookup d path with
  | .found i =>
    match fs.kind i with
    | some (.file executable _) => executable
    | some (.directory _) => true
    | _ => false
  | _ => false

/-- `[ path -ef other ]`. -/
def sameFile (d : ℕ) (path other : Str) : Bool :=
  match fs.lookup d path, fs.lookup d other with
  | .found i, .found j => i == j
  | _, _ => false

/-! ## Tools -/

/-- The contents that reading an inode gives. -/
def contentOf (i : ℕ) : Str :=
  match fs.kind i with
  | some (.file _ content) => content
  | _ => []

/-- The first line of a text. -/
def firstLine (text : Str) : Str := text.takeWhile (· ≠ '\n')

/-- What the substitution of `head -n 1 word` expands to. -/
def head (d : ℕ) (word : Str) : Str :=
  if isOption word then []
  else
    match fs.lookup d word with
    | .found i => firstLine (fs.contentOf i)
    | _ => []

/-- The names that `ls` shows, in its order. -/
def listed (d : ℕ) : List Name :=
  ((fs.names d).filter fun name => !name.isHidden).insertionSort fun a b =>
    precedes a.1 b.1 = true

/-- The output of `ls` in a directory. -/
def ls (d : ℕ) : Str := output ((fs.listed d).map Name.word)

/-- `rm -f word` in a directory. Directories and options are left alone. -/
def rm (d : ℕ) (word : Str) : FileSystem :=
  if isOption word then fs
  else
    match Name.ofWord word with
    | none => fs
    | some name =>
      match fs.entry d name with
      | none => fs
      -- `rm` does not follow a link, it removes the link itself.
      | some i => if fs.isDirectory i then fs else fs.unlink d name

/-- The `symlink` system call: it fails when the name is taken. -/
def symlink (d : ℕ) (name : Name) (target : Str) : FileSystem :=
  if fs.isDirectory d ∧ fs.entry d name = none then fs.create d name (.symlink target) else fs

/-- The directory and the name that the last component of an operand stands for. -/
def slot (d : ℕ) (operand : Str) : Option (ℕ × Name) :=
  match (components operand).getLast?,
    fs.walk maxLinks (start d operand) (components operand).dropLast with
  | some name, .found parent => some (parent, name)
  | _, _ => none

/-- `ln -s target operand`, for a target whose last component is `base`. An
operand that leads to a directory makes the link inside that directory. -/
def ln (d : ℕ) (target : Str) (base : Name) (operand : Str) : FileSystem :=
  if isOption operand then fs
  else if fs.isDirectoryPath d operand then
    match fs.lookup d operand with
    | .found i => fs.symlink i base target
    | _ => fs
  else
    match fs.slot d operand with
    | some (parent, name) => fs.symlink parent name target
    | none => fs

/-- `echo text > word`: through links, creating a missing last component. -/
def redirect (d : ℕ) (word : Str) (text : Str) : Option FileSystem :=
  match fs.lookup d word with
  | .found i =>
    match fs.kind i with
    | some (.file executable _) => some (fs.rewrite i (.file executable text))
    | _ => none
  -- A dangling link is followed, and the file is created where it leads.
  | .missing parent name => some (fs.create parent name (.file false text))
  | .failed => none

/-- `chmod` to an executable mode. -/
def chmodExec (d : ℕ) (word : Str) : FileSystem :=
  if isOption word then fs
  else
    match fs.lookup d word with
    | .found i =>
      match fs.kind i with
      | some (.file _ content) => fs.rewrite i (.file true content)
      | _ => fs
    | _ => fs

/-- `cp -f` of an executable into a directory. A file that is there is written in
place, and an entry that cannot be opened is replaced. -/
def cp (d : ℕ) (name : Name) (content : Str) : FileSystem :=
  match fs.lookup d name.1 with
  | .found i =>
    match fs.kind i with
    | some (.file _ _) => fs.rewrite i (.file true content)
    | _ => fs
  | _ =>
    if fs.entry d name = none then fs.create d name (.file true content)
    else (fs.unlink d name).create d name (.file true content)

/-- `cd path`, which stays where it is when the path is no directory. -/
def cd (d : ℕ) (path : Str) : ℕ :=
  match fs.lookup d path with
  | .found i => if fs.isDirectory i then i else d
  | _ => d

end FileSystem

/-! ## Specifications -/

namespace FileSystem

variable {fs : FileSystem} {d : ℕ}

theorem cd_of_found {path : Str} {i : ℕ} (found : fs.lookup d path = .found i)
    (directory : fs.isDirectory i = true) : fs.cd d path = i := by
  rw [cd, found]
  exact if_pos directory

theorem pathExists_iff {path : Str} :
    fs.pathExists d path = true ↔ ∃ i, fs.lookup d path = .found i := by
  unfold pathExists
  split
  · rename_i i found
    exact ⟨fun _ => ⟨i, found⟩, fun _ => rfl⟩
  · rename_i other
    exact ⟨fun h => absurd h (by simp), fun ⟨i, found⟩ => absurd found (other i)⟩

theorem sameFile_iff {path other : Str} :
    fs.sameFile d path other = true ↔
      ∃ i, fs.lookup d path = .found i ∧ fs.lookup d other = .found i := by
  unfold sameFile
  split
  · rename_i i j first second
    rw [beq_iff_eq, first, second]
    exact ⟨fun same => ⟨i, rfl, same ▸ rfl⟩, fun ⟨k, hi, hj⟩ =>
      (Lookup.found.inj hi).trans (Lookup.found.inj hj).symm⟩
  · rename_i other
    exact ⟨fun h => absurd h (by simp), fun ⟨i, first, second⟩ => absurd second (other i i first)⟩

/-- Removing a word either does nothing or unlinks the entry of that name. -/
theorem rm_cases (fs : FileSystem) (d : ℕ) (word : Str) :
    fs.rm d word = fs ∨ ∃ name : Name, name.1 = word ∧ fs.rm d word = fs.unlink d name := by
  unfold rm
  split
  · exact Or.inl rfl
  · split
    · exact Or.inl rfl
    · rename_i name same
      split
      · exact Or.inl rfl
      · split
        · exact Or.inl rfl
        · exact Or.inr ⟨name, Name.val_of_ofWord same, rfl⟩

/-- A file or link under an ordinary name is unlinked. -/
theorem rm_name {name : Name} {i : ℕ} (operand : isOption name.1 = false)
    (leads : fs.entry d name = some i) (notDirectory : fs.isDirectory i = false) :
    fs.rm d name.1 = fs.unlink d name := by
  simp [rm, operand, leads, notDirectory]

/-- Removing an absent name does nothing. -/
theorem rm_absent {name : Name} (absent : fs.entry d name = none) : fs.rm d name.1 = fs := by
  unfold rm
  split
  · rfl
  · simp [absent]

/-- Removing a word trims at most the entry of that name. -/
theorem trimmed_rm {gone : ℕ → Name → Prop} (word : Str)
    (allowed : ∀ name : Name, name.1 = word → gone d name) : Trimmed gone fs (fs.rm d word) := by
  rcases fs.rm_cases d word with same | ⟨name, named, same⟩
  · rw [same]
    exact Trimmed.refl gone fs
  · rw [same]
    exact Trimmed.unlink fs (allowed name named)

theorem slot_name (fs : FileSystem) (d : ℕ) (name : Name) :
    fs.slot d name.1 = some (d, name) := by
  simp [slot, components_name, start_name]

theorem lookup_absent {name : Name} (directory : fs.isDirectory d = true)
    (absent : fs.entry d name = none) : fs.lookup d name.1 = .missing d name := by
  rw [lookup_name, walk_of_entry_none directory absent, if_pos rfl]

/-- The tools take `operand` as the entry `name` of a directory, now and when
entries have been added. `links` is the number of links left on the way there. -/
structure Operand (fs : FileSystem) (cwd : ℕ) (operand : Str) (d links : ℕ) (name : Name) :
    Prop where
  word : isOption operand = false
  slot : ∀ later, Extends fs later → later.slot cwd operand = some (d, name)
  lookup : ∀ later, Extends fs later → later.lookup cwd operand = later.walk links d [name]

namespace Operand

theorem trans {fs later : FileSystem} {cwd d links : ℕ} {operand : Str} {name : Name}
    (entry : Operand fs cwd operand d links name) (grows : Extends fs later) :
    Operand later cwd operand d links name :=
  ⟨entry.word, fun large h => entry.slot large (grows.trans h),
    fun large h => entry.lookup large (grows.trans h)⟩

/-- A name stands for an entry of the working directory. -/
theorem ofName (fs : FileSystem) (d : ℕ) {name : Name} (word : isOption name.1 = false) :
    Operand fs d name.1 d maxLinks name :=
  ⟨word, fun later _ => later.slot_name d name, fun later _ => later.lookup_name d name⟩

/-- Absolute paths stand for entries of the directory they lead to. -/
theorem ofPath {fs : FileSystem} {cwd d : ℕ} {dir : Str} (absolute : dir.head? = some '/')
    (visited : fs.lookup cwd dir = .found d) :
    ∃ links, ∀ name : Name, Operand fs cwd (dir ++ '/' :: name.1) d links name := by
  have nonempty : dir ≠ [] := by
    rintro rfl
    exact absurd absolute (by simp)
  have head (name : Name) : (dir ++ '/' :: name.1).head? = some '/' := by
    rw [List.head?_append, absolute]
    rfl
  rw [FileSystem.lookup, if_neg nonempty] at visited
  obtain ⟨links, -, reach⟩ := Within.walk_append visited
  refine ⟨links, fun name => ⟨?_, fun later grows => ?_, fun later grows => ?_⟩⟩
  · simp [isOption, head]
  -- The path of the directory, with nothing behind it.
  · have front := reach later grows.within []
    rw [List.append_nil, walk_nil] at front
    have names : components (dir ++ '/' :: name.1) = components dir ++ [name] :=
      components_slash dir name
    rw [FileSystem.slot, names, List.getLast?_concat, List.dropLast_concat,
      start_slash nonempty, front]
  · rw [lookup_slash nonempty, reach later grows.within]

variable {fs : FileSystem} {cwd d links : ℕ} {operand : Str} {name : Name}
  (entry : Operand fs cwd operand d links name)

include entry

/-- A name that is taken by something other than a directory keeps its entry. -/
theorem ln_taken {base : Name} {i : ℕ} (target : Str) (leads : fs.entry d name = some i)
    (notDirectory : fs.isDirectoryPath cwd operand = false) :
    fs.ln cwd target base operand = fs := by
  simp [ln, notDirectory, entry.slot fs (Extends.refl fs), symlink, leads]

/-- A free name becomes a link. -/
theorem ln_absent {base : Name} (target : Str) (directory : fs.isDirectory d = true)
    (absent : fs.entry d name = none) :
    fs.ln cwd target base operand = fs.create d name (.symlink target) := by
  have notPath : fs.isDirectoryPath cwd operand = false := by
    simp [isDirectoryPath, entry.lookup fs (Extends.refl fs),
      walk_of_entry_none directory absent]
  simp [ln, entry.word, notPath, entry.slot fs (Extends.refl fs), symlink, directory, absent]

/-- What leads to a directory gets the link inside. -/
theorem ln_directory {base : Name} {j : ℕ} (target : Str)
    (found : fs.walk links d [name] = .found j) (directory : fs.isDirectory j = true) :
    fs.ln cwd target base operand = fs.symlink j base target := by
  have found := (entry.lookup fs (Extends.refl fs)).trans found
  simp [ln, entry.word, isDirectoryPath, found, directory]

end Operand

/-- A file that is not a link is found under its name. -/
theorem lookup_entry {name : Name} {i : ℕ} (leads : fs.entry d name = some i)
    (notLink : fs.target i = none) : fs.lookup d name.1 = .found i := by
  rw [lookup_name, walk_of_entry leads notLink, walk_nil]

/-- A link to a name of its own directory is followed there. -/
theorem lookup_link {name other : Name} {i j : ℕ} (leads : fs.entry d name = some i)
    (link : fs.target i = some other.1) (onwards : fs.entry d other = some j)
    (notLink : fs.target j = none) : fs.lookup d name.1 = .found j := by
  rw [lookup_name, maxLinks, walk_of_link leads link, components_name, start_name,
    List.singleton_append, walk_of_entry onwards notLink, walk_nil]

/-- The file that a path was missing is found once it is created. -/
theorem lookup_create_missing {path : Str} {p : ℕ} {n : Name} (executable : Bool) (text : Str)
    (missing : fs.lookup d path = .missing p n) :
    (fs.create p n (.file executable text)).lookup d path = .found fs.size := by
  rw [lookup] at missing ⊢
  split at missing
  · exact absurd missing (by simp)
  · rename_i nonempty
    obtain ⟨directory, absent⟩ := walk_missing missing
    obtain ⟨links, reach⟩ := Within.walk_missing missing
    rw [if_neg nonempty, reach _ (extends_create directory absent _).within, walk_of_entry _ _,
      walk_nil]
    · rw [entry_create directory, if_pos ⟨rfl, rfl⟩]
    · rw [target, kind_create, if_pos rfl]
      rfl

/-- Writing a script where a path leads to a free name, and making it executable. -/
theorem redirect_chmod_missing {path : Str} {p : ℕ} {n : Name} (text : Str)
    (operand : isOption path = false) (missing : fs.lookup d path = .missing p n) :
    (fs.redirect d path text).map (fun written => written.chmodExec d path) =
      some (fs.create p n (.file true text)) := by
  have created : (fs.create p n (.file false text)).kind fs.size = some (.file false text) := by
    rw [kind_create, if_pos rfl]
    rfl
  rw [redirect, missing]
  dsimp only
  rw [Option.map_some, chmodExec, operand, lookup_create_missing false text missing]
  simp only [created, Bool.false_eq_true, if_false]
  rw [rewrite_create]

/-- Copying to a free name creates the file. -/
theorem cp_absent {name : Name} (content : Str) (directory : fs.isDirectory d = true)
    (absent : fs.entry d name = none) :
    fs.cp d name content = fs.create d name (.file true content) := by
  simp [cp, lookup_absent directory absent, absent]

/-- Copying into a directory changes the entries of no other one. -/
theorem entry_cp_of_ne {e : ℕ} (elsewhere : e ≠ d) (name : Name) (content : Str) (n : Name) :
    (fs.cp d name content).entry e n = fs.entry e n := by
  unfold cp
  split
  · split
    · exact entry_rewrite ..
    · rfl
  · split
    · exact entry_create_of_ne elsewhere ..
    · rw [entry_create_of_ne elsewhere, entry_unlink, if_neg fun same => elsewhere same.1]

theorem mem_listed_iff {name : Name} :
    name ∈ fs.listed d ↔ name ∈ fs.names d ∧ name.isHidden = false := by
  simp [listed, List.mem_insertionSort]

end FileSystem

/-! ## Pathname expansion -/

/-- A piece of a pattern. -/
inductive GlobItem
  | char (c : Char)
  | one
  | many
  | set (members : Str)
  deriving DecidableEq

/-- A character outside brackets. -/
def GlobItem.ofChar (c : Char) : GlobItem :=
  if c = '*' then .many else if c = '?' then .one else .char c

/-- Read a word as a pattern. The second argument holds the characters since an
open bracket, which stands for itself when no bracket closes it. -/
def globItems : Str → Option Str → List GlobItem
  | [], none => []
  | [], some bracket => .char '[' :: bracket.reverse.map GlobItem.ofChar
  | c :: rest, none =>
    if c = '[' then globItems rest (some []) else GlobItem.ofChar c :: globItems rest none
  | c :: rest, some bracket =>
    if c = ']' ∧ bracket ≠ [] then .set bracket.reverse :: globItems rest none
    else globItems rest (some (c :: bracket))

/-- Membership in a bracket expression with ranges. -/
def inBracket (c : Char) : Str → Bool
  | low :: '-' :: high :: rest => (low ≤ c && c ≤ high) || inBracket c rest
  | member :: rest => member = c || inBracket c rest
  | [] => false

/-- Membership in a bracket expression, which an exclamation mark negates. -/
def bracketMatches (c : Char) : Str → Bool
  | '!' :: members => !inBracket c members
  | members => inBracket c members

/-- Does a pattern match a name? -/
def globMatches : List GlobItem → Str → Bool
  | [], text => text.isEmpty
  | .many :: items, text => text.tails.any (globMatches items)
  | .one :: items, _ :: text => globMatches items text
  | .char c :: items, x :: text => c == x && globMatches items text
  | .set members :: items, x :: text => bracketMatches x members && globMatches items text
  | _ :: _, [] => false

/-- A pattern has an item that is not a plain character. -/
def isPattern (items : List GlobItem) : Bool :=
  items.any fun item => match item with | .char _ => false | _ => true

/-- Pathname expansion of a word without slashes: the matching names, or the
word itself when nothing matches. -/
def FileSystem.expand (fs : FileSystem) (d : ℕ) (word : Str) : List Str :=
  let items := globItems word none
  if isPattern items then
    let candidates := if word.head? == some '.' then fs.names d else fs.listed d
    match candidates.filter fun name => globMatches items name.1 with
    | [] => [word]
    | names => names.map Name.word
  else [word]

/-- No character of a word can make it a pattern. -/
def Literal (word : Str) : Prop := '*' ∉ word ∧ '?' ∉ word ∧ ']' ∉ word

instance (word : Str) : Decidable (Literal word) :=
  inferInstanceAs (Decidable ('*' ∉ word ∧ '?' ∉ word ∧ ']' ∉ word))

private theorem isPattern_globItems {word : Str} (literal : Literal word)
    (bracket : Option Str) (inside : ∀ acc ∈ bracket, Literal acc) :
    isPattern (globItems word bracket) = false := by
  have ofChar {c : Char} (star : c ≠ '*') (mark : c ≠ '?') : GlobItem.ofChar c = .char c := by
    simp [GlobItem.ofChar, star, mark]
  induction word generalizing bracket with
  | nil =>
    cases bracket with
    | none => rfl
    | some acc =>
      obtain ⟨star, mark, -⟩ := inside acc rfl
      have plain : acc.reverse.map GlobItem.ofChar = acc.reverse.map GlobItem.char :=
        List.map_congr_left fun c member => ofChar
          (fun same => star (same ▸ List.mem_reverse.mp member))
          (fun same => mark (same ▸ List.mem_reverse.mp member))
      simp [globItems, isPattern, plain]
  | cons c word ih =>
    obtain ⟨star, mark, close⟩ := literal
    simp only [List.mem_cons, not_or] at star mark close
    have rest : Literal word := ⟨star.2, mark.2, close.2⟩
    cases bracket with
    | none =>
      rw [globItems]
      split
      · exact ih rest _ fun acc member => by
          obtain rfl : [] = acc := by simpa using member
          exact ⟨by simp, by simp, by simp⟩
      · rw [ofChar (Ne.symm star.1) (Ne.symm mark.1), isPattern, List.any_cons, Bool.false_or]
        exact ih rest none (by simp)
    | some acc =>
      rw [globItems, if_neg fun closing => close.1 closing.1.symm]
      refine ih rest _ fun extended member => ?_
      obtain rfl : c :: acc = extended := by simpa using member
      obtain ⟨accStar, accMark, accClose⟩ := inside acc rfl
      exact ⟨by simp [star.1, accStar], by simp [mark.1, accMark], by simp [close.1, accClose]⟩

/-- A word without pattern characters expands to itself. -/
theorem FileSystem.expand_literal (fs : FileSystem) (d : ℕ) {word : Str}
    (literal : Literal word) : fs.expand d word = [word] := by
  rw [expand, isPattern_globItems literal none (by simp)]
  rfl

end BbBot.Unix
