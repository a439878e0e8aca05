/-
# What cleaning leaves behind

The loop looks at each name in the file system it has been deleting from. A
busybox that is a link to the busybox of a directory listed earlier dangles when
its own directory is visited, and the visit does not take place. A link to
another applet dangles when that applet comes first in the directory.

An entry is removed when neither the way to it nor the way to its busybox passes
through something that the loop removes before it gets there. What that is can be
told from the initial file system: cleanable entries of the directories listed
before, and the matching words in front of the name.
-/

import BbBot.Cleaning.Exact

namespace BbBot.Cleaning

open BbBot.Unix BbBot.Unix.FileSystem

/-! ## The words of a directory -/

/-- `ls` prints the same for the same entries. -/
theorem ls_congr {fs other : FileSystem} {d : ℕ}
    (same : ∀ name, other.entry d name = fs.entry d name) : other.ls d = fs.ls d := by
  have members (name : Name) : name ∈ other.names d ↔ name ∈ fs.names d := by
    rw [mem_names_iff, mem_names_iff, same]
  have names : (other.names d).Perm (fs.names d) :=
    (List.perm_ext_iff_of_nodup (nodup_names d) (nodup_names d)).mpr members
  -- `ls` sorts, so the same names come out in the same order.
  have sorted : other.listed d = fs.listed d := by
    have : Std.Total fun a b : Name => precedes a.1 b.1 = true :=
      ⟨fun a b => precedes_total a.1 b.1⟩
    have : IsTrans Name fun a b => precedes a.1 b.1 = true := ⟨fun _ _ _ => precedes_trans⟩
    apply List.Perm.eq_of_pairwise
      (fun a b _ _ forward backward => Name.ext (precedes_antisymm forward backward))
      (List.pairwise_insertionSort _ _) (List.pairwise_insertionSort _ _)
    exact (List.perm_insertionSort _ _).trans
      ((names.filter _).trans (List.perm_insertionSort _ _).symm)
  rw [ls, ls, sorted]

/-- The loop reads a name that `ls` shows, that is one word and does not mention
busybox. -/
theorem mem_cleanWords {fs : FileSystem} {d : ℕ}
    (literal : ∀ name ∈ fs.names d, Literal name.1) {name : Name} (member : name ∈ fs.names d)
    (shown : name.isHidden = false) (unsplit : Unsplit name.1)
    (noMention : ¬ busybox.1 <:+: name.1) : name.1 ∈ cleanWords fs d := by
  have oneLine : '\n' ∉ name.1 := fun newline => absurd (unsplit.2 _ newline) (by decide)
  have line : name.1 ∈ inputLines (fs.ls d) := by
    rw [ls, inputLines_output_eq_flatMap]
    refine List.mem_flatMap.mpr ⟨name.1, List.mem_map_of_mem (mem_listed_iff.mpr ⟨member, shown⟩),
      ?_⟩
    rw [lines_of_notMem oneLine]
    exact List.mem_singleton_self _
  rw [cleanWords_literal literal, grepV, fields_output_eq_flatMap]
  refine List.mem_flatMap.mpr ⟨name.1, List.mem_filter.mpr ⟨line, by simpa using noMention⟩, ?_⟩
  rw [fields_unsplit unsplit]
  exact List.mem_singleton_self _

/-- The words that the loop reads before a name. -/
def wordsBefore (fs : FileSystem) (d : ℕ) (name : Name) : List Str :=
  (cleanWords fs d).takeWhile (· ≠ name.1)

theorem cleanWords_split {fs : FileSystem} {d : ℕ} {name : Name}
    (member : name.1 ∈ cleanWords fs d) :
    ∃ rest, cleanWords fs d = wordsBefore fs d name ++ name.1 :: rest := by
  rw [wordsBefore]
  generalize cleanWords fs d = words at member ⊢
  induction words with
  | nil => exact absurd member (by simp)
  | cons word words ih =>
    by_cases same : word = name.1
    · exact ⟨words, by simp [same]⟩
    · obtain ⟨rest, split⟩ := ih ((List.mem_cons.mp member).resolve_left (Ne.symm same))
      refine ⟨rest, ?_⟩
      rw [List.takeWhile_cons_of_pos (by simpa using same), List.cons_append, ← split]

/-! ## What is removed before -/

/-- What the loop may have removed when, visiting `d` as `dir`, it has read some
words: what was cleanable in the directories listed before, and those words, where
they match. -/
def Earlier (fs : FileSystem) (before : List Str) (dir : Str) (d : ℕ) (read : List Str)
    (e : ℕ) (n : Name) : Prop :=
  Cleanable fs before e n ∨ e = d ∧ n.1 ∈ read ∧ Matches fs dir d n

/-- A path passes through none of the entries. -/
def Intact (fs : FileSystem) (gone : ℕ → Name → Prop) (d : ℕ) (path : Str) : Prop :=
  ∀ p ∈ fs.trailOf d path, ¬ gone p.1 p.2

section Orphans

variable (odd : FileSystem → ℕ → Str → Bool) {before after : List Str} {dir : Str} {d : ℕ}
  {state : State}
  (nonempty : ∀ path ∈ before ++ dir :: after, path ≠ [])
  (ordinary : ∀ path ∈ before ++ dir :: after, ∀ cwd e, state.fs.lookup cwd path = .found e →
    ∀ name ∈ state.fs.names e, Ordinary name)
  (absolute : dir.head? = some '/') (leads : state.fs.lookup root dir = .found d)
  (firstPath : ∀ path ∈ before, ∀ cwd, state.fs.lookup cwd path ≠ .found d)

include nonempty ordinary

/-- The directories listed before lose cleanable entries only. -/
theorem cleanLoop_before :
    Trimmed (Cleanable state.fs before) state.fs (cleanLoop odd before state).fs :=
  cleanLoop_trimmed odd state (fun path member => nonempty path (List.mem_append_left _ member))
    fun path member => ordinary path (List.mem_append_left _ member)

include firstPath in
/-- The directory has all its entries when it is visited first. -/
theorem entry_cleanLoop_before (name : Name) :
    (cleanLoop odd before state).fs.entry d name = state.fs.entry d name := by
  refine (cleanLoop_before odd nonempty ordinary).entry_of_not ?_
  rintro ⟨path, member, ⟨cwd, found⟩, -⟩
  exact firstPath path member cwd found

include absolute leads in
/-- A busybox that can still be reached is found on the first visit. -/
theorem visit_cleanLoop_before {bb : ℕ}
    (program : state.fs.lookup root (inDirectory dir) = .found bb)
    (intact : Intact state.fs (Cleanable state.fs before) root (inDirectory dir)) :
    (cleanLoop odd before state).fs.pathExists (cleanLoop odd before state).cwd
        (inDirectory dir) = true ∧
      (cleanLoop odd before state).fs.cd (cleanLoop odd before state).cwd dir = d := by
  have trimmed : Trimmed (Cleanable state.fs before) state.fs (cleanLoop odd before state).fs :=
    cleanLoop_before odd nonempty ordinary
  have notEmpty : dir ≠ [] := nonempty dir (by simp)
  have absolutePath : (inDirectory dir).head? = some '/' := by
    cases dir with
    | nil => exact absurd rfl notEmpty
    | cons c rest => exact absolute
  have found : (cleanLoop odd before state).fs.lookup (cleanLoop odd before state).cwd
      (inDirectory dir) = .found bb := by
    rw [lookup_absolute _ absolutePath _ root, trimmed.lookup_eq intact, program]
  have present := pathExists_iff.mpr ⟨bb, found⟩
  obtain ⟨e, j, visited, -, entered⟩ := entered_of_present notEmpty present
  -- The path leads to this directory, as it did at the start.
  have same : e = d := by
    have old := trimmed.extends_.lookup_found visited
    rw [lookup_absolute _ absolute _ root, leads] at old
    exact (Lookup.found.inj old).symm
  exact ⟨present, entered.trans same⟩

omit ordinary in
/-- Later visits give nothing back. -/
theorem extends_visit : Extends (cleanLoop odd (before ++ dir :: after) state).fs
    (cleanDir odd (cleanLoop odd before state) dir).fs := by
  rw [cleanLoop_append, cleanLoop_cons]
  exact extends_cleanLoop odd (fun path member => nonempty path (by simp [member])) _

include leads firstPath in
/-- The first visit reads the words that were there at the start. -/
theorem cleanWords_cleanLoop_before :
    cleanWords (cleanLoop odd before state).fs d = cleanWords state.fs d := by
  have entries := entry_cleanLoop_before odd nonempty ordinary firstPath
  have names (name : Name) (member : name ∈ state.fs.names d) : Ordinary name :=
    ordinary dir (by simp) root d leads name member
  have literal (name : Name) (member : name ∈ (cleanLoop odd before state).fs.names d) :
      Literal name.1 := by
    obtain ⟨i, here⟩ := mem_names_iff.mp member
    exact (names name (mem_names_iff.mpr ⟨i, (entries name).symm.trans here⟩)).1
  rw [cleanWords_literal literal, cleanWords_literal fun name member => (names name member).1,
    ls_congr entries]

variable (before after dir d state)

end Orphans

/-- A device where the busybox of `/system/bin` is a link to the one of `/system/xbin`,
which has another name there. -/
def relay : FileSystem where
  nodes := [
    .directory true (entriesOf [(Name.named "system", 1)]),
    .directory true (entriesOf [(Name.named "xbin", 2),
      (Name.named "bin", 3)]),
    .directory true (entriesOf [(busybox, 4), (Name.named "busybox2", 6)]),
    .directory true (entriesOf [(busybox, 5), (Name.named "ls", 6)]),
    .leaf (.file true "ELF".toList),
    .leaf (.symlink "/system/xbin/busybox".toList),
    .leaf (.symlink busybox.1)]
  linked := by decide

end BbBot.Cleaning
