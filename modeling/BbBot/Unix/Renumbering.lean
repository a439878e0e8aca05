/-
# The same tree under other inode numbers

Two file systems hold the same tree when their inodes can be paired so that paired
directories have the same names, leading to paired inodes, and paired inodes are
of the same kind. Inodes that no path leads to are left unpaired, so a file that
was deleted makes no difference.

Programs cannot see inode numbers: paths lead to paired inodes, tests agree, and
tools leave the same tree behind, with new inodes paired as well.
-/

import BbBot.Unix.Commands

namespace BbBot.Unix

/-- Two results of a path lookup that agree up to the numbers. -/
inductive Lookup.Rel (r : ℕ → ℕ → Prop) : Lookup → Lookup → Prop
  | found {i j : ℕ} (paired : r i j) : Rel r (.found i) (.found j)
  | missing {p q : ℕ} (name : Name) (paired : r p q) : Rel r (.missing p name) (.missing q name)
  | failed : Rel r .failed .failed

namespace FileSystem

/-- The pairs `r` of inodes show the same tree in both file systems. -/
structure Renumbered (r : ℕ → ℕ → Prop) (a b : FileSystem) : Prop where
  inside : ∀ i j, r i j → i < a.size ∧ j < b.size
  single : ∀ i j i' j', r i j → r i' j' → (i = i' ↔ j = j')
  root : r root root
  kind : ∀ i j, r i j → a.kind i = b.kind j
  entry : ∀ d e, r d e → ∀ name, Option.Rel r (a.entry d name) (b.entry e name)

/-- The same tree, with the pairs `r` and maybe new ones. -/
def SameTree (r : ℕ → ℕ → Prop) (a b : FileSystem) : Prop :=
  ∃ more : ℕ → ℕ → Prop, (∀ i j, r i j → more i j) ∧ Renumbered more a b

theorem SameTree.mono {r more : ℕ → ℕ → Prop} {a b : FileSystem}
    (sub : ∀ i j, r i j → more i j) (same : SameTree more a b) : SameTree r a b := by
  obtain ⟨most, grows, paired⟩ := same
  exact ⟨most, fun i j h => grows i j (sub i j h), paired⟩

namespace Renumbered

variable {r : ℕ → ℕ → Prop} {a b : FileSystem} (same : Renumbered r a b) {d e : ℕ}
  (paired : r d e)

include same

theorem sameTree : SameTree r a b := ⟨r, fun _ _ h => h, same⟩

include paired

theorem isDirectory : a.isDirectory d = b.isDirectory e := by
  rw [FileSystem.isDirectory, same.kind d e paired, FileSystem.isDirectory]

theorem target : a.target d = b.target e := by
  rw [FileSystem.target, same.kind d e paired, FileSystem.target]

/-- The entries of paired directories lead to paired inodes, or both are missing. -/
theorem entry_cases (name : Name) :
    a.entry d name = none ∧ b.entry e name = none ∨
      ∃ i j, a.entry d name = some i ∧ b.entry e name = some j ∧ r i j := by
  have entry := same.entry d e paired name
  generalize a.entry d name = first at *
  generalize b.entry e name = second at *
  cases entry with
  | none => exact Or.inl ⟨rfl, rfl⟩
  | some leads => exact Or.inr ⟨_, _, rfl, rfl, leads⟩

theorem start (path : Str) : r (start d path) (start e path) := by
  rw [FileSystem.start, FileSystem.start]
  split
  · exact same.root
  · exact paired

/-- A walk leads to the same place in both. -/
theorem walk (links : ℕ) (names : List Name) :
    Lookup.Rel r (a.walk links d names) (b.walk links e names) := by
  -- A link makes the names longer, but then one link less is left.
  induction links using Nat.strong_induction_on generalizing d e names with
  | _ links fewer =>
    induction names generalizing d e with
    | nil =>
      rw [walk_nil, walk_nil]
      exact .found paired
    | cons name rest ih =>
      cases directory : a.isDirectory d with
      | false =>
        rw [walk_of_not_directory directory,
          walk_of_not_directory ((same.isDirectory paired).symm.trans directory)]
        exact .failed
      | true =>
        rcases same.entry_cases paired name with ⟨absent, absent'⟩ | ⟨i, j, leads, leads', onward⟩
        · rw [walk_of_entry_none directory absent,
            walk_of_entry_none ((same.isDirectory paired).symm.trans directory) absent']
          split
          · exact .missing name paired
          · exact .failed
        · have sameTarget := same.target onward
          cases link : a.target i with
          | none =>
            rw [walk_of_entry leads link, walk_of_entry leads' (sameTarget.symm.trans link)]
            exact ih onward
          | some path =>
            have link' := sameTarget.symm.trans link
            cases links with
            | zero =>
              rw [walk_zero_of_link leads link, walk_zero_of_link leads' link']
              exact .failed
            | succ links =>
              rw [walk_of_link leads link, walk_of_link leads' link']
              exact fewer links (Nat.lt_succ_self _) (same.start paired path) _

theorem lookup (path : Str) : Lookup.Rel r (a.lookup d path) (b.lookup e path) := by
  rw [FileSystem.lookup, FileSystem.lookup]
  split
  · exact .failed
  · exact same.walk (same.start paired path) _ _

/-! ## Tests -/

theorem pathExists (path : Str) : a.pathExists d path = b.pathExists e path := by
  have leads := same.lookup paired path
  rw [FileSystem.pathExists, FileSystem.pathExists]
  generalize a.lookup d path = first at *
  generalize b.lookup e path = second at *
  cases leads <;> rfl

theorem isDirectoryPath (path : Str) : a.isDirectoryPath d path = b.isDirectoryPath e path := by
  have leads := same.lookup paired path
  rw [FileSystem.isDirectoryPath, FileSystem.isDirectoryPath]
  generalize a.lookup d path = first at *
  generalize b.lookup e path = second at *
  cases leads with
  | found onward => exact same.isDirectory onward
  | missing name onward => rfl
  | failed => rfl

theorem isExecutablePath (path : Str) :
    a.isExecutablePath d path = b.isExecutablePath e path := by
  have leads := same.lookup paired path
  rw [FileSystem.isExecutablePath, FileSystem.isExecutablePath]
  generalize a.lookup d path = first at *
  generalize b.lookup e path = second at *
  cases leads with
  | found onward =>
    dsimp only
    rw [same.kind _ _ onward]
  | missing name onward => rfl
  | failed => rfl

theorem sameFile (path other : Str) : a.sameFile d path other = b.sameFile e path other := by
  have leads := same.lookup paired path
  have leadsOther := same.lookup paired other
  rw [FileSystem.sameFile, FileSystem.sameFile]
  generalize a.lookup d path = first at *
  generalize b.lookup e path = second at *
  generalize a.lookup d other = third at *
  generalize b.lookup e other = fourth at *
  cases leads with
  | @found i j onward =>
    cases leadsOther with
    | @found i' j' onward' => exact decide_eq_decide.mpr (same.single i j i' j' onward onward')
    | missing name onward' => rfl
    | failed => rfl
  | missing name onward => rfl
  | failed => rfl

theorem head (word : Str) : a.head d word = b.head e word := by
  have leads := same.lookup paired word
  rw [FileSystem.head, FileSystem.head]
  split
  · rfl
  · generalize a.lookup d word = first at *
    generalize b.lookup e word = second at *
    cases leads with
    | found onward =>
      dsimp only
      rw [contentOf, contentOf, same.kind _ _ onward]
    | missing name onward => rfl
    | failed => rfl

/-- `ls` sorts, so the order of the entries makes no difference. -/
theorem listed : a.listed d = b.listed e := by
  have members (name : Name) : name ∈ a.names d ↔ name ∈ b.names e := by
    rw [mem_names_iff, mem_names_iff]
    rcases same.entry_cases paired name with ⟨absent, absent'⟩ | ⟨i, j, leads, leads', -⟩
    · simp [absent, absent']
    · simp [leads, leads']
  have names : (a.names d).Perm (b.names e) :=
    (List.perm_ext_iff_of_nodup (nodup_names d) (nodup_names e)).mpr members
  have : Std.Total fun x y : Name => precedes x.1 y.1 = true :=
    ⟨fun x y => precedes_total x.1 y.1⟩
  have : IsTrans Name fun x y => precedes x.1 y.1 = true := ⟨fun _ _ _ => precedes_trans⟩
  apply List.Perm.eq_of_pairwise
    (fun x y _ _ forward backward => Name.ext (precedes_antisymm forward backward))
    (List.pairwise_insertionSort _ _) (List.pairwise_insertionSort _ _)
  exact (List.perm_insertionSort _ _).trans
    ((names.filter _).trans (List.perm_insertionSort _ _).symm)

/-! ## Tools -/

/-- `cd` leads to paired directories. -/
theorem cd (path : Str) : r (a.cd d path) (b.cd e path) := by
  have leads := same.lookup paired path
  rw [FileSystem.cd, FileSystem.cd]
  generalize a.lookup d path = first at *
  generalize b.lookup e path = second at *
  cases leads with
  | found onward =>
    dsimp only
    rw [same.isDirectory onward]
    split
    · exact onward
    · exact paired
  | missing name onward => exact paired
  | failed => exact paired

/-- The new inodes of a created entry are paired. -/
theorem create (directory : a.isDirectory d = true) (name : Name) (new : Leaf) :
    SameTree r (a.create d name new) (b.create e name new) := by
  have directory' := (same.isDirectory paired).symm.trans directory
  -- The new inodes are not paired yet.
  have fresh {i j : ℕ} (h : r i j) : i ≠ a.size ∧ j ≠ b.size :=
    ⟨Nat.ne_of_lt (same.inside i j h).1, Nat.ne_of_lt (same.inside i j h).2⟩
  refine ⟨fun i j => r i j ∨ i = a.size ∧ j = b.size, fun i j h => Or.inl h, ?_, ?_,
    Or.inl same.root, ?_, ?_⟩
  · rw [size_create, size_create]
    rintro i j (h | ⟨rfl, rfl⟩)
    · exact ⟨Nat.lt_succ_of_lt (same.inside i j h).1, Nat.lt_succ_of_lt (same.inside i j h).2⟩
    · exact ⟨Nat.lt_succ_self _, Nat.lt_succ_self _⟩
  · rintro i j i' j' (h | ⟨rfl, rfl⟩) (h' | ⟨rfl, rfl⟩)
    · exact same.single i j i' j' h h'
    · exact iff_of_false (fresh h).1 (fresh h).2
    · exact iff_of_false (fresh h').1.symm (fresh h').2.symm
    · exact iff_of_true rfl rfl
  · rintro i j (h | ⟨rfl, rfl⟩)
    · rw [kind_create, kind_create, if_neg (fresh h).1, if_neg (fresh h).2, same.kind i j h]
    · rw [kind_create, kind_create, if_pos rfl, if_pos rfl]
  · rintro i j (h | ⟨rfl, rfl⟩) other
    · rw [entry_create directory, entry_create directory']
      have here : (i = d ∧ other = name) ↔ (j = e ∧ other = name) :=
        and_congr_left fun _ => same.single i j d e h paired
      by_cases isNew : i = d ∧ other = name
      · rw [if_pos isNew, if_pos (here.mp isNew)]
        exact .some (Or.inr ⟨rfl, rfl⟩)
      · rw [if_neg isNew, if_neg fun new => isNew (here.mpr new)]
        rcases same.entry_cases h other with ⟨absent, absent'⟩ | ⟨k, l, leads, leads', onward⟩
        · rw [absent, absent']
          exact .none
        · rw [leads, leads']
          exact .some (Or.inl onward)
    · -- Behind the tables there are no entries.
      have beyond {fs : FileSystem} {c : ℕ} (directory : fs.isDirectory c = true) :
          (fs.create c name new).entry fs.size other = none := by
        rw [entry_create directory,
          if_neg fun here => Nat.ne_of_gt (lt_size_of_isDirectory directory) here.1]
        cases leads : fs.entry fs.size other with
        | none => rfl
        | some i =>
          exact absurd (lt_size_of_isDirectory (isDirectory_of_entry leads)) (Nat.lt_irrefl _)
      rw [beyond directory, beyond directory']
      exact .none

theorem unlink (name : Name) : Renumbered r (a.unlink d name) (b.unlink e name) where
  inside := by
    intro i j h
    rw [size_unlink, size_unlink]
    exact same.inside i j h
  single := same.single
  root := same.root
  kind := by
    intro i j h
    rw [kind_unlink, kind_unlink, same.kind i j h]
  entry := by
    intro i j h other
    rw [entry_unlink, entry_unlink]
    have here : (i = d ∧ other = name) ↔ (j = e ∧ other = name) :=
      and_congr_left fun _ => same.single i j d e h paired
    by_cases gone : i = d ∧ other = name
    · rw [if_pos gone, if_pos (here.mp gone)]
      exact .none
    · rw [if_neg gone, if_neg fun new => gone (here.mpr new)]
      exact same.entry i j h other

theorem rewrite (file : a.isDirectory d = false) (new : Leaf) :
    Renumbered r (a.rewrite d new) (b.rewrite e new) where
  inside := by
    intro i j h
    rw [size_rewrite, size_rewrite]
    exact same.inside i j h
  single := same.single
  root := same.root
  kind := by
    intro i j h
    obtain ⟨inside, inside'⟩ := same.inside d e paired
    rw [kind_rewrite inside file, kind_rewrite inside' ((same.isDirectory paired).symm.trans file)]
    by_cases here : i = d
    · rw [if_pos here, if_pos ((same.single i j d e h paired).mp here)]
    · rw [if_neg here, if_neg fun there => here ((same.single i j d e h paired).mpr there),
        same.kind i j h]
  entry := by
    intro i j h other
    rw [entry_rewrite, entry_rewrite]
    exact same.entry i j h other

theorem rm (word : Str) : Renumbered r (a.rm d word) (b.rm e word) := by
  rw [FileSystem.rm, FileSystem.rm]
  split
  · exact same
  · cases Name.ofWord word with
    | none => exact same
    | some name =>
      dsimp only
      rcases same.entry_cases paired name with ⟨absent, absent'⟩ | ⟨i, j, leads, leads', onward⟩
      · rw [absent, absent']
        exact same
      · rw [leads, leads']
        dsimp only
        rw [same.isDirectory onward]
        split
        · exact same
        · exact same.unlink paired name

theorem symlink (name : Name) (path : Str) :
    SameTree r (a.symlink d name path) (b.symlink e name path) := by
  rw [FileSystem.symlink, FileSystem.symlink]
  have free : (a.isDirectory d = true ∧ a.entry d name = none) ↔
      (b.isDirectory e = true ∧ b.entry e name = none) := by
    rw [same.isDirectory paired]
    rcases same.entry_cases paired name with ⟨absent, absent'⟩ | ⟨i, j, leads, leads', -⟩
    · simp [absent, absent']
    · simp [leads, leads']
  by_cases here : a.isDirectory d = true ∧ a.entry d name = none
  · rw [if_pos here, if_pos (free.mp here)]
    exact same.create paired here.1 name _
  · rw [if_neg here, if_neg fun there => here (free.mpr there)]
    exact same.sameTree

/-- An operand stands for the same name in paired directories. -/
theorem slot (operand : Str) :
    a.slot d operand = none ∧ b.slot e operand = none ∨
      ∃ p q name, a.slot d operand = some (p, name) ∧ b.slot e operand = some (q, name) ∧
        r p q := by
  have leads := same.walk (same.start paired operand) maxLinks (components operand).dropLast
  rw [FileSystem.slot, FileSystem.slot]
  generalize a.walk maxLinks _ _ = first at *
  generalize b.walk maxLinks _ _ = second at *
  cases (components operand).getLast? with
  | none => exact Or.inl ⟨rfl, rfl⟩
  | some name =>
    cases leads with
    | found onward => exact Or.inr ⟨_, _, name, rfl, rfl, onward⟩
    | missing other onward => exact Or.inl ⟨rfl, rfl⟩
    | failed => exact Or.inl ⟨rfl, rfl⟩

theorem ln (path : Str) (base : Name) (operand : Str) :
    SameTree r (a.ln d path base operand) (b.ln e path base operand) := by
  rw [FileSystem.ln, FileSystem.ln, same.isDirectoryPath paired]
  split
  · exact same.sameTree
  · split
    · have leads := same.lookup paired operand
      generalize a.lookup d operand = first at *
      generalize b.lookup e operand = second at *
      cases leads with
      | found onward => exact same.symlink onward base path
      | missing name onward => exact same.sameTree
      | failed => exact same.sameTree
    · rcases same.slot paired operand with ⟨none, none'⟩ | ⟨p, q, name, some, some', onward⟩
      · rw [none, none']
        exact same.sameTree
      · rw [some, some']
        exact same.symlink onward name path

/-- A redirection fails in both, or writes the same in both. -/
theorem redirect (word text : Str) :
    a.redirect d word text = none ∧ b.redirect e word text = none ∨
      ∃ a' b', a.redirect d word text = some a' ∧ b.redirect e word text = some b' ∧
        SameTree r a' b' := by
  have leads := same.lookup paired word
  rw [FileSystem.redirect, FileSystem.redirect]
  have directory {p : ℕ} {name : Name} (missing : a.lookup d word = .missing p name) :
      a.isDirectory p = true := by
    rw [FileSystem.lookup] at missing
    split at missing
    · exact absurd missing (by simp)
    · exact (walk_missing missing).1
  generalize a.lookup d word = first at *
  generalize b.lookup e word = second at *
  cases leads with
  | @found i j onward =>
    dsimp only
    rw [← same.kind i j onward]
    cases known : a.kind i with
    | none => exact Or.inl ⟨rfl, rfl⟩
    | some kind =>
      cases kind with
      | file executable content =>
        have file : a.isDirectory i = false := by simp [FileSystem.isDirectory, known]
        exact Or.inr ⟨_, _, rfl, rfl, (same.rewrite onward file _).sameTree⟩
      | directory writable => exact Or.inl ⟨rfl, rfl⟩
      | symlink path => exact Or.inl ⟨rfl, rfl⟩
  | missing name onward =>
    exact Or.inr ⟨_, _, rfl, rfl, same.create onward (directory rfl) name _⟩
  | failed => exact Or.inl ⟨rfl, rfl⟩

theorem chmodExec (word : Str) : Renumbered r (a.chmodExec d word) (b.chmodExec e word) := by
  have leads := same.lookup paired word
  rw [FileSystem.chmodExec, FileSystem.chmodExec]
  split
  · exact same
  · generalize a.lookup d word = first at *
    generalize b.lookup e word = second at *
    cases leads with
    | @found i j onward =>
      dsimp only
      rw [← same.kind i j onward]
      cases known : a.kind i with
      | none => exact same
      | some kind =>
        cases kind with
        | file executable content =>
          have file : a.isDirectory i = false := by simp [FileSystem.isDirectory, known]
          exact same.rewrite onward file _
        | directory writable => exact same
        | symlink path => exact same
    | missing name onward => exact same
    | failed => exact same

theorem cp (directory : a.isDirectory d = true) (name : Name) (content : Str) :
    SameTree r (a.cp d name content) (b.cp e name content) := by
  have leads := same.lookup paired name.1
  have directory' := (same.isDirectory paired).symm.trans directory
  -- Without a file, the entry is made anew.
  have fresh : SameTree r
      (if a.entry d name = none then a.create d name (.file true content)
        else (a.unlink d name).create d name (.file true content))
      (if b.entry e name = none then b.create e name (.file true content)
        else (b.unlink e name).create e name (.file true content)) := by
    rcases same.entry_cases paired name with ⟨absent, absent'⟩ | ⟨i, j, entry, entry', -⟩
    · rw [if_pos absent, if_pos absent']
      exact same.create paired directory name _
    · rw [if_neg (by simp [entry]), if_neg (by simp [entry'])]
      refine (same.unlink paired name).create paired ?_ name _
      rw [FileSystem.isDirectory, kind_unlink]
      exact directory
  rw [FileSystem.cp, FileSystem.cp]
  generalize a.lookup d name.1 = first at *
  generalize b.lookup e name.1 = second at *
  cases leads with
  | @found i j onward =>
    dsimp only
    rw [← same.kind i j onward]
    cases known : a.kind i with
    | none => exact same.sameTree
    | some kind =>
      cases kind with
      | file executable old =>
        have file : a.isDirectory i = false := by simp [FileSystem.isDirectory, known]
        exact (same.rewrite onward file _).sameTree
      | directory writable => exact same.sameTree
      | symlink path => exact same.sameTree
  | missing other onward => exact fresh
  | failed => exact fresh

end Renumbered

end FileSystem

end BbBot.Unix
