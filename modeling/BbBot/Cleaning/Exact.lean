/-
# What a visit removes

For names that the shell takes as they are, the words of the loop are the listed
names themselves. When the condition holds of exactly some of them, whatever the
loop has deleted so far, the visit removes those entries and counts them.
-/

import BbBot.Cleaning.Loop

namespace BbBot.Cleaning

open BbBot.Unix BbBot.Unix.FileSystem

/-- A name that is one word for the shell and an operand for `[`. -/
def Plain (name : Name) : Prop := Unsplit name.1 ∧ Literal name.1 ∧ name.1 ∉ testOperators

instance (name : Name) : Decidable (Plain name) :=
  inferInstanceAs (Decidable (Unsplit name.1 ∧ Literal name.1 ∧ name.1 ∉ testOperators))

theorem Plain.ordinary {name : Name} (plain : Plain name) : Ordinary name := by
  refine ⟨plain.2.1, fun k member => ?_⟩
  rw [fields_unsplit plain.1, List.mem_singleton] at member
  exact member ▸ plain.2.2

/-- The names a visit looks at. -/
def visitedNames (fs : FileSystem) (d : ℕ) : List Name :=
  (fs.listed d).filter fun name => ¬ busybox.1 <:+: name.1

theorem mem_visitedNames_iff {fs : FileSystem} {d : ℕ} {name : Name} :
    name ∈ visitedNames fs d ↔
      name ∈ fs.names d ∧ name.isHidden = false ∧ ¬ busybox.1 <:+: name.1 := by
  simp [visitedNames, mem_listed_iff, and_assoc]

theorem nodup_visitedNames (fs : FileSystem) (d : ℕ) : (visitedNames fs d).Nodup :=
  List.Nodup.filter _ ((List.perm_insertionSort _ _).nodup_iff.mpr
    (List.Nodup.filter _ (nodup_names d)))

/-- The words of the loop are the listed names without `busybox` in them. -/
theorem cleanWords_eq {fs : FileSystem} {d : ℕ} (plain : ∀ name ∈ fs.names d, Plain name) :
    cleanWords fs d = (visitedNames fs d).map Name.word := by
  have listed {name : Name} (member : name ∈ fs.listed d) : Plain name :=
    plain name (mem_listed_iff.mp member).1
  have single : ∀ line ∈ (fs.listed d).map Name.word, '\n' ∉ line := by
    intro line member newline
    obtain ⟨name, inside, rfl⟩ := List.mem_map.mp member
    exact absurd ((listed inside).1.2 _ newline) (by decide)
  have unsplit : ∀ line ∈ (visitedNames fs d).map Name.word, Unsplit line := by
    intro line member
    obtain ⟨name, inside, rfl⟩ := List.mem_map.mp member
    exact (listed (List.mem_filter.mp inside).1).1
  -- Each line is one name, so `grep -v` drops names and not parts of them.
  have kept : ((fs.listed d).map Name.word).filter (fun line => ¬ busybox.1 <:+: line) =
      (visitedNames fs d).map Name.word := by
    rw [List.filter_map]
    rfl
  rw [cleanWords, grepV, ls, inputLines_output single, kept, fields_output unsplit]
  have expanded : ∀ word ∈ (visitedNames fs d).map Name.word, fs.expand d word = [word] := by
    intro word member
    obtain ⟨name, inside, rfl⟩ := List.mem_map.mp member
    exact fs.expand_literal d (listed (List.mem_filter.mp inside).1).2.1
  rw [List.flatMap_congr expanded]
  simp

section Steps

variable (odd : FileSystem → ℕ → Str → Bool) (dir : Str) {full : FileSystem} {d : ℕ}

/-- The loop over distinct names, when the condition agrees with `removable` as
long as the name is there and only removable names are gone. -/
theorem cleanSteps_exact {removable : Name → Bool} {names : List Name} (nodup : names.Nodup)
    (test : ∀ current, Trimmed (fun e n => e = d ∧ removable n = true) full current →
      ∀ name ∈ names, current.entry d name = full.entry d name →
        cleanTest odd current d dir name.1 = removable name)
    (operand : ∀ name ∈ names, removable name = true → isOption name.1 = false ∧
      ∃ i, full.entry d name = some i ∧ full.isDirectory i = false)
    (state : FileSystem × ℕ)
    (trimmed : Trimmed (fun e n => e = d ∧ removable n = true) full state.1)
    (present : ∀ name ∈ names, state.1.entry d name = full.entry d name) :
    ∃ cleaned, (names.map Name.word).foldl (cleanStep odd d dir) state =
        (cleaned, state.2 + names.countP removable) ∧
      Trimmed (fun e n => e = d ∧ removable n = true) full cleaned ∧ Extends cleaned state.1 ∧
      ∀ name ∈ names, removable name = true → cleaned.entry d name = none := by
  -- Along the words: removable names in front are gone, the others and all later ones are there.
  induction names generalizing state with
  | nil => exact ⟨state.1, rfl, trimmed, Extends.refl _, by simp⟩
  | cons name names ih =>
    obtain ⟨fresh, nodup⟩ := List.nodup_cons.mp nodup
    have condition := test state.1 trimmed name (by simp) (present name (by simp))
    have rest := ih nodup
      (fun current h other member => test current h other (by simp [member]))
      (fun other member => operand other (by simp [member]))
    rw [List.map_cons, List.foldl_cons]
    cases removed : removable name with
    | false =>
      have step : cleanStep odd d dir state name.1 = state := by
        rw [cleanStep, condition, removed]
        rfl
      obtain ⟨cleaned, result, onlyThese, fewer, gone⟩ :=
        rest state trimmed fun other member => present other (by simp [member])
      refine ⟨cleaned, ?_, onlyThese, fewer, fun other member isRemovable => ?_⟩
      · rw [step, result, List.countP_cons_of_neg (by simp [removed])]
      · rcases List.mem_cons.mp member with rfl | later
        · rw [removed] at isRemovable
          exact absurd isRemovable (by simp)
        · exact gone other later isRemovable
    | true =>
      obtain ⟨notOption, i, leads, notDirectory⟩ := operand name (by simp) removed
      -- `rm` takes the word for the name itself, which leads to no directory.
      have unlinked : state.1.rm d name.1 = state.1.unlink d name :=
        rm_name notOption ((present name (by simp)).trans leads)
          (trimmed.isDirectory_eq i ▸ notDirectory)
      have step : cleanStep odd d dir state name.1 = (state.1.unlink d name, state.2 + 1) := by
        rw [cleanStep, condition, removed, unlinked]
        rfl
      -- The names are distinct, so the later ones keep their entries.
      have untouched : ∀ other ∈ names,
          (state.1.unlink d name).entry d other = full.entry d other := by
        intro other member
        rw [entry_unlink, if_neg]
        · exact present other (by simp [member])
        · rintro ⟨-, rfl⟩
          exact fresh member
      obtain ⟨cleaned, result, onlyThese, fewer, gone⟩ :=
        rest (state.1.unlink d name, state.2 + 1)
          (trimmed.trans (Trimmed.unlink state.1 ⟨rfl, removed⟩)) untouched
      refine ⟨cleaned, ?_, onlyThese, fewer.trans (unlink_extends _ _ _),
        fun other member isRemovable => ?_⟩
      · rw [step, result, List.countP_cons_of_pos removed, Nat.add_assoc, Nat.add_comm 1]
      · rcases List.mem_cons.mp member with rfl | later
        · refine fewer.entry_eq_none ?_
          rw [entry_unlink, if_pos ⟨rfl, rfl⟩]
        · exact gone other later isRemovable

end Steps

/-! ## Which entries a loop can reach -/

section Reach

variable {odd : FileSystem → ℕ → Str → Bool} {initial : FileSystem} (gone : ℕ → Name → Prop)

/-- Whatever the condition says, only entries named by the words are removed. -/
theorem cleanSteps_within {d : ℕ} {dir : Str} {words : List Str}
    (allowed : ∀ name : Name, name.1 ∈ words → gone d name) {state : FileSystem × ℕ}
    (trimmed : Trimmed gone initial state.1) :
    Trimmed gone initial (words.foldl (cleanStep odd d dir) state).1 := by
  induction words generalizing state with
  | nil => exact trimmed
  | cons k words ih =>
    refine ih (fun name member => allowed name (by simp [member])) ?_
    rw [cleanStep]
    split
    · exact trimmed.trans (trimmed_rm k fun name named => allowed name (by simp [named]))
    · exact trimmed

/-- A loop removes from directories with a busybox, and there at most the words
that it reads from `ls`, the busybox and its helper. -/
theorem cleanLoop_within {dirs : List Str} (nonempty : ∀ dir ∈ dirs, dir ≠ [])
    (allowed : ∀ current, Trimmed gone initial current → ∀ e i,
      current.entry e busybox = some i → ∀ name : Name,
        name.1 ∈ cleanWords current e ∨ name = busybox ∨ name = sslHelper → gone e name)
    {state : State} (trimmed : Trimmed gone initial state.fs) :
    Trimmed gone initial (cleanLoop odd dirs state).fs := by
  induction dirs generalizing state with
  | nil => exact trimmed
  | cons dir dirs ih =>
    refine ih (fun other member => nonempty other (by simp [member])) ?_
    unfold cleanDir
    split
    · rename_i present
      obtain ⟨e, j, -, leads, entered⟩ := entered_of_present (nonempty dir (by simp)) present
      -- The busybox that lets the loop in is one that is still there.
      have here := allowed state.fs trimmed e j leads
      dsimp only
      rw [entered]
      refine ((cleanSteps_within gone (fun name member => here name (Or.inl member)) trimmed).trans
        (trimmed_rm _ fun name named => ?_)).trans (trimmed_rm _ fun name named => ?_)
      · exact here name (Or.inr (Or.inl (Name.ext named)))
      · exact here name (Or.inr (Or.inr (Name.ext named)))
    · exact trimmed

/-- A loop removes from directories with a busybox only. -/
theorem cleanLoop_busybox {dirs : List Str} (nonempty : ∀ dir ∈ dirs, dir ≠ []) (state : State) :
    Trimmed (fun e _ => ∃ i, state.fs.entry e busybox = some i) state.fs
      (cleanLoop odd dirs state).fs :=
  cleanLoop_within _ nonempty
    (fun _ trimmed _ i leads _ _ => ⟨i, trimmed.extends_.entry _ _ _ leads⟩) (Trimmed.refl _ _)

theorem kind_cleanLoop {dirs : List Str} (nonempty : ∀ dir ∈ dirs, dir ≠ []) (state : State)
    (i : ℕ) : (cleanLoop odd dirs state).fs.kind i = state.fs.kind i :=
  (cleanLoop_busybox nonempty state).kind i

variable (odd) in
theorem extends_cleanLoop {dirs : List Str} (nonempty : ∀ dir ∈ dirs, dir ≠ []) (state : State) :
    Extends (cleanLoop odd dirs state).fs state.fs :=
  (cleanLoop_busybox nonempty state).extends_

/-- A directory without a busybox keeps its entries. -/
theorem cleanLoop_entry_of_none {dirs : List Str} (nonempty : ∀ dir ∈ dirs, dir ≠ [])
    (state : State) {d : ℕ} (without : state.fs.entry d busybox = none) (name : Name) :
    (cleanLoop odd dirs state).fs.entry d name = state.fs.entry d name :=
  (cleanLoop_busybox nonempty state).entry_of_not (by simp [without])

/-- An entry that mentions busybox, and is not the busybox, is kept. -/
theorem cleanLoop_entry_of_mention {dirs : List Str} (nonempty : ∀ dir ∈ dirs, dir ≠ [])
    (state : State) {d : ℕ} (plain : ∀ name ∈ state.fs.names d, Plain name) {name : Name}
    (mention : busybox.1 <:+: name.1) (notBusybox : name ≠ busybox) (notHelper : name ≠ sslHelper) :
    (cleanLoop odd dirs state).fs.entry d name = state.fs.entry d name := by
  -- Everything else may go: only this entry has to be kept out of the words.
  refine (cleanLoop_within (fun e n => ¬ (e = d ∧ n = name)) nonempty
    (fun current trimmed e i leads n reached => ?_) (Trimmed.refl _ _)).entry_of_not (by simp)
  rintro ⟨rfl, rfl⟩
  rcases reached with word | same | same
  · have names : ∀ name ∈ current.names e, Plain name := by
      intro other member
      obtain ⟨j, there⟩ := mem_names_iff.mp member
      exact plain other (mem_names_iff.mpr ⟨j, trimmed.extends_.entry _ _ _ there⟩)
    rw [cleanWords_eq names] at word
    obtain ⟨other, visited, named⟩ := List.mem_map.mp word
    obtain rfl : other = n := Name.ext named
    exact (mem_visitedNames_iff.mp visited).2.2 mention
  · exact notBusybox same
  · exact notHelper same

/-- In the middle of a visit, everything is there that is there after it. -/
theorem cleanDir_extends {state : State} {dir : Str} {d : ℕ}
    (present : state.fs.pathExists state.cwd (inDirectory dir) = true)
    (entered : state.fs.cd state.cwd dir = d) {first rest : List Str}
    (split : cleanWords state.fs d = first ++ rest) :
    Extends (cleanDir odd state dir).fs (first.foldl (cleanStep odd d dir) (state.fs, 0)).1 := by
  -- From the middle on, nothing comes back.
  have onwards : Trimmed (fun _ _ => True) (first.foldl (cleanStep odd d dir) (state.fs, 0)).1
      (rest.foldl (cleanStep odd d dir) (first.foldl (cleanStep odd d dir) (state.fs, 0))).1 :=
    cleanSteps_within _ (fun _ _ => trivial) (Trimmed.refl _ _)
  rw [cleanDir, if_pos present]
  dsimp only
  rw [entered, cleanEntries, split, List.foldl_append]
  exact ((onwards.trans (trimmed_rm _ fun _ _ => trivial)).trans
    (trimmed_rm _ fun _ _ => trivial)).extends_

/-- A visit removes a name when the condition holds of it by then. -/
theorem cleanDir_removes {state : State} {dir : Str} {d : ℕ}
    (present : state.fs.pathExists state.cwd (inDirectory dir) = true)
    (entered : state.fs.cd state.cwd dir = d) {first rest : List Str} {name : Name}
    (split : cleanWords state.fs d = first ++ name.1 :: rest)
    (notOption : isOption name.1 = false)
    (file : ∀ i, state.fs.entry d name = some i → state.fs.isDirectory i = false)
    (test : cleanTest odd (first.foldl (cleanStep odd d dir) (state.fs, 0)).1 d dir name.1 =
      true) :
    (cleanDir odd state dir).fs.entry d name = none := by
  -- Until the word is tested, only this directory has changed.
  have reached : Trimmed (fun e _ => e = d) state.fs
      (first.foldl (cleanStep odd d dir) (state.fs, 0)).1 :=
    cleanSteps_within _ (fun _ _ => rfl) (Trimmed.refl _ _)
  have later : Extends (cleanDir odd state dir).fs
      ((first ++ [name.1]).foldl (cleanStep odd d dir) (state.fs, 0)).1 :=
    cleanDir_extends present entered (split.trans (List.append_cons ..))
  refine later.entry_eq_none ?_
  rw [List.foldl_append, List.foldl_cons, List.foldl_nil, cleanStep, if_pos test]
  dsimp only
  cases leads : (first.foldl (cleanStep odd d dir) (state.fs, 0)).1.entry d name with
  -- Another word may have removed the name already.
  | none => rw [rm_absent leads, leads]
  | some i =>
    have notDirectory := (reached.isDirectory_eq i).trans
      (file i (reached.extends_.entry _ _ _ leads))
    rw [rm_name notOption leads notDirectory, entry_unlink, if_pos ⟨rfl, rfl⟩]

/-- A visit removes the busybox. -/
theorem cleanDir_removes_busybox {state : State} {dir : Str} {d : ℕ}
    (present : state.fs.pathExists state.cwd (inDirectory dir) = true)
    (entered : state.fs.cd state.cwd dir = d)
    (file : ∀ i, state.fs.entry d busybox = some i → state.fs.isDirectory i = false) :
    (cleanDir odd state dir).fs.entry d busybox = none := by
  have reached : Trimmed (fun e _ => e = d) state.fs (cleanEntries odd state.fs d dir).1 :=
    cleanSteps_within _ (fun _ _ => rfl) (Trimmed.refl _ _)
  have removed : ((cleanEntries odd state.fs d dir).1.rm d busybox.1).entry d busybox = none := by
    cases leads : (cleanEntries odd state.fs d dir).1.entry d busybox with
    | none => rw [rm_absent leads, leads]
    | some i =>
      have notDirectory := (reached.isDirectory_eq i).trans
        (file i (reached.extends_.entry _ _ _ leads))
      rw [rm_name (by decide) leads notDirectory, entry_unlink, if_pos ⟨rfl, rfl⟩]
  rw [cleanDir, if_pos present]
  dsimp only
  rw [entered]
  exact (trimmed_rm _ fun _ _ => trivial : Trimmed (fun _ _ => True) _ _).extends_.entry_eq_none
    removed

end Reach

/-! ## The condition on links, scripts and other files -/

section Condition

variable {odd : FileSystem → ℕ → Str → Bool} {fs : FileSystem} {d bb : ℕ} {dir : Str}
  {name : Name}

theorem firstLine_shebang {dir : Str} (oneLine : '\n' ∉ dir) (rest : Str) :
    firstLine (shebang dir ++ '\n' :: rest) = shebang dir := by
  have inShebang : '\n' ∉ shebang dir := by
    rw [shebang, inDirectory]
    simp only [List.mem_append, List.mem_cons, not_or]
    exact ⟨by decide, oneLine, by decide, by decide⟩
  have single : ∀ c ∈ shebang dir, decide (c ≠ '\n') = true := by
    intro c member
    simp only [decide_eq_true_eq]
    rintro rfl
    exact inShebang member
  rw [firstLine, List.takeWhile_append_of_pos single]
  simp

/-- The condition holds of a name that is the same file as the busybox. -/
theorem cleanTest_linked (operand : name.1 ∉ testOperators) (linked : Linked fs d name) :
    cleanTest odd fs d dir name.1 = true := by
  have same : fs.sameFile d name.1 busybox.1 = true := sameFile_iff.mpr linked
  rw [cleanTest, if_neg operand, same, Bool.true_or]

/-- The condition holds of a link to the busybox. -/
theorem cleanTest_link {i : ℕ} (operand : name.1 ∉ testOperators)
    (leads : fs.entry d name = some i) (link : fs.kind i = some (.symlink busybox.1))
    (binary : fs.entry d busybox = some bb) (notLink : fs.target bb = none) :
    cleanTest odd fs d dir name.1 = true :=
  cleanTest_linked operand ⟨bb, lookup_link leads (target_eq_some_iff.mpr link) binary notLink,
    lookup_entry binary notLink⟩

/-- The condition holds of an executable script for the busybox. -/
theorem cleanTest_script {i : ℕ} {content : Str} (operand : name.1 ∉ testOperators)
    (notOption : isOption name.1 = false) (found : fs.lookup d name.1 = .found i)
    (script : fs.kind i = some (.file true content)) (first : firstLine content = shebang dir) :
    cleanTest odd fs d dir name.1 = true := by
  have executable : fs.isExecutablePath d name.1 = true := by
    simp [isExecutablePath, found, script]
  have line : fs.head d name.1 = shebang dir := by
    simp [head, notOption, found, contentOf, script, first]
  rw [cleanTest, if_neg operand, executable, line]
  simp

/-- A file that is neither the busybox nor a script for it fails the condition. -/
theorem cleanTest_foreign {j : ℕ} (operand : name.1 ∉ testOperators)
    (found : fs.lookup d name.1 = .found j) (other : fs.lookup d busybox.1 ≠ .found j)
    (notScript : ∀ content, fs.kind j = some (.file true content) →
      firstLine content ≠ shebang dir) :
    cleanTest odd fs d dir name.1 = false := by
  -- What the condition holds of matches, and this does not.
  rw [Bool.eq_false_iff]
  intro holds
  rcases matches_of_cleanTest operand holds with
    ⟨i, leads, same⟩ | ⟨i, content, leads, script, first⟩
  · obtain rfl : j = i := Lookup.found.inj (found.symm.trans leads)
    exact other same
  · obtain rfl : j = i := Lookup.found.inj (found.symm.trans leads)
    exact notScript content script first

/-- A name under which nothing is found fails the condition. -/
theorem cleanTest_dangling (operand : name.1 ∉ testOperators)
    (dangling : ∀ j, fs.lookup d name.1 ≠ .found j) :
    cleanTest odd fs d dir name.1 = false := by
  rw [Bool.eq_false_iff]
  intro holds
  rcases matches_of_cleanTest operand holds with ⟨i, leads, -⟩ | ⟨i, -, leads, -⟩ <;>
  exact dangling i leads

end Condition

/-! ## One visit -/

/-- A directory in which the `created` names are applets of its busybox. Every other
name leads nowhere, or to a file that was there before the applets, in `base`, and
is foreign. -/
structure Occupied (dir : Str) (d bb : ℕ) (created : Name → Bool) (base full : FileSystem) :
    Prop where
  grows : Within base full
  fresh : ∀ name, created name = true → base.entry d name = none
  binary : full.entry d busybox = some bb
  notLink : full.target bb = none
  notDirectory : full.isDirectory bb = false
  helper : ∃ i, base.entry d sslHelper = some i ∧ full.isDirectory i = false
  plain : ∀ name ∈ full.names d, Plain name
  applets : ∀ name, created name = true → name.isHidden = false ∧ isOption name.1 = false ∧
    ¬ busybox.1 <:+: name.1 ∧ ∃ i, full.entry d name = some i ∧
      (full.kind i = some (.symlink busybox.1) ∨
        ∃ rest, full.kind i = some (.file true (shebang dir ++ '\n' :: rest)))
  foreign : ∀ name ∈ visitedNames full d, created name = false →
    (∃ j, base.lookup d name.1 = .found j ∧ j ≠ bb ∧
      ∀ content, full.kind j = some (.file true content) → firstLine content ≠ shebang dir) ∨
    ∀ j, full.lookup d name.1 ≠ .found j

namespace Occupied

variable {odd : FileSystem → ℕ → Str → Bool} {dir : Str} {d bb : ℕ} {created : Name → Bool}
  {base full : FileSystem} (occupied : Occupied dir d bb created base full)

include occupied

/-- While only applets are gone, everything from before the applets is in place. -/
theorem within_of_trimmed {current : FileSystem}
    (trimmed : Trimmed (fun e n => e = d ∧ created n = true) full current) :
    Within base current := by
  refine ⟨trimmed.size_eq ▸ occupied.grows.size, fun e name i leads => ?_, fun i old => ?_⟩
  · rw [trimmed.entry_of_not, occupied.grows.entry _ _ _ leads]
    rintro ⟨rfl, applet⟩
    rw [occupied.fresh name applet] at leads
    exact absurd leads (by simp)
  · rw [target, trimmed.kind]
    exact occupied.grows.target i old

theorem binary_of_trimmed {current : FileSystem}
    (trimmed : Trimmed (fun e n => e = d ∧ created n = true) full current) :
    current.entry d busybox = some bb := by
  rw [trimmed.entry_of_not, occupied.binary]
  rintro ⟨-, applet⟩
  exact (occupied.applets busybox applet).2.2.1 (List.infix_refl _)

/-- The condition singles out the applets, in every state of the loop. -/
theorem cleanTest_eq (oneLine : '\n' ∉ dir) {current : FileSystem}
    (trimmed : Trimmed (fun e n => e = d ∧ created n = true) full current) {name : Name}
    (member : name ∈ visitedNames full d)
    (present : current.entry d name = full.entry d name) :
    cleanTest odd current d dir name.1 = created name := by
  have binary := occupied.binary_of_trimmed trimmed
  have notLink : current.target bb = none := by
    rw [target, trimmed.kind]
    exact occupied.notLink
  have operand := (occupied.plain name (mem_visitedNames_iff.mp member).1).2.2
  cases applet : created name with
  | true =>
    obtain ⟨-, notOption, -, i, leads, link | ⟨rest, script⟩⟩ := occupied.applets name applet
    · exact cleanTest_link operand (present.trans leads) ((trimmed.kind i).trans link) binary
        notLink
    · have kind := (trimmed.kind i).trans script
      refine cleanTest_script operand notOption (lookup_entry (present.trans leads) ?_) kind
        (firstLine_shebang oneLine rest)
      simp [target, kind]
  | false =>
    rcases occupied.foreign name member applet with ⟨j, found, other, notScript⟩ | dangling
    · refine cleanTest_foreign operand ((occupied.within_of_trimmed trimmed).lookup_found found)
        ?_ fun content kind => notScript content (trimmed.kind j ▸ kind)
      rw [lookup_entry binary notLink]
      exact fun same => other (Lookup.found.inj same).symm
    · exact cleanTest_dangling operand fun j found =>
        dangling j (trimmed.extends_.lookup_found found)

theorem countP_visitedNames :
    (visitedNames full d).countP created = (full.names d).countP created := by
  rw [visitedNames, listed, List.countP_filter, (List.perm_insertionSort _ _).countP_eq,
    List.countP_filter]
  refine List.countP_congr fun name _ => ?_
  constructor
  · intro holds
    simp only [Bool.and_eq_true] at holds
    exact holds.1.1
  · intro applet
    obtain ⟨shown, -, outside, -⟩ := occupied.applets name applet
    simp [applet, shown, outside]

/-- The visit removes the applets, the busybox and its helper, and nothing else. -/
theorem cleanDir_eq (odd : FileSystem → ℕ → Str → Bool) (oneLine : '\n' ∉ dir) {cwd : ℕ}
    (total : ℕ) (visited : full.lookup cwd dir = .found d) :
    ∃ cleaned, cleanDir odd ⟨full, cwd, total⟩ dir =
        ⟨cleaned, d, total + (full.names d).countP created⟩ ∧
      (∀ i, cleaned.kind i = full.kind i) ∧
      ∀ e name, cleaned.entry e name =
        if e = d ∧ (created name = true ∨ name = busybox ∨ name = sslHelper) then none
        else full.entry e name := by
  have present : full.pathExists cwd (inDirectory dir) = true :=
    pathExists_iff.mpr ⟨bb, lookup_slash_entry visited occupied.binary occupied.notLink⟩
  have entered : full.cd cwd dir = d :=
    cd_of_found visited (isDirectory_of_entry occupied.binary)
  obtain ⟨cleaned, result, trimmed, -, gone⟩ := cleanSteps_exact odd dir
    (nodup_visitedNames full d)
    (fun current trimmed name member still => occupied.cleanTest_eq oneLine trimmed member still)
    (fun name _ applet => by
      obtain ⟨-, notOption, -, i, leads, link | ⟨rest, script⟩⟩ := occupied.applets name applet
      · exact ⟨notOption, i, leads, by simp [isDirectory, link]⟩
      · exact ⟨notOption, i, leads, by simp [isDirectory, script]⟩)
    (full, 0) (Trimmed.refl _ _) (fun _ _ => rfl)
  obtain ⟨hh, helper, helperFile⟩ := occupied.helper
  -- The helper was there before the applets, so it is none of them.
  have noApplet : created sslHelper = false := by
    by_contra applet
    rw [occupied.fresh sslHelper (by simpa using applet)] at helper
    exact absurd helper (by simp)
  -- The two removals after the loop, on the directory that it has left.
  have removeBinary : cleaned.rm d busybox.1 = cleaned.unlink d busybox :=
    rm_name (by decide) (occupied.binary_of_trimmed trimmed)
      (trimmed.isDirectory_eq bb ▸ occupied.notDirectory)
  have removeHelper : (cleaned.unlink d busybox).rm d sslHelper.1 =
      (cleaned.unlink d busybox).unlink d sslHelper := by
    refine rm_name (i := hh) (by decide) ?_ ?_
    · rw [entry_unlink, if_neg fun same => sslHelper_ne_busybox same.2,
        trimmed.entry_of_not (by simp [noApplet]), occupied.grows.entry _ _ _ helper]
    · rw [isDirectory, kind_unlink, trimmed.kind]
      exact helperFile
  refine ⟨(cleaned.unlink d busybox).unlink d sslHelper, ?_, fun i => ?_, fun e name => ?_⟩
  · rw [cleanDir, if_pos present]
    dsimp only
    rw [entered, cleanEntries, cleanWords_eq occupied.plain, result, removeBinary, removeHelper,
      occupied.countP_visitedNames, Nat.zero_add]
  · rw [kind_unlink, kind_unlink, trimmed.kind]
  · rw [entry_unlink, entry_unlink]
    -- Entry by entry: the helper, the busybox, an applet, or something else.
    by_cases here : e = d
    · subst here
      by_cases isHelper : name = sslHelper
      · simp [isHelper]
      by_cases isBinary : name = busybox
      · simp [isBinary]
      cases applet : created name with
      | true =>
        obtain ⟨shown, -, outside, i, leads, -⟩ := occupied.applets name applet
        have removed := gone name (mem_visitedNames_iff.mpr
          ⟨mem_names_iff.mpr ⟨i, leads⟩, shown, outside⟩) applet
        simp [isHelper, isBinary, removed]
      | false =>
        have kept : cleaned.entry e name = full.entry e name :=
          trimmed.entry_of_not (by simp [applet])
        simp [isHelper, isBinary, kept]
    · have kept : cleaned.entry e name = full.entry e name :=
        trimmed.entry_of_not fun applet => here applet.1
      simp [here, kept]

end Occupied

end BbBot.Cleaning
