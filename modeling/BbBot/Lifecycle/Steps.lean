/-
# The steps of the installers

Copying the two binaries, setting up an applet and cleaning a directory keep a
device as it was apart from what was added, also when the installer is killed on
the way. A killed copy or round leaves a state that the next step could have
started from. Two moments are different: between the removal of the busybox and
that of its helper, and between writing a script and making it executable.
-/

import BbBot.Lifecycle.Places

namespace BbBot.Lifecycle

open BbBot.Unix BbBot.Unix.FileSystem BbBot.Cleaning BbBot.Applets

/-- The round of an applet, without a link, that is killed before `set_permissions`. -/
def unfinishedApplet (dir : Str) (d : ℕ) (fs : FileSystem) (applet : Str) : FileSystem :=
  if fs.pathExists d applet then fs else (fs.redirect d applet (wrapper dir)).getD fs

/-- A visit that is killed: in the loop, after some of the words, or behind it, when
`rm` has removed the busybox and not yet the helper. -/
def killedVisit (odd : FileSystem → ℕ → Str → Bool) (words : Option ℕ) (state : State)
    (dir : Str) : FileSystem :=
  if state.fs.pathExists state.cwd (inDirectory dir) then
    let d := state.fs.cd state.cwd dir
    match words with
    | some count =>
      (((cleanWords state.fs d).take count).foldl (cleanStep odd d dir) (state.fs, 0)).1
    | none => (cleanEntries odd state.fs d dir).1.rm d busybox.1
  else state.fs

/-- Copying over a file writes it. -/
theorem cp_taken {fs : FileSystem} {d i : ℕ} {name : Name} {executable : Bool} {old : Str}
    (content : Str) (leads : fs.entry d name = some i)
    (known : fs.kind i = some (.file executable old)) :
    fs.cp d name content = fs.rewrite i (.file true content) := by
  have found := lookup_entry leads (by simp [target, known])
  simp [cp, found, known]

namespace Kept

variable {killed : Prop} {places : List Place} {applets : List Name} {base fs : FileSystem}
  (kept : Kept killed places applets base fs) (untouched : Untouched places applets base)
  {p : Place} (member : p ∈ places)

include kept untouched member

/-! ## Installing -/

theorem isDirectory_place : fs.isDirectory p.inode = true :=
  kept.isDirectory (untouched.directory p member)

/-- The busybox of a place is a file and a new inode. -/
theorem program {bb : ℕ} (present : fs.entry p.inode busybox = some bb) :
    base.size ≤ bb ∧ ∃ text, fs.kind bb = some (.file true text) := by
  obtain ⟨k, added⟩ := kept.added_of_entry untouched.distinct member
    (untouched.bare p member).1 present
  obtain ⟨text, rfl⟩ := added.ours.binary (Or.inl rfl)
  exact ⟨added.new, text, added.known⟩

/-- One of the two binaries is copied, first the busybox. -/
theorem copy {name : Name} {text : Str} (which : name = busybox ∨ name = sslHelper)
    (ours : Ours killed applets p.dir name (.file true text))
    (present : name = busybox ∨ ∃ bb, fs.entry p.inode busybox = some bb) :
    Kept killed places applets base (fs.cp p.inode name text) ∧
      (∃ i, (fs.cp p.inode name text).entry p.inode name = some i) ∧
      ∀ other i, fs.entry p.inode other = some i →
        (fs.cp p.inode name text).entry p.inode other = some i := by
  have directory := kept.isDirectory_place untouched member
  have free : base.entry p.inode name = none := by
    rcases which with rfl | rfl
    · exact (untouched.bare p member).1
    · exact (untouched.bare p member).2
  cases now : fs.entry p.inode name with
  | none =>
    rw [cp_absent text directory now]
    refine ⟨kept.create member directory now ours present, ⟨fs.size, ?_⟩, fun other i leads => ?_⟩
    · rw [entry_create directory, if_pos ⟨rfl, rfl⟩]
    · exact (extends_create directory now _).entry _ _ _ leads
  | some i =>
    obtain ⟨k, added⟩ := kept.added_of_entry untouched.distinct member free now
    obtain ⟨old, rfl⟩ := added.ours.binary which
    rw [cp_taken text now added.known]
    refine ⟨kept.rewrite member added ours ?_, ⟨i, ?_⟩, fun other j leads => ?_⟩
    · rcases present with rfl | present
      · exact ⟨i, now⟩
      · exact present
    · rw [entry_rewrite, now]
    · rw [entry_rewrite, leads]

/-- A taken applet name of a place with a busybox leads to a file. -/
theorem applet_found {bb : ℕ} (present : fs.entry p.inode busybox = some bb) {applet : Name}
    (isApplet : applet ∈ applets) {i : ℕ} (leads : fs.entry p.inode applet = some i) :
    ∃ j, fs.lookup p.inode applet.1 = .found j ∧ fs.isDirectory j = false := by
  cases first : base.entry p.inode applet with
  | some j =>
    -- The file was there at first.
    obtain ⟨-, j, found, -⟩ := untouched.foreign p member applet (mem_names_iff.mpr ⟨_, first⟩)
    refine ⟨j, kept.within.lookup_found found, ?_⟩
    have inside := lt_size_of_isDirectory (untouched.directory p member)
    rw [kept.isDirectory_eq (lookup_found_lt inside found)]
    exact untouched.files p member applet isApplet j found
  | none =>
    obtain ⟨k, added⟩ := kept.added_of_entry untouched.distinct member first leads
    obtain ⟨-, text, program⟩ := kept.program untouched member present
    cases link : fs.target i with
    | none => exact ⟨i, lookup_entry leads link, added.isDirectory⟩
    | some path =>
      have known := added.known
      rw [target_eq_some_iff.mp link] at known
      obtain rfl := Option.some.inj known
      rw [added.ours.target] at link
      exact ⟨bb, lookup_link leads link present (by simp [target, program]),
        by simp [FileSystem.isDirectory, program]⟩

/-- One applet of a place that has both binaries. -/
theorem applet {bb hh : ℕ} (present : fs.entry p.inode busybox = some bb)
    (helper : fs.entry p.inode sslHelper = some hh) {applet : Name}
    (isApplet : applet ∈ applets) (works : Bool) :
    ∃ after, setupApplet p.dir p.inode fs (applet.1, works) = .ok after ∧
      Kept killed places applets base after ∧ Extends fs after := by
  have word := (untouched.words applet isApplet).2.2.1
  cases now : fs.entry p.inode applet with
  | none =>
    obtain ⟨-, text, program⟩ := kept.program untouched member present
    have directory := isDirectory_of_entry present
    have notProgram : applet ≠ busybox := by
      rintro rfl
      rw [present] at now
      exact absurd now (by simp)
    have notCompanion : applet ≠ sslHelper := by
      rintro rfl
      rw [helper] at now
      exact absurd now (by simp)
    refine ⟨_, setupApplet_absent works word now present (by simp [target, program]),
      kept.create member directory now ?_ (Or.inr ⟨bb, present⟩),
      extends_create directory now _⟩
    cases works with
    | true => exact .link applet isApplet notProgram notCompanion
    | false => exact .script applet true isApplet notProgram notCompanion (Or.inl rfl)
  | some i =>
    obtain ⟨j, found, file⟩ := kept.applet_found untouched member present isApplet now
    rw [lookup_name] at found
    exact ⟨fs, installApplet_taken _ _ (Operand.ofName fs p.inode word) works now found file,
      kept, Extends.refl fs⟩

/-- An applet whose script is not made executable any more. -/
theorem unfinished (wasKilled : killed) {bb hh : ℕ}
    (present : fs.entry p.inode busybox = some bb)
    (helper : fs.entry p.inode sslHelper = some hh) {applet : Name}
    (isApplet : applet ∈ applets) :
    Kept killed places applets base (unfinishedApplet p.dir p.inode fs applet.1) := by
  cases now : fs.entry p.inode applet with
  | none =>
    have directory := isDirectory_of_entry present
    have missing := lookup_absent directory now
    have same : unfinishedApplet p.dir p.inode fs applet.1 =
        fs.create p.inode applet (.file false (wrapper p.dir)) := by
      simp [unfinishedApplet, pathExists, redirect, missing]
    rw [same]
    refine kept.create member directory now ?_ (Or.inr ⟨bb, present⟩)
    refine .script applet false isApplet ?_ ?_ (Or.inr wasKilled)
    · rintro rfl
      rw [present] at now
      exact absurd now (by simp)
    · rintro rfl
      rw [helper] at now
      exact absurd now (by simp)
  | some i =>
    obtain ⟨j, found, -⟩ := kept.applet_found untouched member present isApplet now
    rw [unfinishedApplet, if_pos (pathExists_iff.mpr ⟨j, found⟩)]
    exact kept

end Kept

/-! ## Cleaning -/

/-- The entries that a visit to a place removes in its loop: those that were added,
apart from the two binaries and scripts that are not executable. -/
def removable (base fs : FileSystem) (p : Place) (name : Name) : Bool :=
  (base.entry p.inode name).isNone && name != busybox && name != sslHelper &&
    match fs.entry p.inode name with
    | some i => fs.kind i != some (.file false (wrapper p.dir))
    | none => false

theorem removable_iff {base fs : FileSystem} {p : Place} {name : Name} :
    removable base fs p name = true ↔ base.entry p.inode name = none ∧ name ≠ busybox ∧
      name ≠ sslHelper ∧ ∃ i, fs.entry p.inode name = some i ∧
        fs.kind i ≠ some (.file false (wrapper p.dir)) := by
  cases leads : fs.entry p.inode name <;> simp [removable, leads, and_assoc]

namespace Kept

variable {killed : Prop} {places : List Place} {applets : List Name} {base fs : FileSystem}
  (kept : Kept killed places applets base fs) (untouched : Untouched places applets base)
  {p : Place} (member : p ∈ places)

include kept untouched member

/-- Every name of a place is one plain word. -/
theorem plain {name : Name} (isName : name ∈ fs.names p.inode) : Plain name := by
  obtain ⟨i, leads⟩ := mem_names_iff.mp isName
  cases first : base.entry p.inode name with
  | some j => exact (untouched.foreign p member name (mem_names_iff.mpr ⟨j, first⟩)).1
  | none =>
    obtain ⟨k, added⟩ := kept.added_of_entry untouched.distinct member first leads
    cases added.ours with
    | program text => decide
    | companion text foreign => decide
    | link name applet notProgram notCompanion => exact (untouched.words name applet).1
    | script name executable applet notProgram notCompanion finished =>
      exact (untouched.words name applet).1

/-- What a visit removes in its loop are applets. -/
theorem applet_of_removable {name : Name} (isRemovable : removable base fs p name = true) :
    name ∈ applets ∧ ∃ i, fs.entry p.inode name = some i ∧
      (fs.kind i = some (.symlink busybox.1) ∨ fs.kind i = some (.file true (wrapper p.dir))) := by
  obtain ⟨free, notProgram, notCompanion, i, leads, finished⟩ := removable_iff.mp isRemovable
  obtain ⟨k, added⟩ := kept.added_of_entry untouched.distinct member free leads
  have known := added.known
  cases added.ours with
  | program text => exact absurd rfl notProgram
  | companion text foreign => exact absurd rfl notCompanion
  | link name applet _ _ => exact ⟨applet, i, leads, Or.inl known⟩
  | script name executable applet _ _ _ =>
    cases executable with
    | true => exact ⟨applet, i, leads, Or.inr known⟩
    | false => exact absurd known finished

omit untouched member in
/-- While only removable entries are gone, the first ones are in place. -/
theorem within_of_trimmed {current : FileSystem}
    (trimmed : Trimmed (fun e n => e = p.inode ∧ removable base fs p n = true) fs current) :
    Within base current := by
  refine ⟨trimmed.size_eq ▸ kept.size, fun e name i leads => ?_, fun i old => ?_⟩
  · rw [trimmed.entry_of_not, kept.within.entry _ _ _ leads]
    rintro ⟨rfl, isRemovable⟩
    rw [(removable_iff.mp isRemovable).1] at leads
    exact absurd leads (by simp)
  · rw [target, target, trimmed.kind, kept.kind i old]

/-- The condition of the loop singles out the removable entries, whatever it has
removed so far. -/
theorem cleanTest_eq (odd : FileSystem → ℕ → Str → Bool) {bb : ℕ}
    (present : fs.entry p.inode busybox = some bb) {current : FileSystem}
    (trimmed : Trimmed (fun e n => e = p.inode ∧ removable base fs p n = true) fs current)
    {name : Name} (visits : name ∈ visitedNames fs p.inode)
    (still : current.entry p.inode name = fs.entry p.inode name) :
    cleanTest odd current p.inode p.dir name.1 = removable base fs p name := by
  obtain ⟨isName, -, outside⟩ := mem_visitedNames_iff.mp visits
  have operand := (kept.plain untouched member isName).2.2
  obtain ⟨new, text, program⟩ := kept.program untouched member present
  have binary : current.entry p.inode busybox = some bb := by
    rw [trimmed.entry_of_not, present]
    rintro ⟨-, isRemovable⟩
    exact (removable_iff.mp isRemovable).2.1 rfl
  have notLink : current.target bb = none := by simp [target, trimmed.kind, program]
  cases isRemovable : removable base fs p name with
  | true =>
    obtain ⟨isApplet, i, leads, link | script⟩ :=
      kept.applet_of_removable untouched member isRemovable
    · exact cleanTest_link operand (still.trans leads) ((trimmed.kind i).trans link) binary notLink
    · have known := (trimmed.kind i).trans script
      have word := (untouched.words name isApplet).2.2.1
      refine cleanTest_script operand word (lookup_entry (still.trans leads) ?_) known
        (firstLine_shebang (untouched.oneLine p member) [])
      simp [target, known]
  | false =>
    cases first : base.entry p.inode name with
    | some i =>
      -- The name was there at first, and leads to an older inode than the busybox.
      obtain ⟨-, j, found, notScript⟩ := untouched.foreign p member name
        (mem_names_iff.mpr ⟨i, first⟩)
      have inside := lt_size_of_isDirectory (untouched.directory p member)
      have old := lookup_found_lt inside found
      refine cleanTest_foreign operand
        ((kept.within_of_trimmed trimmed).lookup_found found) ?_ ?_
      · rw [lookup_entry binary notLink]
        exact fun same => Nat.not_le_of_lt old (Lookup.found.inj same ▸ new)
      · intro content known
        rw [trimmed.kind, kept.kind j old] at known
        exact notScript content known
    | none =>
      obtain ⟨i, leads⟩ := mem_names_iff.mp isName
      obtain ⟨k, added⟩ := kept.added_of_entry untouched.distinct member first leads
      have other (notProgram : name ≠ busybox) : current.lookup p.inode busybox.1 ≠ .found i := by
        rw [lookup_entry binary notLink]
        rintro ⟨⟩
        exact notProgram (kept.single _ _ _ _ _ added.new leads present).2
      have known : current.kind i = some k := (trimmed.kind i).trans added.known
      have gone : removable base fs p name = true → False := by simp [isRemovable]
      rw [removable_iff] at gone
      cases added.ours with
      | program text => exact absurd (List.infix_refl _) outside
      | companion content foreign =>
        refine cleanTest_foreign operand (lookup_entry (still.trans leads) ?_) (other ?_) ?_
        · simp [target, known]
        · exact sslHelper_ne_busybox
        · intro text same
          rw [known] at same
          obtain rfl : content = text := by simpa using same
          exact foreign
      | link name applet notProgram notCompanion =>
        refine (gone ⟨first, notProgram, notCompanion, i, leads, ?_⟩).elim
        simp [added.known]
      | script name executable applet notProgram notCompanion finished =>
        cases executable with
        | true =>
          refine (gone ⟨first, notProgram, notCompanion, i, leads, ?_⟩).elim
          simp [added.known]
        | false =>
          refine cleanTest_foreign operand (lookup_entry (still.trans leads) ?_)
            (other notProgram) ?_
          · simp [target, known]
          · intro text same
            rw [known] at same
            exact absurd same (by simp)

/-- Some words of a visit, from the first one on. -/
theorem visit_steps (odd : FileSystem → ℕ → Str → Bool) {bb : ℕ}
    (present : fs.entry p.inode busybox = some bb) {names : List Name}
    (sub : names.Sublist (visitedNames fs p.inode)) :
    ∃ cleaned count, (names.map Name.word).foldl (cleanStep odd p.inode p.dir) (fs, 0) =
        (cleaned, count) ∧
      Trimmed (fun e n => e = p.inode ∧ removable base fs p n = true) fs cleaned ∧
      ∀ name ∈ names, removable base fs p name = true → cleaned.entry p.inode name = none := by
  obtain ⟨cleaned, result, trimmed, -, gone⟩ := cleanSteps_exact odd p.dir
    ((nodup_visitedNames fs p.inode).sublist sub)
    (fun current trimmed name visits still =>
      kept.cleanTest_eq untouched member odd present trimmed (sub.subset visits) still)
    (fun name _ isRemovable => by
      obtain ⟨isApplet, i, leads, link | script⟩ :=
        kept.applet_of_removable untouched member isRemovable
      · exact ⟨(untouched.words name isApplet).2.2.1, i, leads, by simp [FileSystem.isDirectory, link]⟩
      · exact ⟨(untouched.words name isApplet).2.2.1, i, leads, by simp [FileSystem.isDirectory, script]⟩)
    (fs, 0) (Trimmed.refl _ _) (fun _ _ => rfl)
  exact ⟨cleaned, _, result, trimmed, gone⟩

/-- Removable entries of the place are gone, and nothing else. -/
theorem trim_removable {bb : ℕ} (present : fs.entry p.inode busybox = some bb)
    {cleaned : FileSystem}
    (trimmed : Trimmed (fun e n => e = p.inode ∧ removable base fs p n = true) fs cleaned) :
    Kept killed places applets base cleaned ∧ cleaned.entry p.inode busybox = some bb := by
  have still : cleaned.entry p.inode busybox = some bb := by
    rw [trimmed.entry_of_not, present]
    rintro ⟨-, isRemovable⟩
    exact (removable_iff.mp isRemovable).2.1 rfl
  refine ⟨kept.trim (fun q other => untouched.distinct q other p member) (trimmed.mono ?_) ?_,
    still⟩
  · rintro e n ⟨rfl, isRemovable⟩
    exact ⟨rfl, (removable_iff.mp isRemovable).1⟩
  · intro absent
    rw [still] at absent
    exact absurd absent (by simp)

/-- When the loop is through, the busybox goes, alone or with its helper. -/
theorem remove_program {bb : ℕ} (present : fs.entry p.inode busybox = some bb)
    {cleaned after : FileSystem}
    (trimmed : Trimmed (fun e n => e = p.inode ∧ removable base fs p n = true) fs cleaned)
    (gone : ∀ name, removable base fs p name = true → cleaned.entry p.inode name = none)
    (removed : Trimmed (fun e n => e = p.inode ∧ (n = busybox ∨ n = sslHelper)) cleaned after)
    (program : after.entry p.inode busybox = none)
    (companion : after.entry p.inode sslHelper = none ∨ killed) :
    Kept killed places applets base after := by
  obtain ⟨onlyLoop, -⟩ := kept.trim_removable untouched member present trimmed
  refine onlyLoop.trim (fun q other => untouched.distinct q other p member) (removed.mono ?_) ?_
  · rintro e n ⟨rfl, rfl | rfl⟩
    · exact ⟨rfl, (untouched.bare p member).1⟩
    · exact ⟨rfl, (untouched.bare p member).2⟩
  · intro _ name
    by_cases isProgram : name = busybox
    · subst isProgram
      exact Or.inl (program.trans (untouched.bare p member).1.symm)
    by_cases isCompanion : name = sslHelper ∧ after.entry p.inode sslHelper = none
    · obtain ⟨rfl, absent⟩ := isCompanion
      exact Or.inl (absent.trans (untouched.bare p member).2.symm)
    have same : after.entry p.inode name = cleaned.entry p.inode name := by
      rcases removed.entry p.inode name with same | ⟨absent, -, rfl | rfl⟩
      · exact same
      · exact absurd rfl isProgram
      · exact absurd ⟨rfl, absent⟩ isCompanion
    cases leads : after.entry p.inode name with
    | none =>
      refine Or.inl ?_
      cases first : base.entry p.inode name with
      | none => rfl
      | some i =>
        rw [same, onlyLoop.within.entry _ _ _ first] at leads
        exact absurd leads (by simp)
    | some i =>
      cases first : base.entry p.inode name with
      | some j =>
        refine Or.inl ?_
        rw [← leads, same, onlyLoop.within.entry _ _ _ first]
      | none =>
        -- What was added and is still there was not removable.
        obtain ⟨k, added⟩ := onlyLoop.added_of_entry untouched.distinct member first
          (same.symm.trans leads)
        have later := added.of_eq leads ((removed.kind i).trans added.known)
        have notRemovable : ¬ removable base fs p name = true := by
          intro isRemovable
          rw [same, gone name isRemovable] at leads
          exact absurd leads (by simp)
        have earlier := trimmed.extends_.entry _ _ _ added.leads
        have known := (trimmed.kind i).symm.trans added.known
        rw [removable_iff] at notRemovable
        right
        cases added.ours with
        | program text => exact absurd rfl isProgram
        | companion text foreign =>
          have holds := companion.resolve_left fun absent => isCompanion ⟨rfl, absent⟩
          exact ⟨holds, i, _, later, Or.inl rfl⟩
        | link name applet notProgram notCompanion =>
          refine absurd ⟨first, notProgram, notCompanion, i, earlier, ?_⟩ notRemovable
          simp [known]
        | script name executable applet notProgram notCompanion finished =>
          cases executable with
          | true =>
            refine absurd ⟨first, notProgram, notCompanion, i, earlier, ?_⟩ notRemovable
            simp [known]
          | false => exact ⟨finished.resolve_left (by simp), i, _, later, Or.inr rfl⟩

/-- The words of a visit are the names of the place. -/
theorem cleanWords_place : cleanWords fs p.inode = (visitedNames fs p.inode).map Name.word :=
  cleanWords_eq fun _ isName => kept.plain untouched member isName

/-- The loop of a visit that is not killed, and the busybox behind it. -/
theorem visit_loop (odd : FileSystem → ℕ → Str → Bool) {bb : ℕ}
    (present : fs.entry p.inode busybox = some bb) :
    Trimmed (fun e n => e = p.inode ∧ removable base fs p n = true) fs
        (cleanEntries odd fs p.inode p.dir).1 ∧
      (∀ name, removable base fs p name = true →
        (cleanEntries odd fs p.inode p.dir).1.entry p.inode name = none) ∧
      (cleanEntries odd fs p.inode p.dir).1.rm p.inode busybox.1 =
        (cleanEntries odd fs p.inode p.dir).1.unlink p.inode busybox := by
  obtain ⟨cleaned, count, result, trimmed, gone⟩ :=
    kept.visit_steps untouched member odd present (List.Sublist.refl _)
  obtain ⟨-, still⟩ := kept.trim_removable untouched member present trimmed
  obtain ⟨-, text, program⟩ := kept.program untouched member present
  have same : (cleanEntries odd fs p.inode p.dir).1 = cleaned := by
    rw [cleanEntries, kept.cleanWords_place untouched member, result]
  rw [same]
  refine ⟨trimmed, fun name isRemovable => ?_, rm_name (by decide) still ?_⟩
  · obtain ⟨isApplet, i, leads, -⟩ := kept.applet_of_removable untouched member isRemovable
    obtain ⟨-, shown, -, mention⟩ := untouched.words name isApplet
    refine gone name (mem_visitedNames_iff.mpr ⟨mem_names_iff.mpr ⟨i, leads⟩, shown, ?_⟩)
      isRemovable
    exact fun outside => (removable_iff.mp isRemovable).2.1 (mention outside)
  · simp [FileSystem.isDirectory, trimmed.kind, program]

/-- The path of a place leads to it. -/
theorem lookup_place (cwd : ℕ) : fs.lookup cwd p.dir = .found p.inode := by
  rw [fs.lookup_absolute (untouched.absolute p member) cwd root]
  exact kept.within.lookup_found (untouched.visited p member)

theorem cd_place (cwd : ℕ) : fs.cd cwd p.dir = p.inode :=
  cd_of_found (kept.lookup_place untouched member cwd)
    (kept.isDirectory_place untouched member)

theorem pathExists_place {bb : ℕ} (present : fs.entry p.inode busybox = some bb) (cwd : ℕ) :
    fs.pathExists cwd (inDirectory p.dir) = true := by
  obtain ⟨-, text, program⟩ := kept.program untouched member present
  exact pathExists_iff.mpr ⟨bb, lookup_slash_entry (kept.lookup_place untouched member cwd)
    present (by simp [target, program])⟩

/-- A visit to a place with a busybox. -/
theorem visit (odd : FileSystem → ℕ → Str → Bool) {bb : ℕ}
    (present : fs.entry p.inode busybox = some bb) (cwd total : ℕ) :
    Kept killed places applets base (cleanDir odd ⟨fs, cwd, total⟩ p.dir).fs ∧
      (cleanDir odd ⟨fs, cwd, total⟩ p.dir).fs.entry p.inode busybox = none ∧
      Trimmed (fun e _ => e = p.inode) fs (cleanDir odd ⟨fs, cwd, total⟩ p.dir).fs := by
  obtain ⟨trimmed, gone, removeProgram⟩ := kept.visit_loop untouched member odd present
  rw [cleanDir, if_pos (kept.pathExists_place untouched member present cwd)]
  dsimp only
  rw [kept.cd_place untouched member]
  generalize (cleanEntries odd fs p.inode p.dir).1 = cleaned at *
  obtain ⟨onlyLoop, -⟩ := kept.trim_removable untouched member present trimmed
  have first : Trimmed (fun e n => e = p.inode ∧ (n = busybox ∨ n = sslHelper)) cleaned
      (cleaned.rm p.inode busybox.1) :=
    trimmed_rm _ fun name named => ⟨rfl, Or.inl (Name.ext named)⟩
  have second : Trimmed (fun e n => e = p.inode ∧ (n = busybox ∨ n = sslHelper))
      (cleaned.rm p.inode busybox.1) ((cleaned.rm p.inode busybox.1).rm p.inode sslHelper.1) :=
    trimmed_rm _ fun name named => ⟨rfl, Or.inr (Name.ext named)⟩
  have program : ((cleaned.rm p.inode busybox.1).rm p.inode sslHelper.1).entry p.inode busybox =
      none := by
    refine second.extends_.entry_eq_none ?_
    rw [removeProgram, entry_unlink, if_pos ⟨rfl, rfl⟩]
  have companion : ((cleaned.rm p.inode busybox.1).rm p.inode sslHelper.1).entry p.inode
      sslHelper = none := by
    cases leads : (cleaned.rm p.inode busybox.1).entry p.inode sslHelper with
    | none => rw [rm_absent leads, leads]
    | some i =>
      obtain ⟨k, added⟩ := onlyLoop.added_of_entry untouched.distinct member
        (untouched.bare p member).2 (first.extends_.entry _ _ _ leads)
      have file := (first.isDirectory_eq i).trans added.isDirectory
      rw [rm_name (by decide) leads file, entry_unlink, if_pos ⟨rfl, rfl⟩]
  refine ⟨kept.remove_program untouched member present trimmed gone (first.trans second) program
    (Or.inl companion), program, (trimmed.mono ?_).trans ((first.trans second).mono ?_)⟩
  · exact fun _ _ isRemovable => isRemovable.1
  · exact fun _ _ isBinary => isBinary.1

/-- A visit to a place with a busybox that is killed. -/
theorem killedVisit (odd : FileSystem → ℕ → Str → Bool) {bb : ℕ}
    (present : fs.entry p.inode busybox = some bb) (words : Option ℕ)
    (wasKilled : words = none → killed) (cwd total : ℕ) :
    Kept killed places applets base (killedVisit odd words ⟨fs, cwd, total⟩ p.dir) := by
  rw [Lifecycle.killedVisit, if_pos (kept.pathExists_place untouched member present cwd)]
  dsimp only
  rw [kept.cd_place untouched member]
  cases words with
  | some count =>
    obtain ⟨cleaned, total, result, trimmed, -⟩ := kept.visit_steps untouched member odd present
      (List.take_sublist count _)
    dsimp only
    rw [kept.cleanWords_place untouched member, ← List.map_take, result]
    exact (kept.trim_removable untouched member present trimmed).1
  | none =>
    obtain ⟨trimmed, gone, removeProgram⟩ := kept.visit_loop untouched member odd present
    refine kept.remove_program untouched member present trimmed gone
      (trimmed_rm _ fun name named => ⟨rfl, Or.inl (Name.ext named)⟩) ?_
      (Or.inr (wasKilled rfl))
    rw [removeProgram, entry_unlink, if_pos ⟨rfl, rfl⟩]

end Kept

end BbBot.Lifecycle
