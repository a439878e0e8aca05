/-
# An upgrade is a fresh installation

The programs of the installers do not depend on inode numbers: on two devices that
hold the same tree, an event leaves the same tree. A history and the device before
its first installation hold the same tree once all places are cleaned, so what
follows, such as an upgrade, goes as it would have gone without the history.
-/

import BbBot.Unix.Renumbering
import BbBot.Lifecycle.History

namespace BbBot.Lifecycle

open BbBot.Unix BbBot.Unix.FileSystem BbBot.Cleaning BbBot.Applets

/-- Both loops end or both are stopped, with the same tree. -/
inductive SameResult (r : ℕ → ℕ → Prop) :
    Except FileSystem FileSystem → Except FileSystem FileSystem → Prop
  | ok {a b : FileSystem} (same : SameTree r a b) : SameResult r (.ok a) (.ok b)
  | error {a b : FileSystem} (same : SameTree r a b) : SameResult r (.error a) (.error b)

theorem SameResult.outcome {r : ℕ → ℕ → Prop} {x y : Except FileSystem FileSystem}
    (same : SameResult r x y) : SameTree r (outcome x) (outcome y) := by
  cases same with
  | ok same => exact same
  | error same => exact same

theorem SameResult.mono {r more : ℕ → ℕ → Prop} (sub : ∀ i j, r i j → more i j)
    {x y : Except FileSystem FileSystem} (same : SameResult more x y) : SameResult r x y := by
  cases same with
  | ok same => exact .ok (same.mono sub)
  | error same => exact .error (same.mono sub)

/-- A directory that is copied into stays one. -/
theorem isDirectory_cp {fs : FileSystem} {d : ℕ} (directory : fs.isDirectory d = true)
    (name : Name) (content : Str) : (fs.cp d name content).isDirectory d = true := by
  have inside := lt_size_of_isDirectory directory
  rw [cp]
  split
  · rename_i i found
    split
    · rename_i executable old known
      have file : fs.isDirectory i = false := by simp [isDirectory, known]
      have other : d ≠ i := by
        rintro rfl
        rw [directory] at file
        exact absurd file (by simp)
      rw [isDirectory, kind_rewrite (lookup_found_lt inside found) file, if_neg other]
      exact directory
    · exact directory
  · split
    · rw [isDirectory, kind_create_of_lt inside]
      exact directory
    · rw [isDirectory, kind_create_of_lt (by rwa [size_unlink]), kind_unlink]
      exact directory

section Programs

variable {r : ℕ → ℕ → Prop} {a b : FileSystem} {d e : ℕ}

/-! ## Installing -/

theorem installApplet_same (same : Renumbered r a b) (paired : r d e)
    (target script operand : Str) (works : Bool) :
    SameResult r (installApplet d target script operand a works)
      (installApplet e target script operand b works) := by
  have linked : SameTree r (if works then a.ln d target busybox operand else a)
      (if works then b.ln e target busybox operand else b) := by
    cases works with
    | true => exact same.ln paired target busybox operand
    | false => exact same.sameTree
  rw [installApplet, installApplet]
  generalize (if works then a.ln d target busybox operand else a) = a' at *
  generalize (if works then b.ln e target busybox operand else b) = b' at *
  obtain ⟨more, sub, same'⟩ := linked
  have pairedNow := sub d e paired
  rw [same'.pathExists pairedNow]
  split
  · exact .ok ⟨more, sub, same'⟩
  · rcases same'.redirect pairedNow operand script with ⟨none, none'⟩ | ⟨x, y, some, some', most⟩
    · rw [none, none']
      exact .error ⟨more, sub, same'⟩
    · rw [some, some']
      obtain ⟨all, sub', written⟩ := most
      have pairedLast := sub' d e pairedNow
      exact .ok ⟨all, fun i j h => sub' i j (sub i j h), written.chmodExec pairedLast operand⟩

theorem appletLoop_same (skip : Str → Bool) (dir : Str) (same : Renumbered r a b)
    (paired : r d e) (rounds : List (Str × Bool)) :
    SameResult r (appletLoop skip (setupApplet dir d) a rounds)
      (appletLoop skip (setupApplet dir e) b rounds) := by
  induction rounds generalizing r a b with
  | nil => exact .ok same.sameTree
  | cons round rounds ih =>
    rw [appletLoop, appletLoop]
    split
    · exact ih same paired
    · have step := installApplet_same same paired busybox.1 (wrapper dir) round.1 round.2
      rw [← setupApplet, ← setupApplet] at step
      generalize setupApplet dir d a round = x at *
      generalize setupApplet dir e b round = y at *
      cases step with
      | ok next =>
        obtain ⟨more, sub, same'⟩ := next
        exact (ih same' (sub d e paired)).mono sub
      | error stopped => exact .error stopped

theorem install_same (blacklist : List Str) (dir program companion : Str)
    (same : Renumbered r a b) (paired : r d e) (directory : a.isDirectory d = true)
    (rounds : List (Str × Bool)) :
    SameResult r (install blacklist dir d program companion a rounds)
      (install blacklist dir e program companion b rounds) := by
  obtain ⟨more, sub, first⟩ := same.cp paired directory busybox program
  obtain ⟨most, sub', second⟩ := first.cp (sub d e paired)
    (isDirectory_cp directory busybox program) sslHelper companion
  exact (appletLoop_same (isBlacklisted blacklist) dir second (sub' _ _ (sub d e paired))
    rounds).mono fun i j h => sub' i j (sub i j h)

theorem unfinishedApplet_same (dir : Str) (same : Renumbered r a b) (paired : r d e)
    (applet : Str) :
    SameTree r (unfinishedApplet dir d a applet) (unfinishedApplet dir e b applet) := by
  rw [unfinishedApplet, unfinishedApplet, same.pathExists paired]
  split
  · exact same.sameTree
  · rcases same.redirect paired applet (wrapper dir) with
      ⟨none, none'⟩ | ⟨x, y, some, some', more⟩
    · rw [none, none']
      exact same.sameTree
    · rw [some, some']
      exact more

/-! ## Cleaning -/

variable (odd : FileSystem → ℕ → Str → Bool) (dir : Str) (same : Renumbered r a b)
  (paired : r d e)

include same paired

theorem cleanTest_same {k : Str} (operand : k ∉ testOperators) :
    cleanTest odd a d dir k = cleanTest odd b e dir k := by
  rw [cleanTest, cleanTest, if_neg operand, if_neg operand, same.sameFile paired,
    same.isExecutablePath paired, same.head paired]

/-- Words that are no operators, from one state of the loop on. -/
theorem cleanSteps_same {words : List Str} (operands : ∀ k ∈ words, k ∉ testOperators)
    (count : ℕ) :
    Renumbered r (words.foldl (cleanStep odd d dir) (a, count)).1
        (words.foldl (cleanStep odd e dir) (b, count)).1 ∧
      (words.foldl (cleanStep odd d dir) (a, count)).2 =
        (words.foldl (cleanStep odd e dir) (b, count)).2 := by
  induction words generalizing a b count with
  | nil => exact ⟨same, rfl⟩
  | cons k words ih =>
    have rest (other : Str) (inside : other ∈ words) := operands other (List.mem_cons_of_mem _ inside)
    rw [List.foldl_cons, List.foldl_cons, cleanStep, cleanStep,
      cleanTest_same odd dir same paired (operands k List.mem_cons_self)]
    split
    · exact ih (same.rm paired k) rest (count + 1)
    · exact ih same rest count

/-- The words of paired directories are the same, when all names are plain. -/
theorem cleanWords_same (plain : ∀ name ∈ a.names d, Plain name) :
    cleanWords a d = cleanWords b e ∧ ∀ k ∈ cleanWords a d, k ∉ testOperators := by
  have plain' : ∀ name ∈ b.names e, Plain name := by
    intro name present
    obtain ⟨j, leads'⟩ := mem_names_iff.mp present
    rcases same.entry_cases paired name with ⟨-, absent'⟩ | ⟨i, -, leads, -, -⟩
    · rw [leads'] at absent'
      exact absurd absent' (by simp)
    · exact plain name (mem_names_iff.mpr ⟨i, leads⟩)
  rw [cleanWords_eq plain, cleanWords_eq plain', visitedNames, visitedNames, same.listed paired]
  refine ⟨rfl, fun k member => ?_⟩
  obtain ⟨name, visits, rfl⟩ := List.mem_map.mp member
  rw [← same.listed paired, ← visitedNames] at visits
  exact (plain name (mem_visitedNames_iff.mp visits).1).2.2

/-- One directory, whose names are plain if it has a busybox. -/
theorem cleanDir_same (plain : a.pathExists d (inDirectory dir) = true →
      ∀ name ∈ a.names (a.cd d dir), Plain name) (total : ℕ) :
    Renumbered r (cleanDir odd ⟨a, d, total⟩ dir).fs (cleanDir odd ⟨b, e, total⟩ dir).fs ∧
      r (cleanDir odd ⟨a, d, total⟩ dir).cwd (cleanDir odd ⟨b, e, total⟩ dir).cwd ∧
      (cleanDir odd ⟨a, d, total⟩ dir).total = (cleanDir odd ⟨b, e, total⟩ dir).total := by
  rw [cleanDir, cleanDir]
  dsimp only
  rw [← same.pathExists paired]
  split
  · rename_i present
    have entered := same.cd paired dir
    obtain ⟨words, operands⟩ := cleanWords_same same entered (plain present)
    obtain ⟨after, counts⟩ := cleanSteps_same odd dir same entered operands 0
    dsimp only
    rw [cleanEntries, cleanEntries, ← words]
    exact ⟨(after.rm entered busybox.1).rm entered sslHelper.1, entered,
      congrArg (total + ·) counts⟩
  · exact ⟨same, paired, rfl⟩

theorem killedVisit_same (plain : a.pathExists d (inDirectory dir) = true →
      ∀ name ∈ a.names (a.cd d dir), Plain name) (words : Option ℕ) (total total' : ℕ) :
    Renumbered r (killedVisit odd words ⟨a, d, total⟩ dir)
      (killedVisit odd words ⟨b, e, total'⟩ dir) := by
  rw [killedVisit, killedVisit]
  dsimp only
  rw [← same.pathExists paired]
  split
  · rename_i present
    have entered := same.cd paired dir
    obtain ⟨listed, operands⟩ := cleanWords_same same entered (plain present)
    cases words with
    | some count =>
      dsimp only
      rw [← listed]
      exact (cleanSteps_same odd dir same entered
        (fun k member => operands k (List.mem_of_mem_take member)) 0).1
    | none =>
      dsimp only
      rw [cleanEntries, cleanEntries, ← listed]
      exact (cleanSteps_same odd dir same entered operands 0).1.rm entered busybox.1
  · exact same

end Programs

/-! ## Events -/

section Events

variable {killed : Prop} {places : List Place} {applets : List Name} {base a b : FileSystem}
  (kept : Kept killed places applets base a) (untouched : Untouched places applets base)
  (odd : FileSystem → ℕ → Str → Bool)

include kept untouched

/-- Where a busybox is found, the names are plain. -/
theorem Kept.plain_of_present {front : List Str} {dir : Str}
    (orderly : Orderly places base (front ++ [dir])) (emptied : Kept.Emptied places base front a)
    {cwd : ℕ} (present : a.pathExists cwd (inDirectory dir) = true) :
    ∀ name ∈ a.names (a.cd cwd dir), Plain name := by
  obtain ⟨p, member, rfl, -⟩ := kept.place_of_present untouched orderly emptied present
  intro name isName
  rw [kept.cd_place untouched member] at isName
  exact kept.plain untouched member isName

/-- A whole list of directories. -/
theorem cleanLoop_same {r : ℕ → ℕ → Prop} (same : Renumbered r a b) {dirs : List Str}
    (orderly : Orderly places base dirs) {d e : ℕ} (paired : r d e) (total : ℕ) :
    Renumbered r (cleanLoop odd dirs ⟨a, d, total⟩).fs (cleanLoop odd dirs ⟨b, e, total⟩).fs ∧
      r (cleanLoop odd dirs ⟨a, d, total⟩).cwd (cleanLoop odd dirs ⟨b, e, total⟩).cwd ∧
      (cleanLoop odd dirs ⟨a, d, total⟩).total = (cleanLoop odd dirs ⟨b, e, total⟩).total := by
  induction dirs using List.reverseRecOn with
  | nil => exact ⟨same, paired, rfl⟩
  | append_singleton front dir ih =>
    obtain ⟨after, emptied⟩ := kept.cleanLoop untouched odd orderly.init d total
    obtain ⟨same', paired', totals⟩ := ih orderly.init
    rw [cleanLoop_append, cleanLoop_append]
    generalize cleanLoop odd front ⟨a, d, total⟩ = state at *
    generalize cleanLoop odd front ⟨b, e, total⟩ = state' at *
    obtain ⟨x, c, t⟩ := state
    obtain ⟨y, c', t'⟩ := state'
    obtain rfl : t = t' := totals
    exact cleanDir_same odd dir same' paired'
      (after.plain_of_present untouched orderly emptied) t

/-- One event on two devices that hold the same tree. -/
theorem event_same {r : ℕ → ℕ → Prop} (same : Renumbered r a b) (blacklist : List Str)
    {event : Event} (admissible : event.Admissible places applets base) :
    SameTree r (event.apply odd blacklist a) (event.apply odd blacklist b) := by
  cases event with
  | clean dirs =>
    exact (cleanLoop_same kept untouched odd same admissible same.root 0).1.sameTree
  | killedClean dirs dir words =>
    have orderly : Orderly places base (dirs ++ [dir]) := admissible
    obtain ⟨after, emptied⟩ := kept.cleanLoop untouched odd orderly.init root 0
    obtain ⟨same', paired', -⟩ :=
      cleanLoop_same kept untouched odd same orderly.init same.root 0
    exact (killedVisit_same odd dir same' paired'
      (after.plain_of_present untouched orderly emptied) words _ _).sameTree
  | install dirs dir program companion rounds unfinished =>
    obtain ⟨orderly, ⟨p, member, rfl⟩, -⟩ := admissible
    obtain ⟨after, -⟩ := kept.cleanLoop untouched odd orderly root 0
    obtain ⟨same', paired', -⟩ := cleanLoop_same kept untouched odd same orderly same.root 0
    have entered := same'.cd paired' p.dir
    have directory := after.isDirectory_place untouched member
    rw [← after.cd_place untouched member (cleanLoop odd dirs ⟨a, root, 0⟩).cwd] at directory
    obtain ⟨more, sub, installed⟩ :=
      (install_same blacklist p.dir program companion same' entered directory rounds).outcome
    cases unfinished with
    | none => exact ⟨more, sub, installed⟩
    | some applet =>
      exact (unfinishedApplet_same p.dir installed (sub _ _ entered) applet).mono sub
  | killedCopy dirs dir program =>
    obtain ⟨orderly, p, member, rfl⟩ := admissible
    obtain ⟨after, -⟩ := kept.cleanLoop untouched odd orderly root 0
    obtain ⟨same', paired', -⟩ := cleanLoop_same kept untouched odd same orderly same.root 0
    have entered := same'.cd paired' p.dir
    have directory := after.isDirectory_place untouched member
    rw [← after.cd_place untouched member (cleanLoop odd dirs ⟨a, root, 0⟩).cwd] at directory
    exact same'.cp entered directory busybox program

/-- A whole history on two devices that hold the same tree. -/
theorem history_same {r : ℕ → ℕ → Prop} (same : Renumbered r a b) (blacklist : List Str)
    {events : List Event} (risk : killed)
    (admissible : ∀ event ∈ events, event.Admissible places applets base) :
    SameTree r (history odd blacklist events a) (history odd blacklist events b) := by
  induction events generalizing r a b with
  | nil => exact same.sameTree
  | cons event events ih =>
    have isAdmissible := admissible event List.mem_cons_self
    obtain ⟨more, sub, same'⟩ := event_same kept untouched odd same blacklist isAdmissible
    have next := kept.event untouched odd blacklist isAdmissible fun _ => risk
    rw [history, List.foldl_cons, history, List.foldl_cons]
    exact (ih next same' fun other inside =>
      admissible other (List.mem_cons_of_mem _ inside)).mono sub

end Events

/-! ## Starting over -/

/-- The inodes of the untouched device, each paired with itself. -/
def Original (base : FileSystem) (i j : ℕ) : Prop := i = j ∧ i < base.size

/-- An event that cleans all places before it does anything else. -/
def Event.CleansAll (places : List Place) : Event → Prop
  | .clean dirs => ∀ p ∈ places, p.dir ∈ dirs
  | .killedClean _ _ _ => False
  | .install dirs _ _ _ _ _ => ∀ p ∈ places, p.dir ∈ dirs
  | .killedCopy dirs _ _ => ∀ p ∈ places, p.dir ∈ dirs

section StartingOver

variable {places : List Place} {applets : List Name} {base a b : FileSystem}
  (first : Kept False places applets base a) (second : Kept False places applets base b)
  (untouched : Untouched places applets base) (odd : FileSystem → ℕ → Str → Bool)

include first second untouched

/-- Two histories hold the same tree when all places are cleaned. -/
theorem renumbered_cleaned {dirs : List Str} (orderly : Orderly places base dirs)
    (all : ∀ p ∈ places, p.dir ∈ dirs) :
    Renumbered (Original base) (cleanLoop odd dirs ⟨a, root, 0⟩).fs
      (cleanLoop odd dirs ⟨b, root, 0⟩).fs := by
  obtain ⟨keptFirst, -⟩ := first.cleanLoop untouched odd orderly root 0
  obtain ⟨keptSecond, -⟩ := second.cleanLoop untouched odd orderly root 0
  have entries {fs : FileSystem} (kept : Kept False places applets base fs) (e : ℕ)
      (name : Name) : (cleanLoop odd dirs ⟨fs, root, 0⟩).fs.entry e name = base.entry e name := by
    refine (kept.cleaned untouched odd orderly all root 0 e name).resolve_right ?_
    rintro ⟨p, -, -, left⟩
    exact left.1
  refine ⟨?_, ?_, ⟨rfl, lt_size_of_isDirectory untouched.rooted⟩, ?_, ?_⟩
  · rintro i j ⟨rfl, old⟩
    exact ⟨Nat.lt_of_lt_of_le old keptFirst.size, Nat.lt_of_lt_of_le old keptSecond.size⟩
  · rintro i j i' j' ⟨rfl, -⟩ ⟨rfl, -⟩
    exact Iff.rfl
  · rintro i j ⟨rfl, old⟩
    rw [keptFirst.kind i old, keptSecond.kind i old]
  · rintro i j ⟨rfl, -⟩ name
    rw [entries first, entries second]
    cases leads : base.entry i name with
    | none => exact .none
    | some k => exact .some ⟨rfl, lt_size_of_entry leads⟩

/-- An event that cleans all places first goes the same after two histories. -/
theorem startingOver_same (blacklist : List Str) {event : Event}
    (admissible : event.Admissible places applets base) (all : event.CleansAll places) :
    SameTree (Original base) (event.apply odd blacklist a) (event.apply odd blacklist b) := by
  cases event with
  | clean dirs => exact (renumbered_cleaned first second untouched odd admissible all).sameTree
  | killedClean dirs dir words => exact all.elim
  | install dirs dir program companion rounds unfinished =>
    obtain ⟨orderly, ⟨p, member, rfl⟩, -⟩ := admissible
    obtain ⟨keptFirst, -⟩ := first.cleanLoop untouched odd orderly root 0
    obtain ⟨keptSecond, -⟩ := second.cleanLoop untouched odd orderly root 0
    have same := renumbered_cleaned first second untouched odd orderly all
    have paired : Original base p.inode p.inode :=
      ⟨rfl, lt_size_of_isDirectory (untouched.directory p member)⟩
    obtain ⟨more, sub, installed⟩ := (install_same blacklist p.dir program companion same paired
      (keptFirst.isDirectory_place untouched member) rounds).outcome
    cases unfinished with
    | none =>
      rw [Event.apply, Event.apply, keptFirst.cd_place untouched member,
        keptSecond.cd_place untouched member]
      exact ⟨more, sub, installed⟩
    | some applet =>
      rw [Event.apply, Event.apply, keptFirst.cd_place untouched member,
        keptSecond.cd_place untouched member]
      exact (unfinishedApplet_same p.dir installed (sub _ _ paired) applet).mono sub
  | killedCopy dirs dir program =>
    obtain ⟨orderly, p, member, rfl⟩ := admissible
    obtain ⟨keptFirst, -⟩ := first.cleanLoop untouched odd orderly root 0
    obtain ⟨keptSecond, -⟩ := second.cleanLoop untouched odd orderly root 0
    have same := renumbered_cleaned first second untouched odd orderly all
    rw [Event.apply, Event.apply, keptFirst.cd_place untouched member,
      keptSecond.cd_place untouched member]
    exact same.cp ⟨rfl, lt_size_of_isDirectory (untouched.directory p member)⟩
      (keptFirst.isDirectory_place untouched member) busybox program

end StartingOver

end BbBot.Lifecycle
