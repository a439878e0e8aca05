/-
# Histories of a device

On a device, versions are installed over one another, with and without cleaning
first, into one place or another, and cleaned again. Each of these can be killed on
the way. Whatever has happened, a cleaning that is not killed gives the device
back as it was before the first installation, up to what a killed one may leave
in two moments: a helper whose busybox is gone, and a script that is not
executable yet. `clean_history` says that nothing else is ever left.

A cleaning list must reach each place first by the path it is installed under:
scripts are recognised by that path only.
-/

import BbBot.Lifecycle.Steps

namespace BbBot.Lifecycle

open BbBot.Unix BbBot.Unix.FileSystem BbBot.Cleaning BbBot.Applets

/-- What happens to a device. -/
inductive Event
  /-- A cleaning of the listed directories. -/
  | clean (dirs : List Str)
  /-- A cleaning that is killed in a directory, behind the listed ones. -/
  | killedClean (dirs : List Str) (dir : Str) (words : Option ℕ)
  /-- An installation after a cleaning; with `noclean` there are no directories. It may
  be killed after some rounds, in the middle of one or between two. -/
  | install (dirs : List Str) (dir program companion : Str) (rounds : List (Str × Bool))
      (unfinished : Option Str)
  /-- An installation that is killed between the two binaries. -/
  | killedCopy (dirs : List Str) (dir program : Str)

/-- The file system after an event. -/
def Event.apply (odd : FileSystem → ℕ → Str → Bool) (blacklist : List Str) (fs : FileSystem) :
    Event → FileSystem
  | .clean dirs => (cleanLoop odd dirs ⟨fs, root, 0⟩).fs
  | .killedClean dirs dir words => killedVisit odd words (cleanLoop odd dirs ⟨fs, root, 0⟩) dir
  | .install dirs dir program companion rounds unfinished =>
    let cleaned := cleanLoop odd dirs ⟨fs, root, 0⟩
    let d := cleaned.fs.cd cleaned.cwd dir
    let installed := outcome (Applets.install blacklist dir d program companion cleaned.fs rounds)
    match unfinished with
    | none => installed
    | some applet => unfinishedApplet dir d installed applet
  | .killedCopy dirs dir program =>
    let cleaned := cleanLoop odd dirs ⟨fs, root, 0⟩
    cleaned.fs.cp (cleaned.fs.cd cleaned.cwd dir) busybox program

/-- One event after the other. -/
def history (odd : FileSystem → ℕ → Str → Bool) (blacklist : List Str) (events : List Event)
    (fs : FileSystem) : FileSystem :=
  events.foldl (Event.apply odd blacklist) fs

/-- The two moments in which a killed installer leaves something behind. -/
def Event.isRisky : Event → Bool
  | .killedClean _ _ words => words.isNone
  | .install _ _ _ _ _ unfinished => unfinished.isSome
  | _ => false

/-- A list of directories for cleaning: they had no busybox at first, and the first
path to a place is the one it is installed under. -/
structure Orderly (places : List Place) (base : FileSystem) (dirs : List Str) : Prop where
  absolute : ∀ dir ∈ dirs, dir.head? = some '/'
  vacant : ∀ dir ∈ dirs, ∀ d, base.lookup root dir = .found d → base.entry d busybox = none
  first : ∀ p ∈ places, ∀ dir,
    dirs.find? (fun dir => base.lookup root dir = .found p.inode) = some dir → dir = p.dir

/-- Cleanings are orderly, and installations put applets into places. -/
def Event.Admissible (places : List Place) (applets : List Name) (base : FileSystem) :
    Event → Prop
  | .clean dirs => Orderly places base dirs
  | .killedClean dirs dir _ => Orderly places base (dirs ++ [dir])
  | .install dirs dir _ companion rounds unfinished => Orderly places base dirs ∧
    (∃ p ∈ places, p.dir = dir) ∧ firstLine companion ≠ shebang dir ∧
    (∀ round ∈ rounds, ∃ applet ∈ applets, applet.1 = round.1) ∧
    ∀ word ∈ unfinished, ∃ applet ∈ applets, applet.1 = word
  | .killedCopy dirs dir _ => Orderly places base dirs ∧ ∃ p ∈ places, p.dir = dir

namespace Orderly

variable {places : List Place} {base : FileSystem} {front : List Str} {dir : Str}
  (orderly : Orderly places base (front ++ [dir]))

include orderly

/-- The first directories of a list. -/
theorem init : Orderly places base front where
  absolute := fun other member => orderly.absolute other (List.mem_append_left _ member)
  vacant := fun other member => orderly.vacant other (List.mem_append_left _ member)
  first := by
    intro p member other found
    refine orderly.first p member other ?_
    rw [List.find?_append, found, Option.some_or]

/-- A place that no earlier path led to is visited under its own path. -/
theorem last {p : Place} (member : p ∈ places) (leads : base.lookup root dir = .found p.inode)
    (new : ∀ other ∈ front, base.lookup root other ≠ .found p.inode) : dir = p.dir := by
  refine orderly.first p member dir ?_
  have none : front.find? (fun dir => base.lookup root dir = .found p.inode) = none := by
    simpa using new
  rw [List.find?_append, none]
  simp [leads]

end Orderly

namespace Kept

variable {killed : Prop} {places : List Place} {applets : List Name} {base fs : FileSystem}
  (kept : Kept killed places applets base fs) (untouched : Untouched places applets base)

/-! ## Cleaning -/

/-- The places that some of the directories lead to have no busybox. -/
def Emptied (places : List Place) (base : FileSystem) (dirs : List Str) (fs : FileSystem) :
    Prop :=
  ∀ p ∈ places, (∃ dir ∈ dirs, base.lookup root dir = .found p.inode) →
    fs.entry p.inode busybox = none

include kept untouched

/-- A directory in which a busybox is found is a place, under its own path. -/
theorem place_of_present {front : List Str} {dir : Str}
    (orderly : Orderly places base (front ++ [dir])) (emptied : Emptied places base front fs)
    {cwd : ℕ} (present : fs.pathExists cwd (inDirectory dir) = true) :
    ∃ p ∈ places, dir = p.dir ∧ base.lookup root dir = .found p.inode ∧
      ∃ bb, fs.entry p.inode busybox = some bb := by
  have absolute := orderly.absolute dir (by simp)
  have nonempty : dir ≠ [] := by
    rintro rfl
    exact absurd absolute (by simp)
  obtain ⟨d, bb, visited, leads, -⟩ := entered_of_present nonempty present
  -- The path led to the directory at first, when there was no busybox in it.
  rw [fs.lookup_absolute absolute cwd root] at visited
  have visitedFirst := kept.lookup_directory (fun p member => (untouched.bare p member).1) visited
    (isDirectory_of_entry leads)
  have free := orderly.vacant dir (by simp) d visitedFirst
  rcases kept.entry d busybox with same | ⟨p, member, rfl, -⟩
  · rw [leads, free] at same
    exact absurd same (by simp)
  · refine ⟨p, member, orderly.last member visitedFirst ?_, visitedFirst, bb, leads⟩
    intro other inside leadsToo
    rw [emptied p member ⟨other, inside, leadsToo⟩] at leads
    exact absurd leads (by simp)

/-- One directory of the list. -/
theorem cleanDir (odd : FileSystem → ℕ → Str → Bool) {front : List Str} {dir : Str}
    (orderly : Orderly places base (front ++ [dir])) (emptied : Emptied places base front fs)
    (cwd total : ℕ) :
    Kept killed places applets base (cleanDir odd ⟨fs, cwd, total⟩ dir).fs ∧
      Emptied places base (front ++ [dir]) (cleanDir odd ⟨fs, cwd, total⟩ dir).fs := by
  by_cases present : fs.pathExists cwd (inDirectory dir) = true
  · obtain ⟨p, member, rfl, leads, bb, binary⟩ :=
      kept.place_of_present untouched orderly emptied present
    obtain ⟨after, program, trimmed⟩ := kept.visit untouched member odd binary cwd total
    refine ⟨after, fun q other reached => ?_⟩
    by_cases here : q.inode = p.inode
    · rw [here, program]
    · obtain ⟨path, inside, leadsToo⟩ := reached
      rcases List.mem_append.mp inside with inside | last
      · exact trimmed.extends_.entry_eq_none (emptied q other ⟨path, inside, leadsToo⟩)
      · rw [List.mem_singleton.mp last, leads] at leadsToo
        exact absurd (Lookup.found.inj leadsToo).symm here
  · rw [Cleaning.cleanDir, if_neg present]
    refine ⟨kept, fun q other reached => ?_⟩
    obtain ⟨path, inside, leads⟩ := reached
    rcases List.mem_append.mp inside with inside | last
    · exact emptied q other ⟨path, inside, leads⟩
    · rw [List.mem_singleton.mp last] at leads
      cases binary : fs.entry q.inode busybox with
      | none => rfl
      | some bb =>
        -- The path leads to the place, so its busybox would have been seen.
        obtain ⟨-, text, program⟩ := kept.program untouched other binary
        have visited := kept.within.lookup_found leads
        rw [fs.lookup_absolute (orderly.absolute dir (by simp)) root cwd] at visited
        exact absurd (pathExists_iff.mpr ⟨bb, lookup_slash_entry visited binary
          (by simp [target, program])⟩) present

/-- A whole list of directories. -/
theorem cleanLoop (odd : FileSystem → ℕ → Str → Bool) {dirs : List Str}
    (orderly : Orderly places base dirs) (cwd total : ℕ) :
    Kept killed places applets base (cleanLoop odd dirs ⟨fs, cwd, total⟩).fs ∧
      Emptied places base dirs (cleanLoop odd dirs ⟨fs, cwd, total⟩).fs := by
  induction dirs using List.reverseRecOn with
  | nil => exact ⟨kept, by simp [Emptied, Cleaning.cleanLoop]⟩
  | append_singleton front dir ih =>
    obtain ⟨after, emptied⟩ := ih orderly.init
    rw [cleanLoop_append]
    exact after.cleanDir untouched odd orderly emptied _ _

/-- After a list that reaches all places, every entry is as it was at first, or left over. -/
theorem cleaned (odd : FileSystem → ℕ → Str → Bool) {dirs : List Str}
    (orderly : Orderly places base dirs) (all : ∀ p ∈ places, p.dir ∈ dirs) (cwd total e : ℕ)
    (name : Name) :
    (Cleaning.cleanLoop odd dirs ⟨fs, cwd, total⟩).fs.entry e name = base.entry e name ∨
      ∃ p ∈ places, e = p.inode ∧
        Left killed applets base (Cleaning.cleanLoop odd dirs ⟨fs, cwd, total⟩).fs p name := by
  obtain ⟨after, emptied⟩ := kept.cleanLoop untouched odd orderly cwd total
  rcases after.entry e name with same | ⟨p, member, rfl, -⟩
  · exact Or.inl same
  · -- The place has been visited, so it has no busybox any more.
    have absent := emptied p member ⟨p.dir, all p member, untouched.visited p member⟩
    exact (after.alone p member absent name).imp id fun left => ⟨p, member, rfl, left⟩

/-! ## Events -/

variable {p : Place} (member : p ∈ places)

include member

/-- An installation ends, and the place has both binaries. -/
theorem install (blacklist : List Str) (program : Str) {companion : Str}
    (foreign : firstLine companion ≠ shebang p.dir) {rounds : List (Str × Bool)}
    (words : ∀ round ∈ rounds, ∃ applet ∈ applets, applet.1 = round.1) :
    ∃ after, install blacklist p.dir p.inode program companion fs rounds = .ok after ∧
      Kept killed places applets base after ∧
      (∃ bb, after.entry p.inode busybox = some bb) ∧
      ∃ hh, after.entry p.inode sslHelper = some hh := by
  obtain ⟨first, ⟨bb, binary⟩, -⟩ := kept.copy untouched member (Or.inl rfl) (.program program)
    (Or.inl rfl)
  obtain ⟨second, ⟨hh, helper⟩, still⟩ := first.copy untouched member (Or.inr rfl)
    (.companion companion foreign) (Or.inr ⟨bb, binary⟩)
  let reached (state : FileSystem) : Prop := Kept killed places applets base state ∧
    (∃ bb, state.entry p.inode busybox = some bb) ∧ ∃ hh, state.entry p.inode sslHelper = some hh
  have start : reached (copyBinaries p.inode program companion fs) :=
    ⟨second, ⟨bb, still _ _ binary⟩, hh, helper⟩
  apply appletLoop_ok reached _ start
  rintro current ⟨now, ⟨bb, binary⟩, hh, helper⟩ round inside -
  obtain ⟨applet, isApplet, named⟩ := words round inside
  obtain ⟨after, ends, later, grows⟩ := now.applet untouched member binary helper isApplet round.2
  rw [named] at ends
  exact ⟨after, ends, later, ⟨bb, grows.entry _ _ _ binary⟩, hh, grows.entry _ _ _ helper⟩

omit member in
/-- One event. -/
theorem event (odd : FileSystem → ℕ → Str → Bool) (blacklist : List Str) {event : Event}
    (admissible : event.Admissible places applets base) (risk : event.isRisky = true → killed) :
    Kept killed places applets base (event.apply odd blacklist fs) := by
  cases event with
  | clean dirs => exact (kept.cleanLoop untouched odd admissible root 0).1
  | killedClean dirs dir words =>
    have orderly : Orderly places base (dirs ++ [dir]) := admissible
    obtain ⟨cleaned, emptied⟩ := kept.cleanLoop untouched odd orderly.init root 0
    rw [Event.apply]
    generalize Cleaning.cleanLoop odd dirs ⟨fs, root, 0⟩ = state at *
    by_cases present : state.fs.pathExists state.cwd (inDirectory dir) = true
    · obtain ⟨p, member, rfl, -, bb, binary⟩ :=
        cleaned.place_of_present untouched orderly emptied present
      exact cleaned.killedVisit untouched member odd binary words
        (fun none => risk (by simp [Event.isRisky, none])) state.cwd state.total
    · rw [Lifecycle.killedVisit, if_neg present]
      exact cleaned
  | install dirs dir program companion rounds unfinished =>
    obtain ⟨orderly, ⟨p, member, rfl⟩, foreign, words, last⟩ := admissible
    obtain ⟨cleaned, -⟩ := kept.cleanLoop untouched odd orderly root 0
    obtain ⟨after, ends, later, ⟨bb, binary⟩, hh, helper⟩ :=
      cleaned.install untouched member blacklist program foreign words
    cases unfinished with
    | none =>
      rw [Event.apply, cleaned.cd_place untouched member, ends]
      exact later
    | some word =>
      obtain ⟨applet, isApplet, rfl⟩ := last word rfl
      rw [Event.apply, cleaned.cd_place untouched member, ends]
      exact later.unfinished untouched member (risk rfl) binary helper isApplet
  | killedCopy dirs dir program =>
    obtain ⟨orderly, p, member, rfl⟩ := admissible
    obtain ⟨cleaned, -⟩ := kept.cleanLoop untouched odd orderly root 0
    rw [Event.apply, cleaned.cd_place untouched member]
    exact (cleaned.copy untouched member (Or.inl rfl) (.program program) (Or.inl rfl)).1

end Kept

/-- Any history keeps the device as it was apart from what was added. -/
theorem kept_history {places : List Place} {applets : List Name} {base : FileSystem}
    (untouched : Untouched places applets base) (odd : FileSystem → ℕ → Str → Bool)
    (blacklist : List Str) {events : List Event}
    (admissible : ∀ event ∈ events, event.Admissible places applets base) :
    Kept (∃ event ∈ events, event.isRisky = true) places applets base
      (history odd blacklist events base) := by
  induction events using List.reverseRecOn with
  | nil => exact Kept.refl base
  | append_singleton events event ih =>
    have before := ih fun other inside => admissible other (List.mem_append_left _ inside)
    rw [history, List.foldl_append]
    refine (before.mono ?_).event untouched odd blacklist (admissible event (by simp)) fun risk =>
      ⟨event, by simp, risk⟩
    rintro ⟨other, inside, risk⟩
    exact ⟨other, List.mem_append_left _ inside, risk⟩

/-- A device with a command in each of two directories and a link between them. -/
def handset : FileSystem where
  nodes := [
    .directory true (entriesOf [(Name.named "xbin", 1), (Name.named "bin", 2)]),
    .directory true (entriesOf [(Name.named "cat", 3)]),
    .directory true (entriesOf [(Name.named "sh", 3), (Name.named "ls", 4)]),
    .leaf (.file true "ELF".toList),
    .leaf (.symlink "/xbin/cat".toList)]
  linked := by decide

/-- The two directories. -/
def bothPlaces : List Place := [⟨"/xbin".toList, 1⟩, ⟨"/bin".toList, 2⟩]

theorem untouched_handset : Untouched bothPlaces someApplets handset where
  rooted := by decide +kernel
  absolute := by decide +kernel
  oneLine := by decide +kernel
  visited := by decide +kernel
  directory := by decide +kernel
  distinct := by decide +kernel
  bare := by decide +kernel
  foreign := by
    have commands : ∀ p ∈ bothPlaces, ∀ name ∈ handset.names p.inode, Plain name ∧
        handset.lookup p.inode name.1 = .found 3 ∧ firstLine "ELF".toList ≠ shebang p.dir := by
      decide +kernel
    intro p member name present
    obtain ⟨plain, found, notScript⟩ := commands p member name present
    refine ⟨plain, 3, found, fun content known => ?_⟩
    have elf : handset.kind 3 = some (.file true "ELF".toList) := by decide +kernel
    rw [elf] at known
    obtain rfl : "ELF".toList = content := by simpa using known
    exact notScript
  words := by decide +kernel
  files := by
    have leads : ∀ p ∈ bothPlaces, ∀ applet ∈ someApplets,
        handset.lookup p.inode applet.1 = .found 3 ∨
          handset.lookup p.inode applet.1 = .missing p.inode applet := by decide +kernel
    intro p member applet isApplet j found
    rcases leads p member applet isApplet with three | missing
    · rw [three] at found
      obtain rfl := Lookup.found.inj found
      decide +kernel
    · rw [missing] at found
      exact absurd found (by simp)

theorem orderly_handset :
    Orderly bothPlaces handset (["/xbin".toList] ++ ["/bin".toList]) where
  absolute := by decide +kernel
  vacant := by
    have leads : ∀ dir ∈ ["/xbin".toList] ++ ["/bin".toList],
        handset.lookup root dir = .found 1 ∨ handset.lookup root dir = .found 2 := by
      decide +kernel
    intro dir listed d found
    rcases leads dir listed with one | two
    · obtain rfl := Lookup.found.inj (one.symm.trans found)
      decide +kernel
    · obtain rfl := Lookup.found.inj (two.symm.trans found)
      decide +kernel
  first := by
    have finds : ∀ p ∈ bothPlaces, (["/xbin".toList] ++ ["/bin".toList]).find?
        (fun dir => handset.lookup root dir = .found p.inode) = some p.dir := by decide +kernel
    intro p member dir found
    exact Option.some.inj (found.symm.trans (finds p member))

/-- The rounds for two of the applets, the second one without links. -/
def twoRounds : List (Str × Bool) := [("ls".toList, true), ("[[".toList, false)]

/-- Two versions in two places, with a copy and a cleaning that are killed. -/
def busyWeek : List Event :=
  [.install [] "/xbin".toList "BB".toList "SSL".toList twoRounds none,
    .killedCopy [] "/bin".toList "B".toList,
    .install ["/xbin".toList] "/bin".toList "BB2".toList "SSL2".toList twoRounds none,
    .killedClean ["/xbin".toList] "/bin".toList (some 1)]

theorem admissible_busyWeek :
    ∀ event ∈ busyWeek, event.Admissible bothPlaces someApplets handset := by
  have words : ∀ round ∈ twoRounds, ∃ applet ∈ someApplets, applet.1 = round.1 := by decide
  have xbin : ∃ p ∈ bothPlaces, p.dir = "/xbin".toList := ⟨_, List.mem_cons_self, rfl⟩
  have bin : ∃ p ∈ bothPlaces, p.dir = "/bin".toList :=
    ⟨_, List.mem_cons_of_mem _ List.mem_cons_self, rfl⟩
  have one : Orderly bothPlaces handset ([] ++ ["/xbin".toList]) := orderly_handset.init
  intro event member
  simp only [busyWeek, List.mem_cons, List.not_mem_nil, or_false] at member
  rcases member with rfl | rfl | rfl | rfl
  · exact ⟨one.init, xbin, by decide, words, by simp⟩
  · exact ⟨one.init, bin⟩
  · exact ⟨one, bin, by decide, words, by simp⟩
  · exact orderly_handset

/-- In each of the two moments something is left that later cleanings do not see. -/
theorem killed_leaves_handset :
    let after (events : List Event) := history (fun _ _ _ => true) blacklistedApplets
      (events ++ [.clean ["/xbin".toList], .clean ["/xbin".toList]]) handset
    let version (unfinished : Option Str) : Event :=
      .install [] "/xbin".toList "BB".toList "SSL".toList [("ls".toList, true)] unfinished
    (after [version none]).names 1 = [Name.named "cat"] ∧
      (after [version none, .killedClean [] "/xbin".toList none]).names 1 =
        [sslHelper, Name.named "cat"] ∧
      (after [version (some "[[".toList)]).names 1 = [Name.named "[[", Name.named "cat"] := by
  decide +kernel

end BbBot.Lifecycle
