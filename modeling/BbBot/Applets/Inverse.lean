/-
# Cleaning undoes an installation

`base_installer.sh` copies two binaries into a directory without them and sets
up the applets. Cleaning the directory then takes away what the installer put
there and nothing else: files that were there before lead to inodes that existed
before the copy of the busybox, and each created entry leads to the busybox or
is a script for it.

This needs applet names that `ls` shows and that no tool takes for options.
-/

import BbBot.Applets.Setup
import BbBot.Cleaning.Exact

namespace BbBot.Applets

open BbBot.Unix BbBot.Unix.FileSystem BbBot.Cleaning

/-- `cp -af $INSTALLER/busybox $INSTALLER/ssl_helper .` -/
def copyBinaries (d : ℕ) (binary helper : Str) (fs : FileSystem) : FileSystem :=
  (fs.cp d busybox binary).cp d sslHelper helper

/-- Copy the binaries and set up the applets. -/
def install (blacklist : List Str) (dir : Str) (d : ℕ) (binary helper : Str) (fs : FileSystem)
    (rounds : List (Str × Bool)) : Except FileSystem FileSystem :=
  setupLoop blacklist dir d (copyBinaries d binary helper fs) rounds

/-! ## The copied binaries -/

section Copy

variable {d : ℕ} (binary helper : Str) {fs : FileSystem} (directory : fs.isDirectory d = true)
  (noBusybox : fs.entry d busybox = none) (noHelper : fs.entry d sslHelper = none)

include directory noBusybox noHelper

/-- Where the two names are free, the copies are new files. -/
theorem copyBinaries_eq : copyBinaries d binary helper fs =
    (fs.create d busybox (.file true binary)).create d sslHelper (.file true helper) := by
  have first := cp_absent binary directory noBusybox
  have grows := extends_create directory noBusybox (.file true binary)
  rw [copyBinaries, first, cp_absent helper (grows.isDirectory directory)]
  rw [entry_create directory, if_neg fun same => sslHelper_ne_busybox same.2, noHelper]

theorem extends_copyBinaries : Extends fs (copyBinaries d binary helper fs) := by
  have grows := extends_create directory noBusybox (.file true binary)
  rw [copyBinaries_eq binary helper directory noBusybox noHelper]
  refine grows.trans (extends_create (grows.isDirectory directory) ?_ _)
  rw [entry_create directory, if_neg fun same => sslHelper_ne_busybox same.2, noHelper]

theorem entry_copyBinaries (e : ℕ) (name : Name) :
    (copyBinaries d binary helper fs).entry e name =
      if e = d ∧ name = sslHelper then some (fs.size + 1)
      else if e = d ∧ name = busybox then some fs.size else fs.entry e name := by
  have grows := extends_create directory noBusybox (.file true binary)
  rw [copyBinaries_eq binary helper directory noBusybox noHelper,
    entry_create (grows.isDirectory directory), entry_create directory, size_create]

theorem kind_copyBinaries_busybox :
    (copyBinaries d binary helper fs).kind fs.size = some (.file true binary) := by
  rw [copyBinaries_eq binary helper directory noBusybox noHelper, kind_create, size_create,
    if_neg (Nat.ne_of_lt (Nat.lt_succ_self _)), kind_create, if_pos rfl]
  rfl

theorem kind_copyBinaries_helper :
    (copyBinaries d binary helper fs).kind (fs.size + 1) = some (.file true helper) := by
  rw [copyBinaries_eq binary helper directory noBusybox noHelper, kind_create, size_create,
    if_pos rfl]
  rfl

end Copy

/-! ## Install, then clean -/

/-- A name that an applet can have: one plain word that `ls` shows, that no tool
takes for options, and that does not mention busybox unless it is busybox. -/
def AppletName (name : Name) : Prop :=
  Plain name ∧ name.isHidden = false ∧ isOption name.1 = false ∧
    (busybox.1 <:+: name.1 → name = busybox)

instance (name : Name) : Decidable (AppletName name) :=
  inferInstanceAs (Decidable (Plain name ∧ name.isHidden = false ∧ isOption name.1 = false ∧
    (busybox.1 <:+: name.1 → name = busybox)))

/-- An entry that was there before: a plain name that leads to a file or
directory, and not to a script for the busybox. -/
def Foreign (fs : FileSystem) (dir : Str) (d : ℕ) (name : Name) : Prop :=
  Plain name ∧ ∃ j, fs.lookup d name.1 = .found j ∧
    ∀ content, fs.kind j = some (.file true content) → firstLine content ≠ shebang dir

/-- The entries of a directory that appeared between two states. -/
def appeared (d : ℕ) (before after : FileSystem) (name : Name) : Bool :=
  (before.entry d name).isNone && (after.entry d name).isSome

theorem appeared_eq_true_iff {d : ℕ} {before after : FileSystem} {name : Name} :
    appeared d before after name = true ↔
      before.entry d name = none ∧ ∃ i, after.entry d name = some i := by
  simp [appeared, Option.isSome_iff_exists]

section Inverse

variable {d : ℕ} {dir : Str} (binary helper : Str) {fs : FileSystem} {applets : List Name}
  (directory : fs.isDirectory d = true)
  (noBusybox : fs.entry d busybox = none) (noHelper : fs.entry d sslHelper = none)
  (helperForeign : firstLine helper ≠ shebang dir)
  (contents : ∀ name ∈ fs.names d, Foreign fs dir d name)
  (names : ∀ applet ∈ applets, AppletName applet)
  (noDirectory : ∀ applet ∈ applets, ∀ j, fs.lookup d applet.1 = .found j →
    fs.isDirectory j = false)

include directory noBusybox noHelper

include names in
/-- The setup loop ends, and what it adds are links and scripts under applet names. -/
theorem install_populated (taken : ∀ applet ∈ applets, ∀ i, fs.entry d applet = some i →
      ∃ j, fs.lookup d applet.1 = .found j ∧ fs.isDirectory j = false) (skip : Str → Bool)
    {rounds : List (Str × Bool)}
    (words : rounds.map Prod.fst = applets.map Name.word) :
    ∃ full, appletLoop skip (setupApplet dir d) (copyBinaries d binary helper fs) rounds =
        .ok full ∧
      Populated busybox.1 (wrapper dir) d (· ∈ applets)
        (copyBinaries d binary helper fs) full := by
  have grows := extends_copyBinaries binary helper directory noBusybox noHelper
  have entry := entry_copyBinaries binary helper directory noBusybox noHelper
  have inside := lt_size_of_isDirectory directory
  refine appletLoop_populated ?_
    (kind_copyBinaries_busybox binary helper directory noBusybox noHelper) ?_
  · rw [entry, if_neg fun same => sslHelper_ne_busybox same.2.symm, if_pos ⟨rfl, rfl⟩]
  · intro round member _
    have listed : round.1 ∈ applets.map Name.word := words ▸ List.mem_map_of_mem member
    obtain ⟨applet, isApplet, named⟩ := List.mem_map.mp listed
    refine ⟨applet, named, isApplet, (names applet isApplet).2.2.1, fun i leads => ?_⟩
    have file (j : ℕ) (content : Str) (leads : (copyBinaries d binary helper fs).entry d applet =
        some j) (kind : (copyBinaries d binary helper fs).kind j = some (.file true content)) :
        ∃ j, (copyBinaries d binary helper fs).lookup d applet.1 = .found j ∧
          (copyBinaries d binary helper fs).isDirectory j = false :=
      ⟨j, lookup_entry leads (by simp [target, kind]), by simp [isDirectory, kind]⟩
    -- An applet may be called like one of the two binaries, which are files.
    by_cases isHelper : applet = sslHelper
    · refine file (fs.size + 1) helper ?_
        (kind_copyBinaries_helper binary helper directory noBusybox noHelper)
      rw [entry, if_pos ⟨rfl, isHelper⟩]
    by_cases isBusybox : applet = busybox
    · refine file fs.size binary ?_
        (kind_copyBinaries_busybox binary helper directory noBusybox noHelper)
      rw [entry, if_neg fun same => isHelper same.2, if_pos ⟨rfl, isBusybox⟩]
    · rw [entry, if_neg fun same => isHelper same.2, if_neg fun same => isBusybox same.2] at leads
      obtain ⟨j, found, notDirectory⟩ := taken applet isApplet i leads
      refine ⟨j, grows.lookup_found found, ?_⟩
      rw [grows.isDirectory_eq (lookup_found_lt inside found), notDirectory]

/-- The directory holds its old entries, the two binaries and some applets of the
busybox. Its old names lead nowhere, or where they did and not to a script. -/
structure Furnished (dir : Str) (d : ℕ) (binary helper : Str) (applets : List Name)
    (fs later : FileSystem) : Prop where
  within : Within (copyBinaries d binary helper fs) later
  program : later.kind fs.size = some (.file true binary)
  companion : later.kind (fs.size + 1) = some (.file true helper)
  settled : ∀ name ∈ fs.names d, Plain name ∧
    ((∃ j, fs.lookup d name.1 = .found j ∧ ∀ content, later.kind j = some (.file true content) →
      firstLine content ≠ shebang dir) ∨ ∀ j, later.lookup d name.1 ≠ .found j)
  added : ∀ name i, (copyBinaries d binary helper fs).entry d name = none →
    later.entry d name = some i → name ∈ applets ∧
      (later.kind i = some (.symlink busybox.1) ∨ later.kind i = some (.file true (wrapper dir)))

/-- After the setup loop the directory is furnished. -/
theorem Populated.furnished {full : FileSystem}
    (old : ∀ name ∈ fs.names d, Foreign fs dir d name ∨
      Plain name ∧ ∀ j, full.lookup d name.1 ≠ .found j)
    (populated : Populated busybox.1 (wrapper dir) d (· ∈ applets)
      (copyBinaries d binary helper fs) full) :
    Furnished dir d binary helper applets fs full := by
  have copied := extends_copyBinaries binary helper directory noBusybox noHelper
  refine ⟨populated.extends_.within, ?_, ?_, fun name member => ?_, fun name i free leads => ?_⟩
  · exact populated.extends_.kind _ _
      (kind_copyBinaries_busybox binary helper directory noBusybox noHelper)
  · exact populated.extends_.kind _ _
      (kind_copyBinaries_helper binary helper directory noBusybox noHelper)
  · rcases old name member with ⟨plain, j, found, notScript⟩ | ⟨plain, dangling⟩
    · refine ⟨plain, Or.inl ⟨j, found, ?_⟩⟩
      rwa [(copied.trans populated.extends_).kind_eq
        (lookup_found_lt (lt_size_of_isDirectory directory) found)]
    · exact ⟨plain, Or.inr dangling⟩
  · obtain ⟨listed, -, kind⟩ := populated.created name i free leads
    exact ⟨listed, kind⟩

/-- Every name of the copied directory is one of the binaries or was there before. -/
theorem mem_names_of_copyBinaries {name : Name} {i : ℕ}
    (leads : (copyBinaries d binary helper fs).entry d name = some i) :
    name = sslHelper ∨ name = busybox ∨ name ∈ fs.names d := by
  rw [entry_copyBinaries binary helper directory noBusybox noHelper] at leads
  split at leads
  · rename_i same
    exact Or.inl same.2
  · split at leads
    · rename_i same
      exact Or.inr (Or.inl same.2)
    · exact Or.inr (Or.inr (mem_names_iff.mpr ⟨i, leads⟩))

include helperForeign names in
/-- In a furnished directory, applets can be told apart from the files of before. -/
theorem Furnished.occupied {later : FileSystem}
    (furnished : Furnished dir d binary helper applets fs later) :
    Occupied dir d fs.size (appeared d (copyBinaries d binary helper fs) later)
      (copyBinaries d binary helper fs) later := by
  have copied := extends_copyBinaries binary helper directory noBusybox noHelper
  have entry := entry_copyBinaries binary helper directory noBusybox noHelper
  have helperKind : (copyBinaries d binary helper fs).kind (fs.size + 1) =
      some (.file true helper) :=
    kind_copyBinaries_helper binary helper directory noBusybox noHelper
  have inside := lt_size_of_isDirectory directory
  have isHelper : (copyBinaries d binary helper fs).entry d sslHelper = some (fs.size + 1) := by
    rw [entry, if_pos ⟨rfl, rfl⟩]
  have isBinary : (copyBinaries d binary helper fs).entry d busybox = some fs.size := by
    rw [entry, if_neg fun same => sslHelper_ne_busybox same.2.symm, if_pos ⟨rfl, rfl⟩]
  exact {
    grows := furnished.within
    fresh := fun name isNew => (appeared_eq_true_iff.mp isNew).1
    binary := furnished.within.entry _ _ _ isBinary
    notLink := by simp [target, furnished.program]
    notDirectory := by simp [isDirectory, furnished.program]
    helper := ⟨_, isHelper, by simp [isDirectory, furnished.companion]⟩
    plain := by
      intro name member
      obtain ⟨i, leads⟩ := mem_names_iff.mp member
      cases first : (copyBinaries d binary helper fs).entry d name with
      | none => exact (names name (furnished.added name i first leads).1).1
      | some j =>
        rcases mem_names_of_copyBinaries binary helper directory noBusybox noHelper first with
          rfl | rfl | old
        · decide
        · decide
        · exact (furnished.settled name old).1
    applets := by
      intro name isNew
      obtain ⟨free, i, leads⟩ := appeared_eq_true_iff.mp isNew
      obtain ⟨listed, kind⟩ := furnished.added name i free leads
      obtain ⟨-, shown, operand, mention⟩ := names name listed
      refine ⟨shown, operand, fun infix_ => ?_, i, leads, kind.imp id fun script => ⟨[], script⟩⟩
      -- The only applet that mentions busybox is the busybox, which is no new name.
      rw [mention infix_, isBinary] at free
      exact absurd free (by simp)
    foreign := by
      intro name member old
      obtain ⟨present, -, outside⟩ := mem_visitedNames_iff.mp member
      have first : ∃ i, (copyBinaries d binary helper fs).entry d name = some i := by
        cases leads : (copyBinaries d binary helper fs).entry d name with
        | none =>
          have isNew := appeared_eq_true_iff.mpr ⟨leads, mem_names_iff.mp present⟩
          rw [isNew] at old
          exact absurd old (by simp)
        | some i => exact ⟨i, rfl⟩
      obtain ⟨i, leads⟩ := first
      rcases mem_names_of_copyBinaries binary helper directory noBusybox noHelper leads with
        rfl | rfl | oldName
      · refine Or.inl ⟨fs.size + 1, lookup_entry isHelper (by simp [target, helperKind]),
          Nat.ne_of_gt (Nat.lt_succ_self _), fun content kind => ?_⟩
        rw [furnished.companion] at kind
        obtain rfl : helper = content := by simpa using kind
        exact helperForeign
      -- The visit leaves the busybox out of its words.
      · exact absurd (List.infix_refl _) outside
      · rcases (furnished.settled name oldName).2 with settled | dangling
        · obtain ⟨j, found, notScript⟩ := settled
          exact Or.inl ⟨j, copied.lookup_found found,
            Nat.ne_of_lt (lookup_found_lt inside found), notScript⟩
        · exact Or.inr dangling }

include helperForeign names in
/-- A visit to a furnished directory gives it its old entries back. -/
theorem Furnished.cleanDir_eq {later : FileSystem}
    (furnished : Furnished dir d binary helper applets fs later)
    (odd : FileSystem → ℕ → Str → Bool) (oneLine : '\n' ∉ dir) {cwd : ℕ} (total : ℕ)
    (visited : later.lookup cwd dir = .found d) :
    ∃ cleaned, cleanDir odd ⟨later, cwd, total⟩ dir = ⟨cleaned, d,
        total + (later.names d).countP (appeared d (copyBinaries d binary helper fs) later)⟩ ∧
      (∀ i, cleaned.kind i = later.kind i) ∧
      (∀ e name, e ≠ d → cleaned.entry e name = later.entry e name) ∧
      ∀ name, cleaned.entry d name = fs.entry d name := by
  have copied := extends_copyBinaries binary helper directory noBusybox noHelper
  have entry := entry_copyBinaries binary helper directory noBusybox noHelper
  obtain ⟨cleaned, result, kinds, entries⟩ := (furnished.occupied binary helper directory noBusybox
    noHelper helperForeign names).cleanDir_eq odd oneLine total visited
  refine ⟨cleaned, result, kinds, fun e name elsewhere => ?_, fun name => ?_⟩
  · rw [entries, if_neg fun same => elsewhere same.1]
  · rw [entries]
    split_ifs with gone
    · rcases gone.2 with isNew | rfl | rfl
      · exact (copied.entry_eq_none (appeared_eq_true_iff.mp isNew).1).symm
      · exact noBusybox.symm
      · exact noHelper.symm
    · simp only [true_and, not_or] at gone
      -- Every other name has its entry of before the copies, if it had one.
      obtain ⟨notNew, notBinary, notHelper⟩ := gone
      have same : (copyBinaries d binary helper fs).entry d name = fs.entry d name := by
        rw [entry, if_neg fun same => notHelper same.2, if_neg fun same => notBinary same.2]
      cases first : fs.entry d name with
      | none =>
        cases leads : later.entry d name with
        | none => rfl
        | some i => exact absurd (appeared_eq_true_iff.mpr ⟨same.trans first, i, leads⟩) notNew
      | some i => exact furnished.within.entry _ _ _ (copied.entry _ _ _ first)

end Inverse

/-- A device whose `/xbin` has a command and a link to it. -/
def workshop : FileSystem where
  nodes := [
    .directory true (entriesOf [(Name.named "xbin", 1)]),
    .directory true (entriesOf [(Name.named "cat", 2),
      (Name.named "dog", 3)]),
    .leaf (.file true "ELF".toList),
    .leaf (.symlink "cat".toList)]
  linked := by decide

/-- Applets with a bracket, a name that is taken, a repetition and the busybox. -/
def someApplets : List Name :=
  [Name.named "[", Name.named "[[", busybox, Name.named "cat",
    Name.named "ls", Name.named "ls", Name.named "su"]

theorem workshop_foreign :
    ∀ name ∈ workshop.names 1, Foreign workshop "/xbin".toList 1 name := by
  have both : ∀ name ∈ workshop.names 1, Plain name ∧
      workshop.lookup 1 name.1 = .found 2 := by decide +kernel
  intro name member
  refine ⟨(both name member).1, 2, (both name member).2, fun content kind => ?_⟩
  have known : workshop.kind 2 = some (.file true "ELF".toList) := by decide +kernel
  rw [known] at kind
  obtain rfl : "ELF".toList = content := by simpa using kind
  decide

end BbBot.Applets
