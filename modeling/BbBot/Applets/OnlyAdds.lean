/-
# Setting up applets adds entries

The setup loops are meant to add entries under applet names and to leave
everything else alone. Nothing that exists is ever changed: a script is written
only where no file is found. But it is written where the name leads, and a
dangling link leads away from the directory or to a name that is no applet. And
`ln` makes its link inside a directory that the name leads to.

Where a name leads is settled before the loop, so the condition under which a
loop keeps to its directory is one on the file system it starts from.
-/

import BbBot.Applets.Blacklist

namespace BbBot.Applets

open BbBot.Unix BbBot.Unix.FileSystem BbBot.Cleaning

/-- Nothing changed, but that entries under applet names appeared in the directory. -/
def OnlyAdds (d : ℕ) (applets : List Name) (before after : FileSystem) : Prop :=
  (∀ i < before.size, after.kind i = before.kind i) ∧
    ∀ e name, after.entry e name = before.entry e name ∨
      before.entry e name = none ∧ e = d ∧ name ∈ applets

/-- An applet that is not skipped and leads to a free entry leads to one of an
applet in the directory. One that leads to a directory, and is linked, finds a
busybox there. -/
def Contained (skip : Str → Bool) (d : ℕ) (leads : Name → Lookup) (fs : FileSystem)
    (applets : List Name) (rounds : List (Str × Bool)) : Prop :=
  ∀ applet ∈ applets, skip applet.1 = false →
    (∀ p name, leads applet = .missing p name → p = d ∧ name ∈ applets) ∧
      ((applet.1, true) ∈ rounds → ∀ j, leads applet = .found j → fs.isDirectory j = true →
        fs.entry j busybox ≠ none)

section Loop

variable {target script : Str} {cwd d links : ℕ} {operandOf : Str → Str} {fs : FileSystem}
  (skip : Str → Bool) {install : FileSystem → Str × Bool → Except FileSystem FileSystem}
  {applets : List Name} {rounds : List (Str × Bool)}
  (anchored : Anchored target d fs)
  (operands : ∀ applet ∈ applets, Operand fs cwd (operandOf applet.1) d links applet)
  (installs : ∀ current round, outcome (install current round) =
    outcome (installApplet cwd target script (operandOf round.1) current round.2))
  (words : ∀ round ∈ rounds, ∃ applet ∈ applets, applet.1 = round.1)

include operands

/-- Linking an applet that leads to a directory leaves a busybox entry there. -/
theorem installApplet_inside {applet : Name} (isApplet : applet ∈ applets) {j : ℕ}
    (found : fs.lookup cwd (operandOf applet.1) = .found j) (directory : fs.isDirectory j = true)
    {current : FileSystem} (grown : Grown target d fs current) :
    ∃ i, (outcome (installApplet cwd target script (operandOf applet.1) current true)).entry j
      busybox = some i := by
  have entry := operands applet isApplet
  rw [entry.lookup fs (Extends.refl fs)] at found
  have directoryNow := grown.extends_.isDirectory directory
  rw [installApplet_directory target script (entry.trans grown.extends_)
    (grown.extends_.walk_found found) directoryNow]
  change ∃ i, (current.symlink j busybox target).entry j busybox = some i
  rw [symlink]
  split
  · exact ⟨current.size, by rw [entry_create directoryNow, if_pos ⟨rfl, rfl⟩]⟩
  · rename_i taken
    have present : current.entry j busybox ≠ none := by
      intro absent
      exact taken ⟨directoryNow, absent⟩
    exact Option.ne_none_iff_exists'.mp present

include anchored installs words

/-- A loop over contained applets adds entries, also when it is stopped. -/
theorem appletLoop_onlyAdds
    (contained : Contained skip d (fun applet => fs.lookup cwd (operandOf applet.1)) fs applets
      rounds) :
    OnlyAdds d applets fs (outcome (appletLoop skip install fs rounds)) := by
  -- Along the loop, each entry is as before or a new one of an applet.
  let reached (state : FileSystem) : Prop :=
    Grown target d fs state ∧ ∀ e name, state.entry e name = fs.entry e name ∨
      fs.entry e name = none ∧ e = d ∧ name ∈ applets
  have runs : reached (outcome (appletLoop skip install fs rounds)) := by
    apply appletLoop_outcome reached
    · intro current now round member notSkipped
      obtain ⟨grown, entries⟩ := now
      obtain ⟨applet, isApplet, named⟩ := words round member
      have entry := operands applet isApplet
      have lookup := entry.lookup fs (Extends.refl fs)
      obtain ⟨free, inside⟩ := contained applet isApplet (named ▸ notSkipped)
      rw [installs, ← named]
      obtain ⟨more, -, added⟩ := installApplet_grown script grown anchored entry round.2
      refine ⟨more, ?_⟩
      intro e name
      rcases added e name with same | missing | ⟨linked, rfl, found, directory, absent⟩
      · rw [same]
        exact entries e name
      -- The round has filled the entry that the name led to.
      · obtain ⟨here, isName⟩ := free e name (lookup.trans missing)
        exact Or.inr ⟨(walk_missing missing).2, here, isName⟩
      -- A link inside of a directory, where there should have been a busybox.
      · have isRound : (applet.1, true) ∈ rounds := by
          rw [named, ← linked]
          exact member
        exact absurd absent (inside isRound e (lookup.trans found) directory)
    · exact ⟨Grown.refl fs, fun e name => Or.inl rfl⟩
  exact ⟨fun i old => runs.1.extends_.kind_eq old, runs.2⟩

/-- A loop that ends has only added entries exactly when its applets are contained. -/
theorem appletLoop_onlyAdds_iff
    (listed : ∀ applet ∈ applets, applet.1 ∈ rounds.map Prod.fst) {after : FileSystem}
    (ends : appletLoop skip install fs rounds = .ok after) :
    OnlyAdds d applets fs after ↔
      Contained skip d (fun applet => fs.lookup cwd (operandOf applet.1)) fs applets rounds := by
  constructor
  · intro onlyAdds applet isApplet notSkipped
    have entry := operands applet isApplet
    have lookup := entry.lookup fs (Extends.refl fs)
    constructor
    · intro p name missing
      obtain ⟨i, created⟩ := appletLoop_creates skip anchored operands installs words isApplet
        notSkipped (listed applet isApplet) missing ends
      have free : fs.entry p name = none := by
        dsimp only at missing
        rw [lookup] at missing
        exact (walk_missing missing).2
      rcases onlyAdds.2 p name with same | ⟨-, here, isName⟩
      · rw [created, free] at same
        exact absurd same (by simp)
      · exact ⟨here, isName⟩
    · intro isRound j found directory absent
      obtain ⟨i, created⟩ := appletLoop_entry skip anchored operands installs words isApplet
        notSkipped isRound (fun current grown => installApplet_inside operands isApplet
          found directory grown) ends
      rcases onlyAdds.2 j busybox with same | ⟨-, here, -⟩
      · rw [created, absent] at same
        exact absurd same (by simp)
      · -- The directory itself has a busybox.
        obtain ⟨i, present⟩ := anchored.present
        rw [here, present] at absent
        exact absurd absent (by simp)
  · intro contained
    have onlyAdds := appletLoop_onlyAdds skip anchored operands installs words contained
    rwa [ends] at onlyAdds

end Loop

/-- A vendor's directory: a name that dangles outside of it and one of a directory. -/
def vendor : FileSystem where
  nodes := [
    .directory true (entriesOf [(Name.named "xbin", 1)]),
    .directory true (entriesOf [(busybox, 2), (Name.named "sh", 3), (Name.named "ash", 4)]),
    .leaf (.file true "BB".toList),
    .leaf (.symlink "/toybox".toList),
    .directory true (entriesOf [])]
  linked := by decide

end BbBot.Applets
