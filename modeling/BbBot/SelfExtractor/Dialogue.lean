/-
# The directory dialogue

In interactive mode the installer asks whether its directory should be changed, and
asks again until it was. A refusal only leads to the next question: there is no way
out but an answer that passes `[ -w $directory ]`. A file passes, and so does an
empty answer, which leaves `[` with one argument that is not empty.
-/

import BbBot.SelfExtractor.Device

namespace BbBot.SelfExtractor

open BbBot.Unix BbBot.Unix.FileSystem BbBot.Installer

/-- A shell that reads answers and changes its directory. -/
structure Terminal (cwd : ℕ) extends DeviceShell cwd where
  /-- `[ $INSTALLDIR == "none" ]` -/
  isNoDir : Str → Bool
  /-- The directory after `cd $value`. -/
  cd : FileSystem → Str → ℕ
  /-- `[ $change == "y" -o $change == "yes" ]` -/
  confirms : Str → Bool
  isNoDir_word : ∀ word, PlainWord word → isNoDir word = decide (word = noDir)
  cd_word : ∀ fs word, PlainWord word → cd fs word = fs.cd cwd word
  confirms_yes : ∀ answer ∈ yesWords, confirms answer = true
  confirms_no : ∀ answer ∈ noWords, confirms answer = false

section Dialogue

-- The answers in the order in which they are read, empty once the input has ended.
variable {cwd : ℕ} (terminal : Terminal cwd) (fs : FileSystem) (answers : ℕ → Str)

/-- The loop, with the number of answers that were read. -/
def dialogue : ℕ → ℕ → Str → Option (ℕ × Str)
  | 0, _, _ => none
  | fuel + 1, k, installdir =>
    if terminal.confirms (answers k) then
      -- `[ -w $directory ]`, without `-d`: a file is as good.
      if terminal.isWritable fs (answers (k + 1)) then some (k + 2, answers (k + 1))
      else dialogue fuel (k + 2) installdir
    -- Any other answer, a refusal as well, leads to the same question again.
    else dialogue fuel (k + 1) installdir

/-- The loop ends after a number of answers, with an installation directory. -/
def EndsWith (installdir : Str) (count : ℕ) (final : Str) : Prop :=
  ∃ fuel, dialogue terminal fs answers fuel 0 installdir = some (count, final)

/-- The answers to the question, among all answers. -/
inductive AtPrompt : ℕ → Prop
  | first : AtPrompt 0
  | declined {k : ℕ} : AtPrompt k → terminal.confirms (answers k) = false → AtPrompt (k + 1)
  | invalid {k : ℕ} : AtPrompt k → terminal.confirms (answers k) = true →
    terminal.isWritable fs (answers (k + 1)) = false → AtPrompt (k + 2)

/-- A refusal ends the loop and changes nothing, a writable directory ends it and is
taken, and in any case it ends with a writable directory if it started with one. -/
structure EndsSafely (installdir : Str) : Prop where
  declined : ∀ k, AtPrompt terminal fs answers k → answers k ∈ noWords →
    EndsWith terminal fs answers installdir (k + 1) installdir
  changed : ∀ k, AtPrompt terminal fs answers k → answers k ∈ yesWords →
    accessible fs cwd (answers (k + 1)) = true →
      EndsWith terminal fs answers installdir (k + 2) (answers (k + 1))
  usable : accessible fs cwd installdir = true →
    ∀ count final, EndsWith terminal fs answers installdir count final →
      accessible fs cwd final = true

/-- The user never refuses, types nothing that passes the test and is no writable
directory, and no writable directory that the test cannot read. -/
structure Cooperates (installdir : Str) : Prop where
  accepts : ∀ k, AtPrompt terminal fs answers k → answers k ∉ noWords
  directory : accessible fs cwd installdir = true →
    ∀ k, AtPrompt terminal fs answers k → terminal.confirms (answers k) = true →
      terminal.isWritable fs (answers (k + 1)) = true → accessible fs cwd (answers (k + 1)) = true
  readable : ∀ k, AtPrompt terminal fs answers k → answers k ∈ yesWords →
    accessible fs cwd (answers (k + 1)) = true → terminal.isWritable fs (answers (k + 1)) = true

/-! ## One round -/

variable {terminal fs answers}

theorem dialogue_declined {k : ℕ} (declines : terminal.confirms (answers k) = false)
    (fuel : ℕ) (installdir : Str) :
    dialogue terminal fs answers (fuel + 1) k installdir =
      dialogue terminal fs answers fuel (k + 1) installdir := by
  rw [dialogue, declines, if_neg Bool.false_ne_true]

theorem dialogue_invalid {k : ℕ} (confirms : terminal.confirms (answers k) = true)
    (invalid : terminal.isWritable fs (answers (k + 1)) = false) (fuel : ℕ) (installdir : Str) :
    dialogue terminal fs answers (fuel + 1) k installdir =
      dialogue terminal fs answers fuel (k + 2) installdir := by
  rw [dialogue, if_pos confirms, invalid, if_neg Bool.false_ne_true]

theorem dialogue_changed {k : ℕ} (confirms : terminal.confirms (answers k) = true)
    (writable : terminal.isWritable fs (answers (k + 1)) = true) (fuel : ℕ) (installdir : Str) :
    dialogue terminal fs answers (fuel + 1) k installdir = some (k + 2, answers (k + 1)) := by
  rw [dialogue, if_pos confirms, if_pos writable]

/-! ## The whole loop -/

/-- The loop ends at a question only by a directory that passes the test. -/
theorem dialogue_eq_some {fuel k count : ℕ} {installdir final : Str}
    (asked : AtPrompt terminal fs answers k)
    (ends : dialogue terminal fs answers fuel k installdir = some (count, final)) :
    ∃ j, k ≤ j ∧ AtPrompt terminal fs answers j ∧ terminal.confirms (answers j) = true ∧
      terminal.isWritable fs (answers (j + 1)) = true ∧ count = j + 2 ∧
      final = answers (j + 1) := by
  induction fuel generalizing k with
  -- Without a round left nothing is returned.
  | zero => exact absurd ends (by simp [dialogue])
  | succ fuel ih =>
    cases confirms : terminal.confirms (answers k) with
    | false =>
      rw [dialogue_declined confirms] at ends
      obtain ⟨j, later, found⟩ := ih (asked.declined confirms) ends
      exact ⟨j, by omega, found⟩
    | true =>
      cases writable : terminal.isWritable fs (answers (k + 1)) with
      | false =>
        rw [dialogue_invalid confirms writable] at ends
        obtain ⟨j, later, found⟩ := ih (asked.invalid confirms writable) ends
        exact ⟨j, by omega, found⟩
      | true =>
        rw [dialogue_changed confirms writable] at ends
        obtain ⟨rfl, rfl⟩ := Prod.mk.inj (Option.some.inj ends)
        exact ⟨k, le_refl k, asked, confirms, writable, rfl, rfl⟩

/-- The loop gets to every question that is asked. -/
theorem dialogue_reaches {k : ℕ} (asked : AtPrompt terminal fs answers k) :
    ∃ rounds, ∀ fuel installdir, dialogue terminal fs answers (fuel + rounds) 0 installdir =
      dialogue terminal fs answers fuel k installdir := by
  induction asked with
  | first => exact ⟨0, fun _ _ => rfl⟩
  -- One more round, after those that lead to the question before.
  | declined _ declines ih =>
    obtain ⟨rounds, reach⟩ := ih
    refine ⟨rounds + 1, ?_⟩
    intro fuel installdir
    rw [← dialogue_declined declines, ← reach, Nat.add_right_comm, Nat.add_assoc]
  | invalid _ confirms unwritable ih =>
    obtain ⟨rounds, reach⟩ := ih
    refine ⟨rounds + 1, ?_⟩
    intro fuel installdir
    rw [← dialogue_invalid confirms unwritable, ← reach, Nat.add_right_comm, Nat.add_assoc]

/-- More rounds do not change how the loop ends. -/
theorem dialogue_mono {fuel k : ℕ} {installdir : Str} {result : ℕ × Str}
    (ends : dialogue terminal fs answers fuel k installdir = some result) (more : ℕ) :
    dialogue terminal fs answers (fuel + more) k installdir = some result := by
  induction fuel generalizing k with
  | zero => exact absurd ends (by simp [dialogue])
  | succ fuel ih =>
    rw [Nat.add_right_comm]
    cases confirms : terminal.confirms (answers k) with
    | false =>
      rw [dialogue_declined confirms] at ends ⊢
      exact ih ends
    | true =>
      cases writable : terminal.isWritable fs (answers (k + 1)) with
      | false =>
        rw [dialogue_invalid confirms writable] at ends ⊢
        exact ih ends
      | true =>
        rw [dialogue_changed confirms writable] at ends ⊢
        exact ends

/-- At a question, the loop has read the answers before it and no more than it needs. -/
theorem EndsWith.of_asked {k count : ℕ} {installdir final : Str}
    (ends : EndsWith terminal fs answers installdir count final)
    (asked : AtPrompt terminal fs answers k) :
    ∃ fuel, dialogue terminal fs answers fuel k installdir = some (count, final) := by
  obtain ⟨fuel, ends⟩ := ends
  obtain ⟨rounds, reach⟩ := dialogue_reaches asked
  exact ⟨fuel, by rw [← reach, dialogue_mono ends]⟩

theorem endsWith_of_changed {k : ℕ} (asked : AtPrompt terminal fs answers k)
    (confirms : terminal.confirms (answers k) = true)
    (writable : terminal.isWritable fs (answers (k + 1)) = true) (installdir : Str) :
    EndsWith terminal fs answers installdir (k + 2) (answers (k + 1)) := by
  obtain ⟨rounds, reach⟩ := dialogue_reaches asked
  exact ⟨1 + rounds, by rw [reach, dialogue_changed confirms writable]⟩

/-- A refusal never ends the loop. -/
theorem not_endsWith_of_declined {k : ℕ} (asked : AtPrompt terminal fs answers k)
    (installdir final : Str) : ¬ EndsWith terminal fs answers installdir (k + 1) final := by
  intro ends
  obtain ⟨fuel, ends⟩ := ends.of_asked asked
  -- Ending at a question takes at least two answers from there on.
  obtain ⟨j, later, -, -, -, count, -⟩ := dialogue_eq_some asked ends
  omega

variable (terminal fs answers) in
/-- For every sequence of answers, the dialogue ends where it should and with a
directory that can be used exactly when the user cooperates. -/
theorem endsSafely_iff (installdir : Str) :
    EndsSafely terminal fs answers installdir ↔ Cooperates terminal fs answers installdir := by
  constructor
  · intro safe
    constructor
    · intro k asked refuses
      exact not_endsWith_of_declined asked installdir _ (safe.declined k asked refuses)
    · intro before k asked confirms writable
      -- The loop takes what the test passes, so that has to be a directory.
      exact safe.usable before _ _ (endsWith_of_changed asked confirms writable installdir)
    · intro k asked yes directory
      -- The loop ends after this answer, so this answer passed the test.
      obtain ⟨fuel, ends⟩ := (safe.changed k asked yes directory).of_asked asked
      obtain ⟨j, -, -, -, writable, count, -⟩ := dialogue_eq_some asked ends
      obtain rfl : j = k := by omega
      exact writable
  · intro cooperates
    constructor
    · intro k asked refuses
      -- There is no refusal to be respected.
      exact absurd refuses (cooperates.accepts k asked)
    · intro k asked yes directory
      exact endsWith_of_changed asked (terminal.confirms_yes _ yes)
        (cooperates.readable k asked yes directory) installdir
    · rintro before count final ⟨fuel, ends⟩
      obtain ⟨j, -, asked, confirms, writable, -, rfl⟩ := dialogue_eq_some .first ends
      exact cooperates.directory before j asked confirms writable

end Dialogue

/-! ## A terminal -/

/-- Confirmations are single words, and `cd` takes one. -/
def wordTerminal (cwd : ℕ) : Terminal cwd where
  toDeviceShell := wordShell cwd
  isNoDir := fun value => value = noDir
  cd := fun fs value =>
    match fields value with
    | [word] => fs.cd cwd word
    | _ => cwd
  confirms := fun answer => answer ∈ yesWords
  isNoDir_word := by
    intro word _
    rfl
  cd_word := by
    intro fs word plain
    rw [fields_unsplit plain.1]
  confirms_yes := by
    intro answer yes
    exact decide_eq_true yes
  confirms_no := by decide

/-- A device with a directory and a file. -/
def smallDevice : FileSystem where
  nodes := [
    .directory true (entriesOf [(Name.named "xbin", 1), (Name.named "hosts", 2)]),
    .directory true (entriesOf []),
    .leaf (.file false [])]
  linked := by decide

/-- A refusal is never accepted, and neither a file nor an empty answer is refused. -/
theorem refusal_not_accepted :
    (∀ count final, ¬ EndsWith (wordTerminal root) smallDevice (fun _ => "n".toList)
        "/xbin".toList count final) ∧
      ¬ EndsSafely (wordTerminal root) smallDevice (fun _ => "n".toList) "/xbin".toList ∧
      EndsWith (wordTerminal root) smallDevice
        (fun k => if k = 0 then "y".toList else "/hosts".toList) "/xbin".toList 2
        "/hosts".toList ∧
      EndsWith (wordTerminal root) smallDevice (fun k => if k = 0 then "y".toList else [])
        "/xbin".toList 2 [] ∧
      accessible smallDevice root "/xbin".toList = true ∧
      accessible smallDevice root "/hosts".toList = false ∧
      accessible smallDevice root [] = false := by
  have declines : (wordTerminal root).confirms "n".toList = false := by decide
  have never (count : ℕ) (final : Str) : ¬ EndsWith (wordTerminal root) smallDevice
      (fun _ => "n".toList) "/xbin".toList count final := by
    rintro ⟨fuel, ends⟩
    obtain ⟨j, -, -, confirms, -⟩ := dialogue_eq_some .first ends
    rw [declines] at confirms
    exact absurd confirms (by simp)
  refine ⟨never, ?_, ⟨1, by decide +kernel⟩, ⟨1, by decide +kernel⟩, by decide +kernel,
    by decide +kernel, by decide +kernel⟩
  intro safe
  exact never _ _ (safe.declined 0 .first (by decide))

end BbBot.SelfExtractor
