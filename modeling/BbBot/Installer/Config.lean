/-
# Reading bbx.conf

`base_installer.sh` and the self-extracting installer read the same configuration
file with loops of their own. A word is an option and a value: the option is what
stands before the last equals sign, the value what follows the first one, and a
word without an equals sign is both. The last valid `installdir` wins, and a
directory that does not exist is created on the way.

The loops differ in how they read the value of `selinux`. One compares it as text
and the other as a number.

What the tests of the shell say about a value, and what `mkdir` does, is a
parameter: the scripts expand values unquoted, so the outcome depends on the words
and patterns in them.
-/

import BbBot.Unix.Text
import BbBot.Unix.Reading

namespace BbBot.Installer

open BbBot.Unix

/-- The commands that the installers run on a value, as a function of the device's
state. A test gives its status, with the value expanded unquoted. -/
structure Shell (σ : Type*) where
  /-- The words that an unquoted word expands to. -/
  expand : σ → Str → List Str
  /-- `[ -z $value ]` -/
  isEmpty : Str → Bool
  /-- `[ -e $value ]` -/
  isThere : σ → Str → Bool
  /-- `[ -d $value -a -w $value ]` -/
  isAccessible : σ → Str → Bool
  /-- `[ -w $value ]` -/
  isWritable : σ → Str → Bool
  /-- `mkdir $value`, none when it fails. -/
  mkdir : σ → Str → Option σ
  /-- `[ $value -eq 0 -o $value -eq 1 ]` -/
  isBit : Str → Bool
  /-- `[ $value -eq 1 ]` -/
  isOne : Str → Bool
  isEmpty_nil : isEmpty [] = true
  isEmpty_word : ∀ word, Unsplit word → isEmpty word = false
  isThere_mkdir : ∀ state word next, Unsplit word → mkdir state word = some next →
    isThere next word = true
  isBit_zero : isBit ['0'] = true
  isBit_one : isBit ['1'] = true
  isOne_zero : isOne ['0'] = false
  isOne_one : isOne ['1'] = true
  isEmpty_of_isBit : ∀ value, isBit value = true → isEmpty value = false

/-- The settings that a configuration can change, and the device it is read on. -/
structure Settings (σ : Type*) where
  installdir : Str
  noclean : Bool
  selstat : Str
  state : σ

/-- The value of `INSTALLDIR` before anything was read. -/
def noDir : Str := "none".toList

/-- The options of a configuration. -/
def selinuxOption : Str := "selinux".toList

def nocleanOption : Str := "noclean".toList

def installdirOption : Str := "installdir".toList

section Reading

variable {σ : Type*} (shell : Shell σ)

/-- The words of the first configuration file that exists, of those on `/sdcard`,
`/data` and `/cache`. -/
def confWords (files : List (Option Str)) (state : σ) : List Str :=
  match (files.filterMap id).head? with
  -- `for line in $(cat file)`: words of the file, expanded in turn.
  | some text => (fields text).flatMap (shell.expand state)
  | none => []

/-- The `installdir` branch. It stops with the directory that cannot be created. -/
def setInstalldir (value : Str) (settings : Settings σ) : Except Str (Settings σ) :=
  if shell.isEmpty value then .ok settings
  else if shell.isThere settings.state value then
    if shell.isAccessible settings.state value then .ok { settings with installdir := value }
    else .ok settings
  else
    -- A path that does not exist is created and taken, or ends the script.
    match shell.mkdir settings.state value with
    | some next => .ok { settings with installdir := value, state := next }
    | none => .error value

/-- The texts of `SELSTAT` in `base_installer.sh`. -/
def selText (enabled override : Bool) : Str :=
  (if enabled then "ENABLED".toList else "DISABLED".toList) ++
    if override then " (user override)".toList else []

/-- One word, as `base_installer.sh` reads it. -/
def baseWord (settings : Settings σ) (line : Str) : Except Str (Settings σ) :=
  let option := beforeLast '=' line
  let value := afterFirst '=' line
  if option = selinuxOption then
    -- `case` compares the value as text.
    if value = ['0'] then .ok { settings with selstat := selText false true }
    else if value = ['1'] then .ok { settings with selstat := selText true true }
    else .ok settings
  else if option = nocleanOption then .ok { settings with noclean := true }
  else if option = installdirOption then setInstalldir shell value settings
  else .ok settings

/-- One word, as the self-extracting installer reads it. -/
def seeWord (settings : Settings σ) (line : Str) : Except Str (Settings σ) :=
  let option := beforeLast '=' line
  let value := afterFirst '=' line
  if option = selinuxOption then
    -- `[ $value -eq 0 -o $value -eq 1 ]` compares it as a number.
    if shell.isBit value then .ok { settings with selstat := value } else .ok settings
  else if option = nocleanOption then .ok { settings with noclean := true }
  else if option = installdirOption then setInstalldir shell value settings
  else .ok settings

/-- The settings with which `base_installer.sh` starts to read, where `present` says
whether the kernel has SELinux. -/
def baseStart (present : Bool) (state : σ) : Settings σ :=
  ⟨noDir, false, selText present false, state⟩

/-- The settings with which the self-extracting installer starts to read. -/
def seeStart (state : σ) : Settings σ := ⟨noDir, false, [], state⟩

/-- The loop of `base_installer.sh` over the words of a configuration. -/
def baseConf (present : Bool) (words : List Str) (state : σ) : Except Str (Settings σ) :=
  readAll (baseWord shell) words (baseStart present state)

/-- The loop of the self-extracting installer. -/
def seeConf (words : List Str) (state : σ) : Except Str (Settings σ) :=
  readAll (seeWord shell) words (seeStart state)

/-- `BBSEL=-sel`: does `grep` find `ENABLED` in the text? -/
def baseSel (settings : Settings σ) : Bool := decide ("ENABLED".toList <:+: settings.selstat)

/-- `$BBX-sel`, after the default was put in. -/
def seeSel (present : Bool) (settings : Settings σ) : Bool :=
  shell.isOne (if shell.isEmpty settings.selstat then (if present then ['1'] else ['0'])
    else settings.selstat)

/-! ## The two readers -/

/-- Two readers whose settings differ in `SELSTAT` only. -/
def Alike (base see : Settings σ) : Prop :=
  base.installdir = see.installdir ∧ base.noclean = see.noclean ∧ base.state = see.state

/-- A directory is set alike, or cannot be created alike. -/
theorem setInstalldir_alike (value : Str) {base see : Settings σ} (alike : Alike base see) :
    (∃ base' see', setInstalldir shell value base = .ok base' ∧
        setInstalldir shell value see = .ok see' ∧ Alike base' see') ∨
      ∃ stop, setInstalldir shell value base = .error stop ∧
        setInstalldir shell value see = .error stop := by
  obtain ⟨dir, clean, same⟩ := alike
  unfold setInstalldir
  rw [same]
  split
  · exact Or.inl ⟨base, see, rfl, rfl, dir, clean, same⟩
  · split
    · split
      · exact Or.inl ⟨_, _, rfl, rfl, rfl, clean, rfl⟩
      · exact Or.inl ⟨base, see, rfl, rfl, dir, clean, same⟩
    · split
      · exact Or.inl ⟨_, _, rfl, rfl, rfl, clean, rfl⟩
      · exact Or.inr ⟨value, rfl, rfl⟩

/-- A word is read alike. -/
theorem word_alike (line : Str) {base see : Settings σ} (alike : Alike base see) :
    (∃ base' see', baseWord shell base line = .ok base' ∧ seeWord shell see line = .ok see' ∧
        Alike base' see') ∨
      ∃ stop, baseWord shell base line = .error stop ∧ seeWord shell see line = .error stop := by
  unfold baseWord seeWord
  dsimp only
  split
  · -- The value of `selinux` changes nothing else, whichever way it is read.
    left
    have other : ∃ see', (if shell.isBit (afterFirst '=' line) then
          (Except.ok { see with selstat := afterFirst '=' line } : Except Str (Settings σ))
        else .ok see) = .ok see' ∧ Alike base see' := by
      split
      · exact ⟨_, rfl, alike⟩
      · exact ⟨_, rfl, alike⟩
    obtain ⟨see', read, still⟩ := other
    rw [read]
    split
    · exact ⟨_, see', rfl, rfl, still⟩
    · split
      · exact ⟨_, see', rfl, rfl, still⟩
      · exact ⟨_, see', rfl, rfl, still⟩
  · split
    · exact Or.inl ⟨_, _, rfl, rfl, alike.1, rfl, alike.2.2⟩
    · split
      · exact setInstalldir_alike shell _ alike
      · exact Or.inl ⟨_, _, rfl, rfl, alike⟩

/-- Whole configurations are read alike. -/
theorem conf_alike (present : Bool) (words : List Str) (state : σ) :
    (∃ base see, baseConf shell present words state = .ok base ∧
        seeConf shell words state = .ok see ∧ Alike base see) ∨
      ∃ stop, baseConf shell present words state = .error stop ∧
        seeConf shell words state = .error stop := by
  apply readAll_related Alike
  · intro line _ base see alike
    exact word_alike shell line alike
  · exact ⟨rfl, rfl, rfl⟩

/-! ## The value of selinux -/

/-- The value that a word gives to `selinux`. -/
def selinuxValue (line : Str) : Option Str :=
  if beforeLast '=' line = selinuxOption then some (afterFirst '=' line) else none

/-- A value that is spelled exactly as the scripts ask for it. -/
def isExact (value : Str) : Bool := value = ['0'] || value = ['1']

/-- `setInstalldir` leaves `SELSTAT` alone. -/
theorem selstat_setInstalldir {value : Str} {settings next : Settings σ}
    (result : setInstalldir shell value settings = .ok next) :
    next.selstat = settings.selstat := by
  unfold setInstalldir at result
  split_ifs at result
  · rw [← Except.ok.inj result]
  · rw [← Except.ok.inj result]
  · rw [← Except.ok.inj result]
  · split at result
    · rw [← Except.ok.inj result]
    · exact absurd result (by simp)

/-- What a word makes of `SELSTAT` in `base_installer.sh`. -/
theorem selstat_baseWord {line : Str} {settings next : Settings σ}
    (result : baseWord shell settings line = .ok next) :
    next.selstat = (((selinuxValue line).filter isExact).map fun value =>
      selText (value == ['1']) true).getD settings.selstat := by
  unfold baseWord at result
  dsimp only at result
  unfold selinuxValue
  split_ifs at result with option zero one
  · rw [← Except.ok.inj result, if_pos option, zero]
    rfl
  · rw [← Except.ok.inj result, if_pos option, one]
    rfl
  · rw [← Except.ok.inj result, if_pos option, Option.filter_some, if_neg]
    · rfl
    · simp [isExact, zero, one]
  · rw [← Except.ok.inj result, if_neg option]
    rfl
  · rw [selstat_setInstalldir shell result, if_neg option]
    rfl
  · rw [← Except.ok.inj result, if_neg option]
    rfl

/-- What a word makes of `SELSTAT` in the self-extracting installer. -/
theorem selstat_seeWord {line : Str} {settings next : Settings σ}
    (result : seeWord shell settings line = .ok next) :
    next.selstat = ((selinuxValue line).filter shell.isBit).getD settings.selstat := by
  unfold seeWord at result
  dsimp only at result
  unfold selinuxValue
  split_ifs at result with option bit
  · rw [← Except.ok.inj result, if_pos option, Option.filter_some, if_pos bit]
    rfl
  · rw [← Except.ok.inj result, if_pos option, Option.filter_some, if_neg bit]
    rfl
  · rw [← Except.ok.inj result, if_neg option]
    rfl
  · rw [selstat_setInstalldir shell result, if_neg option]
    rfl
  · rw [← Except.ok.inj result, if_neg option]
    rfl

/-- The value of the last word that gives `selinux` a value of some kind. -/
def lastValue (kind : Str → Bool) (words : List Str) : Option Str :=
  ((words.filterMap selinuxValue).filter kind).getLast?

theorem lastValue_cons (kind : Str → Bool) (line : Str) (words : List Str) :
    lastValue kind (line :: words) =
      (lastValue kind words).or ((selinuxValue line).filter kind) := by
  unfold lastValue
  rw [List.filterMap_cons]
  cases selinuxValue line with
  | none => simp
  | some value =>
    cases holds : kind value with
    | false =>
      dsimp only
      rw [List.filter_cons_of_neg (by simp [holds]), Option.filter_some, if_neg (by simp [holds]),
        Option.or_none]
    | true =>
      rw [List.filter_cons_of_pos holds, List.getLast?_cons, Option.filter_some, if_pos holds]
      cases ((words.filterMap selinuxValue).filter kind).getLast? <;> rfl

/-- `SELSTAT` of `base_installer.sh` after a whole configuration. -/
theorem selstat_baseConf {words : List Str} {settings final : Settings σ}
    (ends : readAll (baseWord shell) words settings = .ok final) :
    final.selstat = ((lastValue isExact words).map fun value =>
      selText (value == ['1']) true).getD settings.selstat := by
  induction words generalizing settings with
  | nil =>
    rw [← Except.ok.inj ends]
    rfl
  | cons line words ih =>
    obtain ⟨next, result, ends⟩ := readAll_cons_ok ends
    -- The words that follow have the last say.
    rw [ih ends, selstat_baseWord shell result, lastValue_cons]
    cases lastValue isExact words <;> rfl

/-- `SELSTAT` of the self-extracting installer after a whole configuration. -/
theorem selstat_seeConf {words : List Str} {settings final : Settings σ}
    (ends : readAll (seeWord shell) words settings = .ok final) :
    final.selstat = (lastValue shell.isBit words).getD settings.selstat := by
  induction words generalizing settings with
  | nil =>
    rw [← Except.ok.inj ends]
    rfl
  | cons line words ih =>
    obtain ⟨next, result, ends⟩ := readAll_cons_ok ends
    -- The words that follow have the last say.
    rw [ih ends, selstat_seeWord shell result, lastValue_cons]
    cases lastValue shell.isBit words <;> rfl

/-- The variant that the exactly spelled values ask for. -/
def exactSel (present : Bool) (words : List Str) : Bool :=
  ((lastValue isExact words).map (· == ['1'])).getD present

/-- The last value of `selinux` that is 0 or 1 as a number is spelled so, or is the
number that the exactly spelled values ask for. -/
def SpelledOut (present : Bool) (words : List Str) : Prop :=
  ∀ value, lastValue shell.isBit words = some value →
    isExact value = true ∨ shell.isOne value = exactSel present words

/-- Only the texts of an enabled support contain `ENABLED`. -/
theorem enabled_selText (enabled override : Bool) :
    decide ("ENABLED".toList <:+: selText enabled override) = enabled := by
  cases enabled <;> cases override <;> decide +kernel

theorem baseSel_baseConf {present : Bool} {words : List Str} {state : σ} {final : Settings σ}
    (ends : baseConf shell present words state = .ok final) :
    baseSel final = exactSel present words := by
  have selstat := selstat_baseConf shell ends
  unfold baseSel exactSel
  cases last : lastValue isExact words with
  | none =>
    -- No exact value was read, and the text is still that of the kernel.
    have text : final.selstat = selText present false := by
      rw [selstat, last]
      rfl
    rw [text, enabled_selText, Option.map_none, Option.getD_none]
  | some value =>
    have text : final.selstat = selText (value == ['1']) true := by
      rw [selstat, last]
      rfl
    rw [text, enabled_selText, Option.map_some, Option.getD_some]

theorem seeSel_seeConf {present : Bool} {words : List Str} {state : σ} {final : Settings σ}
    (ends : seeConf shell words state = .ok final) :
    seeSel shell present final =
      ((lastValue shell.isBit words).map shell.isOne).getD present := by
  rw [seeSel, selstat_seeConf shell ends]
  cases last : lastValue shell.isBit words with
  | none =>
    -- Nothing was read that counts, so the default is put in afterwards.
    have empty : shell.isEmpty (Option.getD none (seeStart state).selstat) = true :=
      shell.isEmpty_nil
    rw [empty, if_pos rfl]
    cases present
    · exact shell.isOne_zero
    · exact shell.isOne_one
  | some value =>
    have bit : shell.isBit value = true := (List.mem_filter.mp (List.mem_of_getLast? last)).2
    rw [Option.getD_some, shell.isEmpty_of_isBit value bit]
    rfl

/-- When the last number is spelled exactly, it is the last such value. -/
theorem lastValue_isExact {words : List Str} {value : Str}
    (last : lastValue shell.isBit words = some value) (exact_ : isExact value = true) :
    lastValue isExact words = some value := by
  have isBit (v : Str) (spelled : isExact v = true) : shell.isBit v = true := by
    rcases (by simpa [isExact] using spelled : v = ['0'] ∨ v = ['1']) with rfl | rfl
    · exact shell.isBit_zero
    · exact shell.isBit_one
  -- The exact values are some of the numbers, and the last number is one of them.
  have nested : (words.filterMap selinuxValue).filter isExact =
      ((words.filterMap selinuxValue).filter shell.isBit).filter isExact := by
    rw [List.filter_filter]
    apply List.filter_congr
    intro v _
    cases spelled : isExact v with
    | false => rfl
    | true => simp [isBit v spelled]
  obtain ⟨front, whole⟩ := List.getLast?_eq_some_iff.mp last
  rw [lastValue, nested, whole, List.filter_append, List.filter_cons_of_pos exact_]
  simp

/-- Without a number there is no exact value either. -/
theorem lastValue_isExact_none {words : List Str} (last : lastValue shell.isBit words = none) :
    lastValue isExact words = none := by
  rw [lastValue, List.getLast?_eq_none_iff, List.filter_eq_nil_iff] at last ⊢
  intro v member spelled
  apply last v member
  rcases (by simpa [isExact] using spelled : v = ['0'] ∨ v = ['1']) with rfl | rfl
  · exact shell.isBit_zero
  · exact shell.isBit_one

/-- The readers end with the same settings, or stop at the same directory. -/
def SameReading (present : Bool) (words : List Str) (state : σ) : Prop :=
  (∃ base see, baseConf shell present words state = .ok base ∧
      seeConf shell words state = .ok see ∧ base.installdir = see.installdir ∧
      base.noclean = see.noclean ∧ baseSel base = seeSel shell present see) ∨
    ∃ dir, baseConf shell present words state = .error dir ∧
      seeConf shell words state = .error dir

end Reading

/-! ## A shell -/

/-- An integer as `-eq` reads it. -/
def integer (word : Str) : Option ℤ :=
  match word with
  | '-' :: digits => (readDecimal digits).map fun n => -(n : ℤ)
  | '+' :: digits => (readDecimal digits).map Int.ofNat
  | digits => (readDecimal digits).map Int.ofNat

/-- A device that is known by its directories, all of them writable, on which every
directory can be created. Operands are single words. -/
def plainShell : Shell (List Str) where
  expand := fun _ word => [word]
  isEmpty := fun value => (fields value).isEmpty
  isThere := fun dirs value => dirs.contains value
  isAccessible := fun dirs value => dirs.contains value
  isWritable := fun dirs value => value = [] || dirs.contains value
  mkdir := fun dirs value => some (value :: dirs)
  isBit := fun value =>
    !(fields value).isEmpty && (integer value = some 0 || integer value = some 1)
  isOne := fun value => integer value = some 1
  isEmpty_nil := by decide
  isEmpty_word := by
    intro word unsplit
    simp [fields_unsplit unsplit]
  isThere_mkdir := by
    intro dirs word next _ made
    obtain rfl := Option.some.inj made
    simp
  isBit_zero := by decide
  isBit_one := by decide
  isOne_zero := by decide
  isOne_one := by decide
  isEmpty_of_isBit := by
    intro value bit
    simp only [Bool.and_eq_true, Bool.not_eq_true'] at bit
    exact bit.1

end BbBot.Installer
