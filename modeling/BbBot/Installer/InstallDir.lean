/-
# The directory of a configuration

Which word of `bbx.conf` decides where busybox goes? A word is cut at its last
equals sign for the option and at its first one for the value. The two agree on
words with one equals sign. A path that holds another one is taken for an unknown
option, and the bare word `installdir` for the directory of that name, which is
created when it does not exist.
-/

import BbBot.Installer.Config

namespace BbBot.Installer

open BbBot.Unix

section Dirs

variable {σ : Type*} (shell : Shell σ)

/-- The value is not empty and names a directory that is writable or can be created. -/
def isUsable (state : σ) (value : Str) : Bool :=
  !shell.isEmpty value &&
    if shell.isThere state value then shell.isAccessible state value
    else (shell.mkdir state value).isSome

/-- The word is `installdir=` and a usable value, in the state in which it is read. -/
def namesDir (read : Settings σ × Str) : Bool :=
  (installdirOption ++ ['=']).isPrefixOf read.2 &&
    isUsable shell read.1.state (afterFirst '=' read.2)

/-- A reader that handles `installdir` as both installers do, and leaves the directory
alone on every other option. -/
structure SetsDirs (read : Settings σ → Str → Except Str (Settings σ)) : Prop where
  installdir : ∀ settings line, beforeLast '=' line = installdirOption →
    read settings line = setInstalldir shell (afterFirst '=' line) settings
  other : ∀ settings line, beforeLast '=' line ≠ installdirOption →
    ∃ next, read settings line = .ok next ∧ next.installdir = settings.installdir ∧
      next.state = settings.state

theorem setsDirs_baseWord : SetsDirs shell (baseWord shell) where
  installdir := by
    intro settings line option
    have notSelinux : installdirOption ≠ selinuxOption := by decide
    have notNoclean : installdirOption ≠ nocleanOption := by decide
    -- The option is tested last, after two that it is not.
    simp only [baseWord, option, if_neg notSelinux, if_neg notNoclean, if_true]
  other := by
    intro settings line different
    simp only [baseWord, if_neg different]
    split_ifs
    · exact ⟨_, rfl, rfl, rfl⟩
    · exact ⟨_, rfl, rfl, rfl⟩
    · exact ⟨_, rfl, rfl, rfl⟩
    · exact ⟨_, rfl, rfl, rfl⟩
    · exact ⟨_, rfl, rfl, rfl⟩

theorem setsDirs_seeWord : SetsDirs shell (seeWord shell) where
  installdir := by
    intro settings line option
    have notSelinux : installdirOption ≠ selinuxOption := by decide
    have notNoclean : installdirOption ≠ nocleanOption := by decide
    simp only [seeWord, option, if_neg notSelinux, if_neg notNoclean, if_true]
  other := by
    intro settings line different
    simp only [seeWord, if_neg different]
    split_ifs
    · exact ⟨_, rfl, rfl, rfl⟩
    · exact ⟨_, rfl, rfl, rfl⟩
    · exact ⟨_, rfl, rfl, rfl⟩
    · exact ⟨_, rfl, rfl, rfl⟩

/-! ## One word -/

/-- A usable value becomes the directory. It is created unless it is there. -/
theorem setInstalldir_usable {value : Str} {settings : Settings σ}
    (usable : isUsable shell settings.state value = true) :
    ∃ next, setInstalldir shell value settings = .ok next ∧ next.installdir = value ∧
      (shell.isThere settings.state value = true ∧ next.state = settings.state ∨
        shell.isThere settings.state value = false ∧
          shell.mkdir settings.state value = some next.state) := by
  unfold isUsable at usable
  rw [Bool.and_eq_true, Bool.not_eq_true'] at usable
  obtain ⟨nonempty, usable⟩ := usable
  rw [setInstalldir, nonempty, if_neg Bool.false_ne_true]
  cases there : shell.isThere settings.state value with
  | true =>
    rw [there, if_pos rfl] at usable
    rw [if_pos rfl, if_pos usable]
    exact ⟨_, rfl, rfl, Or.inl ⟨rfl, rfl⟩⟩
  | false =>
    rw [there, if_neg Bool.false_ne_true] at usable
    obtain ⟨next, made⟩ := Option.isSome_iff_exists.mp usable
    rw [if_neg Bool.false_ne_true, made]
    exact ⟨_, rfl, rfl, Or.inr ⟨rfl, rfl⟩⟩

/-- A value that is not usable changes nothing, or stops the reader. -/
theorem setInstalldir_unusable {value : Str} {settings next : Settings σ}
    (unusable : isUsable shell settings.state value = false)
    (result : setInstalldir shell value settings = .ok next) : next = settings := by
  rw [setInstalldir] at result
  split_ifs at result with empty there accessible
  · exact (Except.ok.inj result).symm
  -- The two branches that would set the directory make the value usable.
  · simp [isUsable, empty, there, accessible] at unusable
  · exact (Except.ok.inj result).symm
  · split at result
    · rename_i made
      simp [isUsable, empty, there, made] at unusable
    · exact absurd result (by simp)

private theorem installdirOption_plain : '=' ∉ installdirOption := by decide

/-- A word with the option `installdir` is bare or names one plain value. -/
theorem option_installdir_iff {line : Str} :
    beforeLast '=' line = installdirOption ↔
      line = installdirOption ∨
        ∃ value, '=' ∉ value ∧ line = installdirOption ++ '=' :: value :=
  beforeLast_eq_iff installdirOption_plain

theorem namesDir_eq (settings : Settings σ) (value : Str) :
    namesDir shell (settings, installdirOption ++ '=' :: value) =
      isUsable shell settings.state value := by
  have starts :
      (installdirOption ++ ['=']).isPrefixOf (installdirOption ++ '=' :: value) = true := by
    rw [List.isPrefixOf_iff_prefix]
    exact ⟨value, by simp⟩
  rw [namesDir, starts, afterFirst_append installdirOption_plain, Bool.true_and]

/-- Only words of the form `installdir=value` name a directory. -/
theorem exists_value_of_namesDir {settings : Settings σ} {line : Str}
    (names : namesDir shell (settings, line) = true) :
    ∃ value, line = installdirOption ++ '=' :: value ∧
      isUsable shell settings.state value = true := by
  have starts := names
  rw [namesDir, Bool.and_eq_true, List.isPrefixOf_iff_prefix] at starts
  obtain ⟨value, rfl⟩ := starts.1
  rw [List.append_assoc, List.singleton_append] at names ⊢
  exact ⟨value, rfl, (namesDir_eq shell settings value).symm.trans names⟩

/-! ## Whole configurations -/

section Run

variable (read : Settings σ → Str → Except Str (Settings σ))

/-- The last word that names a directory, when it is read. -/
def lastNamed (words : List Str) (start : Settings σ) : Option (Settings σ × Str) :=
  ((trace read words start).filter (namesDir shell)).getLast?

/-- The directory is the value of the last word that names one, and words without an
equals sign change neither the directory nor the device. -/
def ReadsDirs (words : List Str) (start final : Settings σ) : Prop :=
  final.installdir =
      ((lastNamed shell read words start).map fun named => afterFirst '=' named.2).getD
        start.installdir ∧
    ∀ reached ∈ trace read words start, '=' ∉ reached.2 →
      ∀ next, read reached.1 reached.2 = .ok next →
        next.installdir = reached.1.installdir ∧ next.state = reached.1.state

/-- The last word that names a directory has one equals sign, and where the bare word
`installdir` is read, a directory of that name is not usable, or is there and chosen
already. -/
def OneSign (words : List Str) (start : Settings σ) : Prop :=
  (∀ named, lastNamed shell read words start = some named → '=' ∉ afterFirst '=' named.2) ∧
    ∀ reached ∈ trace read words start, reached.2 = installdirOption →
      isUsable shell reached.1.state installdirOption = true →
        shell.isThere reached.1.state installdirOption = true ∧
          reached.1.installdir = installdirOption

variable {read} (sets : SetsDirs shell read)

include sets

/-- The bare word does nothing when its directory is not usable or chosen already. -/
theorem bare_keeps {settings next : Settings σ}
    (result : read settings installdirOption = .ok next)
    (blocked : isUsable shell settings.state installdirOption = true →
      shell.isThere settings.state installdirOption = true ∧
        settings.installdir = installdirOption) :
    next.installdir = settings.installdir ∧ next.state = settings.state := by
  have option : beforeLast '=' installdirOption = installdirOption :=
    beforeLast_of_notMem installdirOption_plain
  rw [sets.installdir _ _ option, afterFirst_of_notMem installdirOption_plain] at result
  cases usable : isUsable shell settings.state installdirOption with
  | false =>
    rw [setInstalldir_unusable shell usable result]
    exact ⟨rfl, rfl⟩
  | true =>
    -- The directory of that name is there already, so it is only chosen once more.
    obtain ⟨there, chosen⟩ := blocked usable
    obtain ⟨other, sameResult, dir, same | made⟩ := setInstalldir_usable shell usable
    · obtain rfl := Except.ok.inj (sameResult.symm.trans result)
      exact ⟨dir.trans chosen.symm, same.2⟩
    · rw [made.1] at there
      exact absurd there (by simp)

/-- A word either names the new directory, or keeps the one there was and names none
or one with a second equals sign. -/
theorem word_cases {settings next : Settings σ} {line : Str}
    (result : read settings line = .ok next)
    (blocked : line = installdirOption → isUsable shell settings.state installdirOption = true →
      shell.isThere settings.state installdirOption = true ∧
        settings.installdir = installdirOption) :
    (namesDir shell (settings, line) = true ∧ next.installdir = afterFirst '=' line) ∨
      next.installdir = settings.installdir ∧
        (namesDir shell (settings, line) = true → '=' ∈ afterFirst '=' line) := by
  by_cases option : beforeLast '=' line = installdirOption
  · rcases option_installdir_iff.mp option with rfl | ⟨value, plain, rfl⟩
    · refine Or.inr ⟨(bare_keeps shell sets result (blocked rfl)).1, ?_⟩
      intro names
      obtain ⟨value, same, -⟩ := exists_value_of_namesDir shell names
      -- What names a directory has an equals sign, and the bare word has none.
      have marked : '=' ∈ installdirOption := by
        rw [same]
        simp
      exact absurd marked installdirOption_plain
    · rw [sets.installdir _ _ option, afterFirst_append installdirOption_plain] at result
      rw [namesDir_eq, afterFirst_append installdirOption_plain]
      cases usable : isUsable shell settings.state value with
      | false =>
        rw [setInstalldir_unusable shell usable result]
        exact Or.inr ⟨rfl, fun impossible => absurd impossible (by simp)⟩
      | true =>
        obtain ⟨other, sameResult, dir, -⟩ := setInstalldir_usable shell usable
        obtain rfl := Except.ok.inj (sameResult.symm.trans result)
        exact Or.inl ⟨rfl, dir⟩
  · obtain ⟨other, sameResult, dir, -⟩ := sets.other settings line option
    obtain rfl := Except.ok.inj (sameResult.symm.trans result)
    refine Or.inr ⟨dir, ?_⟩
    intro names
    obtain ⟨value, rfl, -⟩ := exists_value_of_namesDir shell names
    rw [afterFirst_append installdirOption_plain]
    -- With one equals sign the option would have been `installdir`.
    by_contra plain
    exact option (beforeLast_append plain _)

omit sets in
theorem lastNamed_cons {line : Str} {settings next : Settings σ}
    (result : read settings line = .ok next) (words : List Str) :
    lastNamed shell read (line :: words) settings =
      (lastNamed shell read words next).or
        (if namesDir shell (settings, line) then some (settings, line) else none) := by
  rw [lastNamed, trace_cons result, List.filter_cons, lastNamed]
  cases namesDir shell (settings, line) with
  | false => simp
  | true =>
    rw [if_pos rfl, if_pos rfl, List.getLast?_cons]
    cases ((trace read words next).filter (namesDir shell)).getLast? <;> rfl

/-- The directory never has an equals sign, whatever is read. -/
theorem installdir_plain {words : List Str} {start final : Settings σ}
    (ends : readAll read words start = .ok final) (plain : '=' ∉ start.installdir) :
    '=' ∉ final.installdir := by
  -- Only values without an equals sign get past the cut at the last one.
  apply readAll_invariant (fun settings => '=' ∉ settings.installdir) _ plain ends
  intro line _ settings next still result
  by_cases option : beforeLast '=' line = installdirOption
  · have value : '=' ∉ afterFirst '=' line := by
      rcases option_installdir_iff.mp option with rfl | ⟨value, single, rfl⟩
      · rw [afterFirst_of_notMem installdirOption_plain]
        exact installdirOption_plain
      · rwa [afterFirst_append installdirOption_plain]
    rw [sets.installdir _ _ option] at result
    cases usable : isUsable shell settings.state (afterFirst '=' line) with
    | false =>
      rw [setInstalldir_unusable shell usable result]
      exact still
    | true =>
      obtain ⟨other, sameResult, dir, -⟩ := setInstalldir_usable shell usable
      obtain rfl := Except.ok.inj (sameResult.symm.trans result)
      rwa [dir]
  · obtain ⟨other, sameResult, dir, -⟩ := sets.other settings line option
    obtain rfl := Except.ok.inj (sameResult.symm.trans result)
    rwa [dir]

/-- While bare words are blocked, the directory is the last one that was named, unless
that one has a second equals sign. -/
theorem installdir_of_blocked {words : List Str} {start final : Settings σ} {named : Str}
    (ends : readAll read words start = .ok final)
    (blocked : ∀ reached ∈ trace read words start, reached.2 = installdirOption →
      isUsable shell reached.1.state installdirOption = true →
        shell.isThere reached.1.state installdirOption = true ∧
          reached.1.installdir = installdirOption)
    (sync : start.installdir = named ∨ '=' ∈ named) :
    final.installdir =
        ((lastNamed shell read words start).map fun x => afterFirst '=' x.2).getD named ∨
      '=' ∈ ((lastNamed shell read words start).map fun x => afterFirst '=' x.2).getD named := by
  induction words generalizing start named with
  | nil =>
    rw [← Except.ok.inj ends]
    exact sync
  | cons line words ih =>
    obtain ⟨next, result, ends⟩ := readAll_cons_ok ends
    rw [trace_cons result] at blocked
    have later := fun reached member => blocked reached (List.mem_cons_of_mem _ member)
    have now := fun same => blocked (start, line) (by simp) same
    rw [lastNamed_cons shell result]
    -- Either the word is the new directory, or the old one stays and a second sign explains it.
    rcases word_cases shell sets result now with ⟨names, dir⟩ | ⟨dir, marked⟩
    · rw [names, if_pos rfl]
      have rest := ih ends later (Or.inl dir)
      cases last : lastNamed shell read words next with
      | none =>
        rw [last] at rest
        exact rest
      | some named =>
        rw [last] at rest
        exact rest
    · cases names : namesDir shell (start, line) with
      | false =>
        rw [if_neg Bool.false_ne_true, Option.or_none]
        exact ih ends later (dir ▸ sync)
      | true =>
        have rest := ih ends later (Or.inr (marked names))
        rw [if_pos rfl]
        cases last : lastNamed shell read words next with
        | none =>
          rw [last] at rest
          exact rest
        | some named =>
          rw [last] at rest
          exact rest

/-- A reader that ends reads directories as words with one equals sign exactly when it
meets no other ones that matter. -/
theorem readsDirs_iff {words : List Str} {start final : Settings σ}
    (plain : '=' ∉ start.installdir) (ends : readAll read words start = .ok final) :
    ReadsDirs shell read words start final ↔ OneSign shell read words start := by
  constructor
  · rintro ⟨dir, bare⟩
    constructor
    · intro named last
      have single := installdir_plain shell sets ends plain
      rw [dir, last] at single
      exact single
    · intro reached member same usable
      have option : beforeLast '=' reached.2 = installdirOption := by
        rw [same]
        exact beforeLast_of_notMem installdirOption_plain
      have value : afterFirst '=' reached.2 = installdirOption := by
        rw [same]
        exact afterFirst_of_notMem installdirOption_plain
      obtain ⟨next, result, chosen, state⟩ := setInstalldir_usable shell usable
      -- The bare word is read as the path `installdir`.
      have readNext : read reached.1 reached.2 = .ok next := by
        rw [sets.installdir _ _ option, value, result]
      have unmarked : '=' ∉ reached.2 := by
        rw [same]
        exact installdirOption_plain
      obtain ⟨sameDir, sameState⟩ := bare reached member unmarked next readNext
      rcases state with ⟨there, -⟩ | ⟨absent, made⟩
      · exact ⟨there, sameDir.symm.trans chosen⟩
      · -- A directory that was created is there afterwards.
        have there := shell.isThere_mkdir _ _ _ (by decide) made
        rw [sameState, absent] at there
        exact absurd there (by simp)
  · rintro ⟨single, blocked⟩
    constructor
    -- The run keeps pace with the last named word, which has one equals sign.
    · rcases installdir_of_blocked shell sets ends blocked (Or.inl rfl) with same | marked
      · exact same
      · cases last : lastNamed shell read words start with
        | none =>
          rw [last] at marked
          exact absurd marked plain
        | some named =>
          rw [last] at marked
          exact absurd marked (single named last)
    · intro reached member unmarked next result
      by_cases bare : reached.2 = installdirOption
      · rw [bare] at result
        exact bare_keeps shell sets result (blocked reached member bare)
      -- Any other bare word is an option of its own name.
      · have option : beforeLast '=' reached.2 ≠ installdirOption := by
          rwa [beforeLast_of_notMem unmarked]
        obtain ⟨other, sameResult, dir, state⟩ := sets.other reached.1 reached.2 option
        obtain rfl := Except.ok.inj (sameResult.symm.trans result)
        exact ⟨dir, state⟩

end Run

/-- Both installers take the directory from the last word that names one exactly when
that word has one equals sign and no bare `installdir` gets in the way. -/
theorem conf_readsDirs_iff (present : Bool) (words : List Str) (state : σ) :
    (∀ final, baseConf shell present words state = .ok final →
      (ReadsDirs shell (baseWord shell) words (baseStart present state) final ↔
        OneSign shell (baseWord shell) words (baseStart present state))) ∧
    ∀ final, seeConf shell words state = .ok final →
      (ReadsDirs shell (seeWord shell) words (seeStart state) final ↔
        OneSign shell (seeWord shell) words (seeStart state)) := by
  have plain : '=' ∉ noDir := by decide
  constructor
  · intro final ends
    exact readsDirs_iff shell (setsDirs_baseWord shell) plain ends
  · intro final ends
    exact readsDirs_iff shell (setsDirs_seeWord shell) plain ends

end Dirs

/-- The settings after one plain directory. -/
theorem conf_readsDirs_iff_plain :
    ReadsDirs plainShell (baseWord plainShell) ["installdir=/a".toList] (baseStart false [])
        ⟨"/a".toList, false, selText false false, ["/a".toList]⟩ ↔
      OneSign plainShell (baseWord plainShell) ["installdir=/a".toList] (baseStart false []) :=
  (conf_readsDirs_iff plainShell false ["installdir=/a".toList] []).1 _ (by rfl)

/-- A path with an equals sign is not taken though it is a writable directory, and the
bare word is taken for a path and creates it. -/
theorem paths_misread :
    (baseConf plainShell false ["installdir=/a=b".toList] ["/a=b".toList]).toOption.map
        Settings.installdir = some noDir ∧
      (seeConf plainShell ["installdir=/a=b".toList] ["/a=b".toList]).toOption.map
        Settings.installdir = some noDir ∧
      (baseConf plainShell false ["installdir".toList] []).toOption.map Settings.state =
        some ["installdir".toList] ∧
      (seeConf plainShell ["installdir".toList] []).toOption.map Settings.state =
        some ["installdir".toList] ∧
      (∀ final, baseConf plainShell false ["installdir=/a=b".toList] ["/a=b".toList] = .ok final →
        ¬ ReadsDirs plainShell (baseWord plainShell) ["installdir=/a=b".toList]
          (baseStart false ["/a=b".toList]) final) ∧
      ∀ final, seeConf plainShell ["installdir=/a=b".toList] ["/a=b".toList] = .ok final →
        ¬ ReadsDirs plainShell (seeWord plainShell) ["installdir=/a=b".toList]
          (seeStart ["/a=b".toList]) final := by
  have base : (baseConf plainShell false ["installdir=/a=b".toList] ["/a=b".toList]).toOption.map
      Settings.installdir = some noDir := by decide +kernel
  have see : (seeConf plainShell ["installdir=/a=b".toList] ["/a=b".toList]).toOption.map
      Settings.installdir = some noDir := by decide +kernel
  refine ⟨base, see, by decide +kernel, by decide +kernel, ?_, ?_⟩
  · rintro final ends ⟨dir, -⟩
    rw [ends] at base
    rw [show final.installdir = noDir from Option.some.inj base] at dir
    exact absurd dir (by decide +kernel)
  · rintro final ends ⟨dir, -⟩
    rw [ends] at see
    rw [show final.installdir = noDir from Option.some.inj see] at dir
    exact absurd dir (by decide +kernel)

end BbBot.Installer
