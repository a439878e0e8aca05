/-
# The options of the self-extracting installer

Settings come from `bbx.conf` first and from the command line after it. An argument
that is not an option, or an option with a value that is not one, ends the script.

`--installdir` has three outcomes. A path that is there must be a writable directory
and becomes the installation directory. A path that is not there is created, and
the assignment is missing: busybox goes wherever it would have gone without the
option.
-/

import BbBot.Installer.Config

namespace BbBot.SelfExtractor

open BbBot.Unix BbBot.Installer

/-- The settings that options can change as well. -/
structure SeeSettings (σ : Type*) extends Settings σ where
  interactive : Bool
  onlyclean : Bool

/-- The settings after `bbx.conf` was read. -/
def ofConf {σ : Type*} (conf : Settings σ) : SeeSettings σ :=
  { conf with interactive := false, onlyclean := false }

/-! ## Arguments -/

def interactiveFlags : List Str := ["-i".toList, "--interactive".toList]

def helpFlags : List Str := ["-h".toList, "--help".toList]

def versionFlags : List Str := ["-v".toList, "--version".toList]

def nocleanFlags : List Str := ["-nc".toList, "--noclean".toList]

def onlycleanFlags : List Str := ["-oc".toList, "--onlyclean".toList]

/-- `--selinux=*` -/
def isSelinuxArg (arg : Str) : Bool := "--selinux=".toList.isPrefixOf arg

/-- `--installdir=*` -/
def isInstalldirArg (arg : Str) : Bool := "--installdir=".toList.isPrefixOf arg

def yesWords : List Str := ["y".toList, "yes".toList]

def noWords : List Str := ["n".toList, "no".toList]

section Arguments

variable {σ : Type*} (shell : Shell σ)

/-- `--selinux=value`. Errors are exit statuses. -/
def argSelinux (value : Str) (settings : SeeSettings σ) : Except ℕ (SeeSettings σ) :=
  if value ∈ yesWords then .ok { settings with selstat := ['1'] }
  else if value ∈ noWords then .ok { settings with selstat := ['0'] }
  else .error 1

/-- `--installdir=value`. A directory that is created is not assigned. -/
def argInstalldir (value : Str) (settings : SeeSettings σ) : Except ℕ (SeeSettings σ) :=
  if shell.isEmpty value then .error 1
  else if shell.isThere settings.state value then
    if shell.isAccessible settings.state value then .ok { settings with installdir := value }
    else .error 1
  else
    match shell.mkdir settings.state value with
    -- `mkdir $value || exit 1`, and no assignment as in the branch above.
    | some next => .ok { settings with state := next }
    | none => .error 1

/-- One argument. -/
def readArg (settings : SeeSettings σ) (arg : Str) : Except ℕ (SeeSettings σ) :=
  if arg ∈ interactiveFlags then .ok { settings with interactive := true }
  else if arg ∈ helpFlags then .error 0
  else if arg ∈ versionFlags then .error 0
  else if arg ∈ nocleanFlags then .ok { settings with noclean := true }
  else if arg ∈ onlycleanFlags then .ok { settings with onlyclean := true }
  -- The patterns with a value come after the flags, which none of them matches.
  else if isSelinuxArg arg then argSelinux (afterFirst '=' arg) settings
  else if isInstalldirArg arg then argInstalldir shell (afterFirst '=' arg) settings
  else .error 1

/-- "Reset all other options when running in *onlyclean* mode". -/
def resetOptions (settings : SeeSettings σ) : SeeSettings σ :=
  if settings.onlyclean then { settings with interactive := false, noclean := false }
  else settings

/-- The settings after the configuration and the arguments, none when the script ends
in between. -/
def seeOptions (files : List (Option Str)) (args : List Str) (state : σ) :
    Option (SeeSettings σ) := do
  let conf ← (seeConf shell (confWords shell files state) state).toOption
  let settings ← (readAll (readArg shell) args (ofConf conf)).toOption
  return resetOptions settings

/-! ## One argument -/

/-- What a value of `--selinux` asks for, once it was accepted. -/
def selinuxWord (value : Str) : Str := if value ∈ yesWords then ['1'] else ['0']

/-- What an argument can do: each field is changed by its own options only. -/
structure ArgEffect (settings : SeeSettings σ) (arg : Str) (next : SeeSettings σ) : Prop where
  installdir : isInstalldirArg arg = false → next.installdir = settings.installdir
  created : isInstalldirArg arg = true →
    next.installdir = if shell.isThere settings.state (afterFirst '=' arg) then afterFirst '=' arg
      else settings.installdir
  selstat : isSelinuxArg arg = false → next.selstat = settings.selstat
  selinux : isSelinuxArg arg = true → next.selstat = selinuxWord (afterFirst '=' arg)
  onlyclean : next.onlyclean = (settings.onlyclean || decide (arg ∈ onlycleanFlags))
  state : isInstalldirArg arg = false → next.state = settings.state

/-- An argument that starts with one of the long options is none of the flags. -/
private theorem notMem_of_isPrefixOf {option arg : Str} {flags : List Str}
    (starts : option.isPrefixOf arg = true) (none : flags.all fun flag => !option.isPrefixOf flag) :
    arg ∉ flags := by
  intro member
  have clash := List.all_eq_true.mp none arg member
  rw [starts] at clash
  exact absurd clash (by simp)

theorem readArg_selinux (settings : SeeSettings σ) {arg : Str}
    (selinux : isSelinuxArg arg = true) :
    readArg shell settings arg = argSelinux (afterFirst '=' arg) settings ∧
      arg ∉ onlycleanFlags ∧ isInstalldirArg arg = false := by
  have notFlag {flags : List Str}
      (none : flags.all fun flag => !"--selinux=".toList.isPrefixOf flag) : arg ∉ flags :=
    notMem_of_isPrefixOf selinux none
  have other : isInstalldirArg arg = false := by
    rw [← Bool.not_eq_true]
    intro installdir
    obtain ⟨rest, rfl⟩ := List.isPrefixOf_iff_prefix.mp selinux
    exact absurd installdir (by simp [isInstalldirArg])
  refine ⟨?_, notFlag (by decide), other⟩
  rw [readArg, if_neg (notFlag (by decide)), if_neg (notFlag (by decide)),
    if_neg (notFlag (by decide)), if_neg (notFlag (by decide)), if_neg (notFlag (by decide)),
    if_pos selinux]

theorem readArg_installdir (settings : SeeSettings σ) {arg : Str}
    (installdir : isInstalldirArg arg = true) :
    readArg shell settings arg = argInstalldir shell (afterFirst '=' arg) settings ∧
      arg ∉ onlycleanFlags ∧ isSelinuxArg arg = false := by
  have notFlag {flags : List Str}
      (none : flags.all fun flag => !"--installdir=".toList.isPrefixOf flag) : arg ∉ flags :=
    notMem_of_isPrefixOf installdir none
  have other : isSelinuxArg arg = false := by
    rw [← Bool.not_eq_true]
    intro selinux
    obtain ⟨rest, rfl⟩ := List.isPrefixOf_iff_prefix.mp installdir
    exact absurd selinux (by simp [isSelinuxArg])
  refine ⟨?_, notFlag (by decide), other⟩
  rw [readArg, if_neg (notFlag (by decide)), if_neg (notFlag (by decide)),
    if_neg (notFlag (by decide)), if_neg (notFlag (by decide)), if_neg (notFlag (by decide)),
    if_neg (by simp [other]), if_pos installdir]

theorem argSelinux_effect {value : Str} {settings next : SeeSettings σ}
    (result : argSelinux value settings = .ok next) :
    next = { settings with selstat := selinuxWord value } := by
  unfold argSelinux at result
  unfold selinuxWord
  split_ifs at result with yes no
  · rw [if_pos yes, ← Except.ok.inj result]
  · rw [if_neg yes, ← Except.ok.inj result]

/-- A directory that is there is assigned, one that is created is not. -/
theorem argInstalldir_effect {value : Str} {settings next : SeeSettings σ}
    (result : argInstalldir shell value settings = .ok next) :
    next.installdir = (if shell.isThere settings.state value then value
        else settings.installdir) ∧
      next.selstat = settings.selstat ∧ next.onlyclean = settings.onlyclean := by
  unfold argInstalldir at result
  split_ifs at result with empty there accessible
  · rw [if_pos there, ← Except.ok.inj result]
    exact ⟨rfl, rfl, rfl⟩
  · rw [if_neg there]
    split at result
    · rw [← Except.ok.inj result]
      exact ⟨rfl, rfl, rfl⟩
    · exact absurd result (by simp)

/-- A flag has no value, and only one of them is remembered as *onlyclean*. -/
theorem readArg_flag {settings next : SeeSettings σ} {arg : Str}
    (notSelinux : isSelinuxArg arg = false) (notInstalldir : isInstalldirArg arg = false)
    (result : readArg shell settings arg = .ok next) :
    next.installdir = settings.installdir ∧ next.selstat = settings.selstat ∧
      next.onlyclean = (settings.onlyclean || decide (arg ∈ onlycleanFlags)) ∧
      next.state = settings.state := by
  have notInteractive : ∀ flag ∈ interactiveFlags, flag ∉ onlycleanFlags := by decide
  have notNoclean : ∀ flag ∈ nocleanFlags, flag ∉ onlycleanFlags := by decide
  simp only [readArg, notSelinux, notInstalldir, Bool.false_eq_true, if_false] at result
  split_ifs at result with interactive help version noclean onlyclean
  · rw [← Except.ok.inj result]
    exact ⟨rfl, rfl, by simp [notInteractive arg interactive], rfl⟩
  · rw [← Except.ok.inj result]
    exact ⟨rfl, rfl, by simp [notNoclean arg noclean], rfl⟩
  · rw [← Except.ok.inj result]
    exact ⟨rfl, rfl, by simp [onlyclean], rfl⟩

/-- An argument that does not end the script has the effect of its option. -/
theorem readArg_effect {settings next : SeeSettings σ} {arg : Str}
    (result : readArg shell settings arg = .ok next) : ArgEffect shell settings arg next := by
  cases selinux : isSelinuxArg arg with
  | true =>
    -- `--selinux=`: the variant changes, and nothing else.
    obtain ⟨reads, notFlag, other⟩ := readArg_selinux shell settings selinux
    rw [argSelinux_effect (reads.symm.trans result)]
    constructor
    · intro _
      rfl
    · intro installdir
      exact absurd installdir (by simp [other])
    · intro absent
      exact absurd selinux (by simp [absent])
    · intro _
      rfl
    · simp [notFlag]
    · intro _
      rfl
  | false =>
    cases installdir : isInstalldirArg arg with
    | true =>
      -- `--installdir=`: the directory changes, or the device.
      obtain ⟨reads, notFlag, -⟩ := readArg_installdir shell settings installdir
      obtain ⟨dir, selstat, onlyclean⟩ := argInstalldir_effect shell (reads.symm.trans result)
      constructor
      · intro absent
        exact absurd installdir (by simp [absent])
      · intro _
        exact dir
      · intro _
        exact selstat
      · intro present
        exact absurd present (by simp [selinux])
      · simp [onlyclean, notFlag]
      · intro absent
        exact absurd installdir (by simp [absent])
    | false =>
      -- A flag, which leaves both alone.
      obtain ⟨dir, selstat, onlyclean, state⟩ := readArg_flag shell selinux installdir result
      constructor
      · intro _
        exact dir
      · intro present
        exact absurd present (by simp [installdir])
      · intro _
        exact selstat
      · intro present
        exact absurd present (by simp [selinux])
      · exact onlyclean
      · intro _
        exact state

/-! ## All arguments -/

/-- The value of the last argument of a kind. -/
def lastArg (kind : Str → Bool) (args : List Str) : Option Str :=
  (args.filter kind).getLast?.map (afterFirst '=')

/-- The last `--installdir` argument, with the settings just before it is read. -/
def lastDirArg (args : List Str) (start : SeeSettings σ) : Option (SeeSettings σ × Str) :=
  ((trace (readArg shell) args start).filter fun reached => isInstalldirArg reached.2).getLast?

/-- The last `--installdir` argument names something that is there when it is read, or
what `INSTALLDIR` is already. -/
def LastDirThere (args : List Str) (start : SeeSettings σ) : Prop :=
  ∀ settings arg, lastDirArg shell args start = some (settings, arg) →
    shell.isThere settings.state (afterFirst '=' arg) = true ∨
      settings.installdir = afterFirst '=' arg

/-- The settings are those that the options ask for, and those of the configuration
where they ask for nothing. -/
structure Obeys (conf : Settings σ) (args : List Str) (final : SeeSettings σ) : Prop where
  installdir : final.installdir = (lastArg isInstalldirArg args).getD conf.installdir
  selstat : final.selstat = ((lastArg isSelinuxArg args).map selinuxWord).getD conf.selstat
  onlyclean : (∃ arg ∈ args, arg ∈ onlycleanFlags) →
    final.interactive = false ∧ final.noclean = false

theorem lastArg_of_forall {kind : Str → Bool} {args : List Str}
    (none : ∀ arg ∈ args, kind arg = false) : lastArg kind args = .none := by
  have empty : args.filter kind = [] := by
    rw [List.filter_eq_nil_iff]
    intro arg member
    simp [none arg member]
  rw [lastArg, empty]
  rfl

theorem lastArg_append {kind : Str → Bool} {front rest : List Str} {arg : Str}
    (isKind : kind arg = true) (later : ∀ other ∈ rest, kind other = false) :
    lastArg kind (front ++ arg :: rest) = some (afterFirst '=' arg) := by
  have empty : rest.filter kind = [] := by
    rw [List.filter_eq_nil_iff]
    intro other member
    simp [later other member]
  rw [lastArg, List.filter_append, List.filter_cons_of_pos isKind, empty,
    List.getLast?_concat, Option.map_some]

/-- Arguments of other kinds leave the directory alone. -/
theorem installdir_readAll {args : List Str} {start final : SeeSettings σ}
    (none : ∀ arg ∈ args, isInstalldirArg arg = false)
    (ends : readAll (readArg shell) args start = .ok final) :
    final.installdir = start.installdir := by
  apply readAll_invariant (fun settings => settings.installdir = start.installdir) _ rfl ends
  intro arg member settings next same result
  exact ((readArg_effect shell result).installdir (none arg member)).trans same

/-- Arguments of other kinds leave `SELSTAT` alone. -/
theorem selstat_readAll {args : List Str} {start final : SeeSettings σ}
    (none : ∀ arg ∈ args, isSelinuxArg arg = false)
    (ends : readAll (readArg shell) args start = .ok final) :
    final.selstat = start.selstat := by
  apply readAll_invariant (fun settings => settings.selstat = start.selstat) _ rfl ends
  intro arg member settings next same result
  exact ((readArg_effect shell result).selstat (none arg member)).trans same

/-- The directory is that of the last `--installdir` argument exactly when that one
is there to be assigned. -/
theorem installdir_obeyed_iff {args : List Str} {start final : SeeSettings σ}
    (ends : readAll (readArg shell) args start = .ok final) :
    final.installdir = (lastArg isInstalldirArg args).getD start.installdir ↔
      LastDirThere shell args start := by
  rcases readAll_last isInstalldirArg ends with ⟨none, found⟩ |
    ⟨front, arg, rest, settings, next, rfl, -, result, ends, isKind, later, found⟩
  · have noLast : lastDirArg shell args start = .none := found
    rw [lastArg_of_forall none, installdir_readAll shell none ends]
    simp [LastDirThere, noLast]
  · have last : lastDirArg shell (front ++ arg :: rest) start = some (settings, arg) := found
    have dir := (readArg_effect shell result).created isKind
    -- The condition is about this argument, the last of its kind.
    have holds : LastDirThere shell (front ++ arg :: rest) start ↔
        shell.isThere settings.state (afterFirst '=' arg) = true ∨
          settings.installdir = afterFirst '=' arg := by
      constructor
      · intro there
        exact there settings arg last
      · intro there settings' arg' last'
        obtain ⟨rfl, rfl⟩ := Prod.mk.inj (Option.some.inj (last.symm.trans last'))
        exact there
    rw [lastArg_append isKind later, Option.getD_some, installdir_readAll shell later ends, dir,
      holds]
    split
    · rename_i there
      simp [there]
    · rename_i absent
      simp [absent]

/-- `SELSTAT` is always that of the last `--selinux` argument. -/
theorem selstat_obeyed {args : List Str} {start final : SeeSettings σ}
    (ends : readAll (readArg shell) args start = .ok final) :
    final.selstat = ((lastArg isSelinuxArg args).map selinuxWord).getD start.selstat := by
  -- Split at the last such argument: the ones behind it are of other kinds.
  rcases readAll_last isSelinuxArg ends with ⟨none, -⟩ |
    ⟨front, arg, rest, settings, next, rfl, -, result, ends, isKind, later, -⟩
  · rw [lastArg_of_forall none]
    exact selstat_readAll shell none ends
  · rw [lastArg_append isKind later, selstat_readAll shell later ends,
      (readArg_effect shell result).selinux isKind]
    rfl

/-- *onlyclean* is remembered wherever it stands. -/
theorem onlyclean_readAll {args : List Str} {start final : SeeSettings σ}
    (ends : readAll (readArg shell) args start = .ok final)
    (given : start.onlyclean = true ∨ ∃ arg ∈ args, arg ∈ onlycleanFlags) :
    final.onlyclean = true := by
  induction args generalizing start with
  | nil =>
    rw [← Except.ok.inj ends]
    simpa using given
  | cons arg args ih =>
    obtain ⟨next, result, ends⟩ := readAll_cons_ok ends
    have effect := (readArg_effect shell result).onlyclean
    apply ih ends
    rcases given with before | ⟨flag, member, isFlag⟩
    · exact Or.inl (by rw [effect, before, Bool.true_or])
    · rcases List.mem_cons.mp member with rfl | inside
      · exact Or.inl (by simp [effect, isFlag])
      · exact Or.inr ⟨flag, inside, isFlag⟩

theorem installdir_resetOptions (settings : SeeSettings σ) :
    (resetOptions settings).installdir = settings.installdir := by
  unfold resetOptions
  split
  · rfl
  · rfl

theorem state_resetOptions (settings : SeeSettings σ) :
    (resetOptions settings).state = settings.state := by
  unfold resetOptions
  split
  · rfl
  · rfl

theorem selstat_resetOptions (settings : SeeSettings σ) :
    (resetOptions settings).selstat = settings.selstat := by
  unfold resetOptions
  split
  · rfl
  · rfl

/-- A script that goes on has read a configuration and all its arguments. -/
theorem seeOptions_eq_some {files : List (Option Str)} {args : List Str} {state : σ}
    {final : SeeSettings σ} (ends : seeOptions shell files args state = some final) :
    ∃ conf settings, seeConf shell (confWords shell files state) state = .ok conf ∧
      readAll (readArg shell) args (ofConf conf) = .ok settings ∧
      final = resetOptions settings := by
  unfold seeOptions at ends
  cases configured : seeConf shell (confWords shell files state) state with
  | error stop =>
    rw [configured] at ends
    exact absurd ends (by simp [Except.toOption])
  | ok conf =>
    cases read : readAll (readArg shell) args (ofConf conf) with
    | error stop =>
      rw [configured] at ends
      exact absurd ends (by simp [Except.toOption, read])
    | ok settings =>
      rw [configured] at ends
      refine ⟨conf, settings, rfl, read, ?_⟩
      simpa [Except.toOption, read] using ends.symm

/-- For every configuration and every list of arguments that does not end the script,
the options are obeyed exactly when the last `--installdir` argument names something
that is there when it is read. -/
theorem options_obeyed_iff (files : List (Option Str)) (args : List Str) (state : σ)
    {final : SeeSettings σ} (ends : seeOptions shell files args state = some final) :
    ∃ conf, seeConf shell (confWords shell files state) state = .ok conf ∧
      (Obeys conf args final ↔ LastDirThere shell args (ofConf conf)) := by
  obtain ⟨conf, settings, configured, read, rfl⟩ := seeOptions_eq_some shell ends
  refine ⟨conf, configured, ?_⟩
  rw [← installdir_obeyed_iff shell read]
  constructor
  · intro obeys
    rw [← installdir_resetOptions]
    exact obeys.installdir
  · intro dir
    constructor
    · rw [installdir_resetOptions]
      exact dir
    · rw [selstat_resetOptions]
      exact selstat_obeyed shell read
    · intro given
      -- Once given, *onlyclean* resets the two others at the very end.
      have remembered := onlyclean_readAll shell read (Or.inr given)
      rw [resetOptions, if_pos remembered]
      exact ⟨rfl, rfl⟩

end Arguments

/-- The arguments of a run that cleans a directory of its own. -/
theorem options_obeyed_iff_onlyclean :
    ∃ conf, seeConf plainShell (confWords plainShell [none, some "noclean".toList, none]
        ["/a".toList]) ["/a".toList] = .ok conf ∧
      (Obeys conf ["-i".toList, "--installdir=/a".toList, "-oc".toList]
          ⟨⟨"/a".toList, false, [], ["/a".toList]⟩, false, true⟩ ↔
        LastDirThere plainShell ["-i".toList, "--installdir=/a".toList, "-oc".toList]
          (ofConf conf)) :=
  options_obeyed_iff plainShell _ _ _ (by rfl)

/-- A directory that `--installdir` creates is not where busybox goes. -/
theorem created_dir_not_assigned :
    (seeOptions plainShell [] ["--installdir=/new".toList] []).map
        (fun final => (final.installdir, final.state)) = some (noDir, ["/new".toList]) ∧
      ∀ conf final, seeConf plainShell (confWords plainShell [] []) [] = .ok conf →
        seeOptions plainShell [] ["--installdir=/new".toList] [] = some final →
        ¬ Obeys conf ["--installdir=/new".toList] final := by
  have ends : (seeOptions plainShell [] ["--installdir=/new".toList] []).map
      (fun final => (final.installdir, final.state)) = some (noDir, ["/new".toList]) := by
    decide +kernel
  refine ⟨ends, ?_⟩
  intro conf final _ read obeys
  rw [read] at ends
  have dir : final.installdir = noDir := congrArg Prod.fst (Option.some.inj ends)
  -- The argument asks for `/new`, and the settings have no directory.
  have last : lastArg isInstalldirArg ["--installdir=/new".toList] = some "/new".toList := by
    decide +kernel
  have asked := obeys.installdir
  rw [dir, last, Option.getD_some] at asked
  exact absurd asked (by decide)

end BbBot.SelfExtractor
