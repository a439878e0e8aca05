/-
# Releasing mounts

`base_installer.sh` mounts `/system`, or remounts it when the mount table mentions
it, and later mounts an image of systemless root on `/su`. There are two ways out.
`error` unmounts `/system` when the run had mounted it and leaves the image alone.
The normal end releases the image and unmounts `/system` whether or not the run
had mounted it.
-/

import BbBot.Installer.Mounts

namespace BbBot.Installer

open BbBot.Unix

/-- `/system` -/
def systemDir : Str := "/system".toList

/-- `umount dir` takes the last line with that mount point off the table. -/
def umount (dir : Str) (mounts : Mounts) : Mounts :=
  { mounts with
    table := (mounts.table.reverse.eraseP fun line => mountPoint line == some dir).reverse }

/-- `losetup -d device` -/
def detach (k : Fin 8) (mounts : Mounts) : Mounts :=
  { mounts with loops := Function.update mounts.loops k none }

/-! ## The script -/

/-- What the commands of a run do: the statuses that the calls of `error` look at,
and the outcomes of the mounts. -/
structure Commands where
  /-- The line of `/system` when it is mounted. -/
  systemLine : Str
  systemPoint : mountPoint systemLine = some systemDir
  systemMounts : Bool
  knownArch : Bool
  /-- The directories that words of `bbx.conf` have `mkdir` create. -/
  configDirs : List Bool
  extracted : Bool
  /-- Whether each extracted file exists, and whether its digest is listed. -/
  members : List (Bool × Bool)
  /-- `su.img`, when there is one. -/
  image : Option Str
  suIsDir : Bool
  loopWorks : Fin 8 → Bool × Bool
  /-- The directory that is created when no other one is accessible. -/
  fallbackDir : Option Bool
  /-- The scripts that are written for applets. -/
  wrappers : List Bool

namespace Commands

variable (commands : Commands)

/-- The calls of `error` between mounting `/system` and looking for `su.img`. -/
def early : List Bool :=
  commands.knownArch :: commands.configDirs ++
    commands.extracted :: commands.members.flatMap fun member => [member.1, member.2]

/-- The calls of `error` after `su.img` was mounted. -/
def late : List Bool := commands.fallbackDir.toList ++ commands.wrappers

/-- "Mounting /system", with the value of `_mounted`. None when it fails. -/
def mountSystem (mounts : Mounts) : Option (Bool × Mounts) :=
  if commands.systemMounts then
    if isMounted systemDir mounts.table then some (true, mounts)
    else some (false, { mounts with table := mounts.table ++ [commands.systemLine] })
  else none

/-- "Mount SuperSU if found", with the value of `SULOOPDEV`. -/
def mountSu (mounts : Mounts) : Mounts × Option (Fin 8) :=
  match commands.image with
  | some img =>
    let result := mountSystemless img suDir commands.loopWorks commands.suIsDir mounts
    (result.mounts, result.printed)
  | none => (mounts, none)

/-- `error` on a failure: `if ! $_mounted then umount /system`. -/
def abort (mounted : Bool) (mounts : Mounts) : Mounts :=
  if mounted then mounts else umount systemDir mounts

/-- The end of the script. -/
def finish (device : Option (Fin 8)) (mounts : Mounts) : Mounts :=
  umount systemDir (match device with
    | some k => detach k (umount suDir.path mounts)
    | none => mounts)

/-- The mounts when the script exits after it has mounted `/system`. -/
def exit (mounted : Bool) (mounts : Mounts) : Mounts :=
  if commands.early.all id then
    if commands.late.all id then
      finish (commands.mountSu mounts).2 (commands.mountSu mounts).1
    else abort mounted (commands.mountSu mounts).1
  else abort mounted mounts

end Commands

/-! ## Counting mounts -/

/-- How often a directory is mounted. -/
def mountCount (dir : Str) (table : List Str) : ℕ :=
  table.countP fun line => mountPoint line == some dir

theorem mountedOn_iff {dir : Str} {table : List Str} :
    MountedOn dir table ↔ 0 < mountCount dir table := by
  simp [mountCount, MountedOn, List.countP_pos_iff]

theorem mountCount_eq_zero {dir : Str} {table : List Str} (free : isMounted dir table = false) :
    mountCount dir table = 0 := by
  by_contra some
  rw [isMounted_of_mountedOn (mountedOn_iff.mpr (Nat.pos_of_ne_zero some))] at free
  exact absurd free (by simp)

@[simp] theorem mountCount_append (dir : Str) (table : List Str) (line : Str) :
    mountCount dir (table ++ [line]) =
      mountCount dir table + if mountPoint line = some dir then 1 else 0 := by
  simp [mountCount, List.countP_append, List.countP_singleton]

/-- Unmounting takes one mount of the directory away and none of another one. -/
theorem mountCount_umount (dir other : Str) (mounts : Mounts) :
    mountCount other (umount dir mounts).table =
      if other = dir then mountCount dir mounts.table - 1 else mountCount other mounts.table := by
  rw [umount, mountCount, List.countP_reverse]
  have erased (lines : List Str) :
      (lines.eraseP fun line => mountPoint line == some dir).countP
          (fun line => mountPoint line == some other) =
        if other = dir then lines.countP (fun line => mountPoint line == some dir) - 1
        else lines.countP fun line => mountPoint line == some other := by
    induction lines with
    | nil => simp
    | cons line lines ih =>
      rw [List.eraseP_cons]
      cases here : mountPoint line == some dir with
      | true =>
        have point : mountPoint line = some dir := by simpa using here
        -- The first line of the directory is the one that is removed.
        by_cases same : other = dir
        · simp [same, point]
        · have apart : ¬ dir = other := fun equal => same equal.symm
          simp [same, point, apart]
      | false =>
        have point : ¬ mountPoint line = some dir := by simpa using here
        rw [cond_false, List.countP_cons, ih]
        by_cases same : other = dir
        · simp [same, point]
        · simp [same, List.countP_cons]
  rw [erased]
  simp [mountCount]

/-- The line of a loop device is one of its directory. -/
theorem mountPoint_loopLine (k : Fin 8) (dir : MountDir) :
    mountPoint (loopLine k dir.path) = some dir.path := by
  have device : ∀ k : Fin 8, Unsplit (loopDevice k) := by decide
  rw [mountPoint, loopLine, fields_cons (device k) (by decide)]
  have rest : " ext4 rw 0 0".toList = ' ' :: "ext4 rw 0 0".toList := rfl
  rw [rest, fields_cons dir.unsplit (by decide)]
  rfl

theorem loopLine_injective {j k : Fin 8} (same : loopLine j suDir.path = loopLine k suDir.path) :
    j = k := by
  revert j k
  decide +kernel

/-! ## What a run takes and gives back -/

namespace Commands

variable (commands : Commands)

/-- The run gave `su.img` to a free loop device and mounted it on `/su`. -/
def Acquired (mounts : Mounts) (k : Fin 8) : Prop :=
  commands.early.all id = true ∧ ∃ img, commands.image = some img ∧ mounts.loops k = none ∧
    (commands.mountSu mounts).1.loops k = some img ∧
    loopLine k suDir.path ∈ (commands.mountSu mounts).1.table ∧
    loopLine k suDir.path ∉ mounts.table

/-- `/system` is mounted as before the run, and what the run acquired is released. -/
def Released (before mounts after : Mounts) : Prop :=
  (MountedOn systemDir after.table ↔ MountedOn systemDir before.table) ∧
    ∀ k, commands.Acquired mounts k →
      ¬ MountedOn suDir.path after.table ∧ after.loops k = none

/-- There is an image, no line of the table contains `/su`, and some free loop device
can be attached and mounted there. -/
def CanAcquire (mounts : Mounts) : Prop :=
  commands.image.isSome = true ∧ commands.suIsDir = true ∧
    isMounted suDir.path mounts.table = false ∧
    ∃ k, attachable commands.loopWorks mounts.loops k = true ∧ (commands.loopWorks k).2 = true

/-- The step of `su.img` as rounds over the loop devices. -/
theorem mountSu_cases (mounts : Mounts) :
    (commands.mountSu mounts = (mounts, none) ∧
        ¬ (commands.image.isSome = true ∧ commands.suIsDir = true)) ∨
      ∃ img, commands.image = some img ∧ commands.suIsDir = true ∧
        commands.mountSu mounts =
          ((mountRounds img suDir commands.loopWorks loopDevices ⟨mounts, []⟩).1.mounts,
            (mountRounds img suDir commands.loopWorks loopDevices ⟨mounts, []⟩).2) := by
  rw [mountSu]
  cases image : commands.image with
  | none => exact Or.inl ⟨rfl, by simp⟩
  | some img =>
    cases isDir : commands.suIsDir with
    | false => exact Or.inl ⟨rfl, by simp⟩
    | true => exact Or.inr ⟨img, rfl, rfl, rfl⟩

/-- `SULOOPDEV` is the device the run acquired. -/
theorem mountSu_printed {mounts : Mounts} {k : Fin 8}
    (printed : (commands.mountSu mounts).2 = some k) :
    ∃ img, commands.image = some img ∧ isMounted suDir.path mounts.table = false ∧
      mounts.loops k = none ∧ (commands.mountSu mounts).1.loops k = some img ∧
      (commands.mountSu mounts).1.table = mounts.table ++ [loopLine k suDir.path] := by
  rcases commands.mountSu_cases mounts with ⟨same, -⟩ | ⟨img, image, -, same⟩
  · rw [same] at printed
    exact absurd printed (by simp)
  · rw [same] at printed ⊢
    have ended := mountRounds_ended img suDir commands.loopWorks loopDevices ⟨mounts, []⟩
    obtain ⟨free, unused, attached, line⟩ := ended.printed k printed
    exact ⟨img, image, free, unused, attached, line⟩

theorem mountSu_unprinted {mounts : Mounts} (unprinted : (commands.mountSu mounts).2 = none) :
    (commands.mountSu mounts).1.table = mounts.table := by
  rcases commands.mountSu_cases mounts with ⟨same, -⟩ | ⟨img, -, -, same⟩
  · rw [same]
  · rw [same] at unprinted ⊢
    exact (mountRounds_ended img suDir commands.loopWorks loopDevices ⟨mounts, []⟩).unprinted
      unprinted

theorem acquired_iff {mounts : Mounts} {k : Fin 8} :
    commands.Acquired mounts k ↔
      commands.early.all id = true ∧ (commands.mountSu mounts).2 = some k := by
  constructor
  · rintro ⟨early, img, image, -, -, line, fresh⟩
    refine ⟨early, ?_⟩
    -- Without a device that is printed the table is the old one.
    cases printed : (commands.mountSu mounts).2 with
    | none =>
      rw [commands.mountSu_unprinted printed] at line
      exact absurd line fresh
    | some j =>
      obtain ⟨-, -, -, -, -, table⟩ := commands.mountSu_printed printed
      rw [table, List.mem_append, List.mem_singleton] at line
      rcases line with old | same
      · exact absurd old fresh
      · rw [loopLine_injective same]
  · rintro ⟨early, printed⟩
    obtain ⟨img, image, free, unused, attached, table⟩ := commands.mountSu_printed printed
    refine ⟨early, img, image, unused, attached, by simp [table], ?_⟩
    intro old
    -- A line for `/su` would have been found at the start of the call.
    have mounted : MountedOn suDir.path mounts.table := ⟨_, old, mountPoint_loopLine k suDir⟩
    rw [isMounted_of_mountedOn mounted] at free
    exact absurd free (by simp)

theorem exists_printed_iff (mounts : Mounts) :
    (∃ k, (commands.mountSu mounts).2 = some k) ↔ commands.CanAcquire mounts := by
  rcases commands.mountSu_cases mounts with ⟨same, missing⟩ | ⟨img, image, isDir, same⟩
  · rw [same]
    constructor
    · rintro ⟨k, impossible⟩
      exact absurd impossible (by simp)
    · rintro ⟨image, isDir, -⟩
      exact absurd ⟨image, isDir⟩ missing
  · rw [same, CanAcquire, image, isDir]
    have distinct : loopDevices.Nodup := by decide
    have prints := mountRounds_prints_iff img suDir commands.loopWorks distinct ⟨mounts, []⟩
    have all : ∀ k : Fin 8, k ∈ loopDevices := by decide
    rw [prints]
    simp [all]

/-- Mounting the image does not touch `/system`. -/
theorem mountCount_mountSu (mounts : Mounts) :
    mountCount systemDir (commands.mountSu mounts).1.table = mountCount systemDir mounts.table := by
  cases printed : (commands.mountSu mounts).2 with
  | none => rw [commands.mountSu_unprinted printed]
  | some k =>
    obtain ⟨-, -, -, -, -, table⟩ := commands.mountSu_printed printed
    rw [table, mountCount_append, mountPoint_loopLine, if_neg (by decide), Nat.add_zero]

/-- What the first step leaves to be undone. -/
theorem mountSystem_cases {before mounts : Mounts} {mounted : Bool}
    (step : commands.mountSystem before = some (mounted, mounts)) :
    mounts.loops = before.loops ∧
      (mounted = true ∧ mounts = before ∨
        mounted = false ∧ mountCount systemDir before.table = 0 ∧
          mountCount systemDir mounts.table = 1) := by
  rw [mountSystem] at step
  split at step
  · cases free : isMounted systemDir before.table with
    | true =>
      rw [free, if_pos rfl] at step
      obtain ⟨rfl, rfl⟩ := Prod.mk.inj (Option.some.inj step)
      exact ⟨rfl, Or.inl ⟨rfl, rfl⟩⟩
    | false =>
      rw [free, if_neg Bool.false_ne_true] at step
      obtain ⟨rfl, rfl⟩ := Prod.mk.inj (Option.some.inj step)
      -- `/system` was not found in the table, so it is mounted once now.
      have none := mountCount_eq_zero free
      refine ⟨rfl, Or.inr ⟨rfl, none, ?_⟩⟩
      rw [mountCount_append, none, commands.systemPoint, if_pos rfl]
  · exact absurd step (by simp)

/-- `error` leaves `/system` as it was before the run. -/
theorem mountedOn_abort {before mounts now : Mounts} {mounted : Bool}
    (step : commands.mountSystem before = some (mounted, mounts))
    (same : mountCount systemDir now.table = mountCount systemDir mounts.table) :
    MountedOn systemDir (abort mounted now).table ↔ MountedOn systemDir before.table := by
  rw [mountedOn_iff, mountedOn_iff, abort]
  rcases (commands.mountSystem_cases step).2 with ⟨rfl, rfl⟩ | ⟨rfl, none, one⟩
  · rw [if_pos rfl, same]
  · rw [if_neg Bool.false_ne_true, mountCount_umount, if_pos rfl, same, one, none]

/-- The normal end unmounts `/system` once more than `error`. -/
theorem mountedOn_finish_iff {before mounts now : Mounts} {mounted : Bool}
    (step : commands.mountSystem before = some (mounted, mounts))
    (same : mountCount systemDir now.table = mountCount systemDir mounts.table)
    (device : Option (Fin 8)) :
    (MountedOn systemDir (finish device now).table ↔ MountedOn systemDir before.table) ↔
      mountCount systemDir before.table ≠ 1 := by
  have left : mountCount systemDir (finish device now).table =
      mountCount systemDir mounts.table - 1 := by
    unfold finish
    rw [mountCount_umount, if_pos rfl, ← same]
    cases device with
    | none => rfl
    | some k =>
      -- Unmounting `/su` takes nothing from `/system`.
      change mountCount systemDir (umount suDir.path now).table - 1 = _
      rw [mountCount_umount, if_neg (by decide)]
  rw [mountedOn_iff, mountedOn_iff, left]
  rcases (commands.mountSystem_cases step).2 with ⟨-, rfl⟩ | ⟨-, none, one⟩
  · omega
  · omega

/-- What the run acquired is released by the normal end. -/
theorem released_finish {mounts : Mounts} {k : Fin 8}
    (printed : (commands.mountSu mounts).2 = some k) :
    ¬ MountedOn suDir.path
        (finish (commands.mountSu mounts).2 (commands.mountSu mounts).1).table ∧
      (finish (commands.mountSu mounts).2 (commands.mountSu mounts).1).loops k = none := by
  obtain ⟨-, -, free, -, -, table⟩ := commands.mountSu_printed printed
  rw [printed]
  constructor
  · have other : mountCount suDir.path (finish (some k) (commands.mountSu mounts).1).table =
        mountCount suDir.path (umount suDir.path (commands.mountSu mounts).1).table := by
      rw [finish, mountCount_umount, if_neg (by decide)]
      rfl
    rw [mountedOn_iff, other, mountCount_umount, if_pos rfl, table, mountCount_append,
      mountCount_eq_zero free, mountPoint_loopLine, if_pos rfl]
    omega
  · exact Function.update_self ..

/-- A run that gets past mounting `/system` releases everything exactly when it does
not end normally with `/system` mounted once before, and does not fail after it has
acquired a loop device for `su.img`. -/
theorem exit_released_iff (before mounts : Mounts) (mounted : Bool)
    (step : commands.mountSystem before = some (mounted, mounts)) :
    commands.Released before mounts (commands.exit mounted mounts) ↔
      (commands.early.all id = true → commands.late.all id = true →
        mountCount systemDir before.table ≠ 1) ∧
      (commands.early.all id = true → commands.late.all id = false →
        ¬ commands.CanAcquire mounts) := by
  cases early : commands.early.all id with
  | false =>
    have stops : commands.exit mounted mounts = abort mounted mounts := by simp [exit, early]
    -- The run fails before the image is looked for.
    have nothing : ∀ k, ¬ commands.Acquired mounts k := by
      rintro k ⟨reached, -⟩
      rw [early] at reached
      exact absurd reached (by simp)
    rw [stops, Released, commands.mountedOn_abort step rfl]
    simp [nothing]
  | true =>
    have acquired (k : Fin 8) :
        commands.Acquired mounts k ↔ (commands.mountSu mounts).2 = some k := by
      rw [acquired_iff, early]
      simp
    have same := commands.mountCount_mountSu mounts
    cases late : commands.late.all id with
    | false =>
      have stops : commands.exit mounted mounts =
          abort mounted (commands.mountSu mounts).1 := by simp [exit, early, late]
      rw [stops, Released, commands.mountedOn_abort step same, ← exists_printed_iff]
      constructor
      · rintro ⟨-, released⟩
        refine ⟨fun _ impossible => absurd impossible (by simp), ?_⟩
        rintro - - ⟨k, printed⟩
        obtain ⟨img, -, -, -, attached, -⟩ := commands.mountSu_printed printed
        have detached := (released k ((acquired k).mpr printed)).2
        -- Neither way of `error` looks at the loop devices.
        have kept : (abort mounted (commands.mountSu mounts).1).loops =
            (commands.mountSu mounts).1.loops := by
          cases mounted <;> rfl
        rw [kept, attached] at detached
        exact absurd detached (by simp)
      · rintro ⟨-, never⟩
        refine ⟨Iff.rfl, ?_⟩
        intro k taken
        exact absurd ⟨k, (acquired k).mp taken⟩ (never rfl rfl)
    | true =>
      -- The normal end unmounts `/su` and detaches its device, and unmounts `/system`.
      have ends : commands.exit mounted mounts =
          finish (commands.mountSu mounts).2 (commands.mountSu mounts).1 := by
        simp [exit, early, late]
      rw [ends, Released, commands.mountedOn_finish_iff step same]
      constructor
      · rintro ⟨count, -⟩
        exact ⟨fun _ _ => count, fun _ impossible => absurd impossible (by simp)⟩
      · rintro ⟨count, -⟩
        refine ⟨count rfl rfl, ?_⟩
        intro k taken
        exact commands.released_finish ((acquired k).mp taken)

end Commands

/-- A run in which everything works, on a device with `su.img`. -/
def smoothRun : Commands where
  systemLine := "/dev/block/mmcblk0p9 /system ext4 rw 0 0".toList
  systemPoint := by decide
  systemMounts := true
  knownArch := true
  configDirs := []
  extracted := true
  members := [(true, true), (true, true), (true, true)]
  image := some "/data/su.img".toList
  suIsDir := true
  loopWorks := fun _ => (true, true)
  fallbackDir := none
  wrappers := []

/-- The same device, where the script for an applet cannot be written. -/
def failedRun : Commands := { smoothRun with wrappers := [false] }

/-- Nothing is mounted, and no loop device is in use. -/
def bareMounts : Mounts := ⟨[], fun _ => none⟩

/-- `/system` is mounted. -/
def systemMounts : Mounts :=
  ⟨["/dev/block/mmcblk0p9 /system ext4 ro 0 0".toList], fun _ => none⟩

theorem exit_released_iff_smooth :
    smoothRun.Released bareMounts
        ⟨["/dev/block/mmcblk0p9 /system ext4 rw 0 0".toList], fun _ => none⟩
        (smoothRun.exit false
          ⟨["/dev/block/mmcblk0p9 /system ext4 rw 0 0".toList], fun _ => none⟩) := by
  refine (smoothRun.exit_released_iff bareMounts _ false (by rfl)).mpr ⟨?_, ?_⟩
  · decide
  · intro _ impossible
    exact absurd impossible (by decide)

/-- The normal end unmounts a `/system` that was mounted before. After a failed script
the image is still mounted and attached. -/
theorem mounts_not_released :
    (smoothRun.mountSystem systemMounts = some (true, systemMounts) ∧
      MountedOn systemDir systemMounts.table ∧
      ¬ MountedOn systemDir (smoothRun.exit true systemMounts).table) ∧
    (failedRun.mountSystem systemMounts = some (true, systemMounts) ∧
      failedRun.Acquired systemMounts 0 ∧
      MountedOn suDir.path (failedRun.exit true systemMounts).table ∧
      (failedRun.exit true systemMounts).loops 0 = some "/data/su.img".toList) := by
  refine ⟨⟨by rfl, by decide +kernel, by decide +kernel⟩, by rfl, ?_, by decide +kernel,
    by decide +kernel⟩
  refine ⟨by decide, "/data/su.img".toList, rfl, rfl, ?_, ?_, ?_⟩
  · decide +kernel
  · decide +kernel
  · decide +kernel

end BbBot.Installer
