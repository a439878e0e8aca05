/-
# Mounting a systemless image

`mount_systemless` looks for a loop device that takes an image and mounts it. It
tries the devices in turn until its directory is mounted, and prints the device
that did it. A device that took the image but could not be mounted stays
attached.

Whether the directory is mounted is decided by a `grep` over the mount table, so
any line that contains the directory's path counts.
-/

import BbBot.Unix.Text

namespace BbBot.Installer

open BbBot.Unix

/-! ## The mount table -/

/-- Where the device of a line of `/proc/mounts` is mounted. -/
def mountPoint (line : Str) : Option Str := (fields line)[1]?

/-- Some line has the directory as its mount point. -/
def MountedOn (dir : Str) (table : List Str) : Prop := ∃ line ∈ table, mountPoint line = some dir

instance (dir : Str) (table : List Str) : Decidable (MountedOn dir table) :=
  inferInstanceAs (Decidable (∃ line ∈ table, mountPoint line = some dir))

/-- `is_mounted`: `grep dir /proc/mounts` for a path without special characters. -/
def isMounted (dir : Str) (table : List Str) : Bool := table.any fun line => dir <:+: line

/-- Characters that mean something else than themselves in a pattern. -/
def isSpecial (c : Char) : Bool := ".[]*^$\\".toList.contains c

/-- A path that is one word of a command line and means itself as a pattern. -/
structure MountDir where
  path : Str
  unsplit : Unsplit path
  plain : path.all fun c => !isSpecial c

theorem isMounted_of_mountedOn {dir : Str} {table : List Str} (mounted : MountedOn dir table) :
    isMounted dir table = true := by
  obtain ⟨line, member, point⟩ := mounted
  -- A mount point is a word of its line, and `grep` looks for the text anywhere.
  have inside : dir <:+: line := infix_of_mem_fields (List.mem_of_getElem? point)
  exact List.any_eq_true.mpr ⟨line, member, by simpa using inside⟩

/-! ## The call -/

/-- What the kernel knows: the mount table, and the file behind each loop device. -/
structure Mounts where
  table : List Str
  loops : Fin 8 → Option Str

/-- `/dev/block/loop$LOOP` -/
def loopDevice (k : Fin 8) : Str := "/dev/block/loop".toList ++ decimal k

/-- The line of a mounted loop device. -/
def loopLine (k : Fin 8) (dir : Str) : Str := loopDevice k ++ ' ' :: (dir ++ " ext4 rw 0 0".toList)

/-- `losetup device img`, which fails on a device that has a file already. -/
def losetup (img : Str) (k : Fin 8) (works : Bool) (mounts : Mounts) : Option Mounts :=
  if works ∧ mounts.loops k = none then
    some { mounts with loops := Function.update mounts.loops k (some img) }
  else none

/-- `mount_ -t ext4 -o loop device dir` -/
def mountLoop (k : Fin 8) (dir : Str) (works : Bool) (mounts : Mounts) : Mounts :=
  if works then { mounts with table := mounts.table ++ [loopLine k dir] } else mounts

/-- The state of a call, with the devices it tried to mount. -/
structure Call where
  mounts : Mounts
  attempts : List (Fin 8)

section

variable (img : Str) (dir : MountDir) (works : Fin 8 → Bool × Bool)

/-- One round: attach the image, and mount the device when that worked. -/
def mountRound (k : Fin 8) (call : Call) : Call :=
  match losetup img k (works k).1 call.mounts with
  | none => call
  -- The status of `mount_` is not looked at, and the device is not detached.
  | some attached => ⟨mountLoop k dir.path (works k).2 attached, call.attempts ++ [k]⟩

/-- The rounds, until one leaves the directory mounted. A round that finds it mounted
does not print. -/
def mountRounds : List (Fin 8) → Call → Call × Option (Fin 8)
  | [], call => (call, none)
  | k :: devices, call =>
    if isMounted dir.path call.mounts.table then mountRounds devices call
    else if isMounted dir.path (mountRound img dir works k call).mounts.table then
      (mountRound img dir works k call, some k)
    else mountRounds devices (mountRound img dir works k call)

/-- What a call leaves, prints and returns. -/
structure MountResult where
  mounts : Mounts
  attempts : List (Fin 8)
  printed : Option (Fin 8)
  status : Bool

/-- `for LOOP in 0 1 2 3 4 5 6 7` -/
def loopDevices : List (Fin 8) := [0, 1, 2, 3, 4, 5, 6, 7]

/-- `mount_systemless`, where `isDir` says whether there is a directory after
`mkdir -p`, and `works` whether `losetup` and `mount_` work on each device. -/
def mountSystemless (isDir : Bool) (mounts : Mounts) : MountResult :=
  if isDir then
    match mountRounds img dir works loopDevices ⟨mounts, []⟩ with
    | (call, printed) => ⟨call.mounts, call.attempts, printed, printed.isSome⟩
  else ⟨mounts, [], none, true⟩

end

/-! ## Rounds -/

theorem isMounted_loopLine (k : Fin 8) (dir : Str) (table : List Str) :
    isMounted dir (table ++ [loopLine k dir]) = true := by
  have inside : dir <:+: loopLine k dir :=
    ⟨loopDevice k ++ [' '], " ext4 rw 0 0".toList, by simp [loopLine]⟩
  simp [isMounted, inside]

/-- `losetup` will work on the device. -/
def attachable (works : Fin 8 → Bool × Bool) (loops : Fin 8 → Option Str) (k : Fin 8) : Bool :=
  (works k).1 && (loops k).isNone

section Rounds

variable {img : Str} {dir : MountDir} {works : Fin 8 → Bool × Bool} {k : Fin 8} {call : Call}

theorem mountRound_of_not_attachable (busy : attachable works call.mounts.loops k = false) :
    mountRound img dir works k call = call := by
  have fails : ¬ ((works k).1 = true ∧ call.mounts.loops k = none) := by
    intro ready
    simp [attachable, ready] at busy
  rw [mountRound, losetup, if_neg fails]

/-- What a round does once the image is attached. -/
theorem mountRound_of_attachable (ready : attachable works call.mounts.loops k = true) :
    mountRound img dir works k call =
      ⟨⟨if (works k).2 then call.mounts.table ++ [loopLine k dir.path] else call.mounts.table,
        Function.update call.mounts.loops k (some img)⟩, call.attempts ++ [k]⟩ := by
  -- `losetup` works on a free device only.
  have attaches : (works k).1 = true ∧ call.mounts.loops k = none := by
    simpa [attachable] using ready
  rw [mountRound, losetup, if_pos attaches]
  dsimp only [mountLoop]
  split <;> rfl

/-- A directory that is mounted already is left alone. -/
theorem mountRounds_mounted (mounted : isMounted dir.path call.mounts.table = true)
    (devices : List (Fin 8)) : mountRounds img dir works devices call = (call, none) := by
  induction devices with
  | nil => rfl
  | cons k devices ih => rw [mountRounds, if_pos mounted, ih]

variable (free : isMounted dir.path call.mounts.table = false)

include free

theorem mountRounds_busy {devices : List (Fin 8)}
    (busy : ∀ k ∈ devices, attachable works call.mounts.loops k = false) (rest : List (Fin 8)) :
    mountRounds img dir works (devices ++ rest) call = mountRounds img dir works rest call := by
  induction devices with
  | nil => rfl
  | cons k devices ih =>
    -- The device is passed over, and the directory is as unmounted as before.
    have same : mountRound img dir works k call = call :=
      mountRound_of_not_attachable (busy k (by simp))
    rw [List.cons_append, mountRounds, same, if_neg (by simp [free]), if_neg (by simp [free])]
    exact ih fun other member => busy other (List.mem_cons_of_mem _ member)

/-- The first device that takes the image and can be mounted ends the call. -/
theorem mountRounds_mounts (devices : List (Fin 8))
    (ready : attachable works call.mounts.loops k = true) (mounts : (works k).2 = true) :
    mountRounds img dir works (k :: devices) call =
      (⟨⟨call.mounts.table ++ [loopLine k dir.path],
        Function.update call.mounts.loops k (some img)⟩, call.attempts ++ [k]⟩, some k) := by
  have step : mountRound img dir works k call =
      ⟨⟨call.mounts.table ++ [loopLine k dir.path],
        Function.update call.mounts.loops k (some img)⟩, call.attempts ++ [k]⟩ := by
    rw [mountRound_of_attachable ready, if_pos mounts]
  rw [mountRounds, if_neg (by simp [free]), step, if_pos (isMounted_loopLine ..)]

/-- A device that takes the image and cannot be mounted keeps it. -/
theorem mountRounds_leaks (devices : List (Fin 8))
    (ready : attachable works call.mounts.loops k = true) (fails : (works k).2 = false) :
    mountRounds img dir works (k :: devices) call = mountRounds img dir works devices
      ⟨⟨call.mounts.table, Function.update call.mounts.loops k (some img)⟩,
        call.attempts ++ [k]⟩ := by
  have step : mountRound img dir works k call =
      ⟨⟨call.mounts.table, Function.update call.mounts.loops k (some img)⟩,
        call.attempts ++ [k]⟩ := by
    rw [mountRound_of_attachable ready, if_neg (by simp [fails])]
  rw [mountRounds, if_neg (by simp [free]), step, if_neg (by simp [free])]

end Rounds

/-! ## Whole calls -/

section Calls

variable (img : Str) (dir : MountDir) (works : Fin 8 → Bool × Bool)

/-- How a sequence of rounds can end. Devices keep the files they have, the mount
table grows only by the line of the device that is printed, and that one was free. -/
structure Ended (call : Call) (ended : Call × Option (Fin 8)) : Prop where
  kept : ∀ j file, call.mounts.loops j = some file → ended.1.mounts.loops j = some file
  attempts : call.attempts <+: ended.1.attempts
  unprinted : ended.2 = none → ended.1.mounts.table = call.mounts.table
  printed : ∀ k, ended.2 = some k → isMounted dir.path call.mounts.table = false ∧
    call.mounts.loops k = none ∧ ended.1.mounts.loops k = some img ∧
    ended.1.mounts.table = call.mounts.table ++ [loopLine k dir.path]

theorem Ended.refl (call : Call) : Ended img dir call (call, none) where
  kept := fun _ _ same => same
  attempts := List.prefix_rfl
  unprinted := fun _ => rfl
  printed := fun _ impossible => absurd impossible (by simp)

theorem update_kept {loops : Fin 8 → Option Str} {k j : Fin 8} {file : Str}
    (free : loops k = none) (taken : loops j = some file) (other : Option Str) :
    Function.update loops k other j = some file := by
  have different : j ≠ k := by
    rintro rfl
    rw [free] at taken
    exact absurd taken (by simp)
  rw [Function.update_of_ne different, taken]

theorem mountRounds_ended (devices : List (Fin 8)) (call : Call) :
    Ended img dir call (mountRounds img dir works devices call) := by
  induction devices generalizing call with
  | nil => exact Ended.refl img dir call
  | cons k devices ih =>
    cases free : isMounted dir.path call.mounts.table with
    | true =>
      rw [mountRounds_mounted free]
      exact Ended.refl img dir call
    | false =>
      cases ready : attachable works call.mounts.loops k with
      | false =>
        rw [← List.singleton_append, mountRounds_busy free (by simpa using ready)]
        exact ih call
      | true =>
        have unused : call.mounts.loops k = none := by
          simp only [attachable, Bool.and_eq_true, Option.isNone_iff_eq_none] at ready
          exact ready.2
        cases mounts : (works k).2 with
        | true =>
          rw [mountRounds_mounts free devices ready mounts]
          refine ⟨?_, List.prefix_append _ _, fun impossible => absurd impossible (by simp), ?_⟩
          · intro j file taken
            exact update_kept unused taken _
          · rintro j same
            obtain rfl := Option.some.inj same
            exact ⟨free, unused, Function.update_self .., rfl⟩
        | false =>
          rw [mountRounds_leaks free devices ready mounts]
          have later := ih ⟨⟨call.mounts.table, Function.update call.mounts.loops k (some img)⟩,
            call.attempts ++ [k]⟩
          -- This device is lost, and whatever the later rounds do, it keeps the image.
          refine ⟨?_, (List.prefix_append _ _).trans later.attempts, later.unprinted, ?_⟩
          · intro j file taken
            exact later.kept j file (update_kept unused taken _)
          · intro j same
            obtain ⟨still, unusedThen, attached, line⟩ := later.printed j same
            have different : j ≠ k := by
              rintro rfl
              exact absurd unusedThen (by simp)
            dsimp only at unusedThen
            rw [Function.update_of_ne different] at unusedThen
            exact ⟨still, unusedThen, attached, line⟩

/-- A device is printed exactly when the directory is not found in the table and
some device takes the image and can be mounted. -/
theorem mountRounds_prints_iff {devices : List (Fin 8)} (distinct : devices.Nodup) (call : Call) :
    (∃ k, (mountRounds img dir works devices call).2 = some k) ↔
      isMounted dir.path call.mounts.table = false ∧
        ∃ k ∈ devices, attachable works call.mounts.loops k = true ∧ (works k).2 = true := by
  induction devices generalizing call with
  | nil => simp [mountRounds]
  | cons k devices ih =>
    obtain ⟨notLater, distinct⟩ := List.nodup_cons.mp distinct
    cases free : isMounted dir.path call.mounts.table with
    | true => simp [mountRounds_mounted free]
    | false =>
      cases ready : attachable works call.mounts.loops k with
      | false =>
        rw [← List.singleton_append, mountRounds_busy free (by simpa using ready), ih distinct]
        simp [free, ready]
      | true =>
        cases mounts : (works k).2 with
        | true =>
          rw [mountRounds_mounts free devices ready mounts]
          simp [ready, mounts]
        | false =>
          rw [mountRounds_leaks free devices ready mounts, ih distinct]
          -- The device that was lost is none of the later ones.
          have same : ∀ j ∈ devices,
              attachable works (Function.update call.mounts.loops k (some img)) j =
                attachable works call.mounts.loops j := by
            intro j member
            have different : j ≠ k := fun equal => notLater (equal ▸ member)
            rw [attachable, Function.update_of_ne different, attachable]
          constructor
          · rintro ⟨-, j, member, able, mounted⟩
            exact ⟨rfl, j, List.mem_cons_of_mem _ member, same j member ▸ able, mounted⟩
          · rintro ⟨-, j, member, able, mounted⟩
            rcases List.mem_cons.mp member with rfl | later
            · rw [mounts] at mounted
              exact absurd mounted (by simp)
            · exact ⟨free, j, later, (same j later).trans able, mounted⟩

end Calls

/-- A call is all or nothing: when it prints a device, that one was free, now holds
the image and is mounted, and nothing else changed; otherwise the loop devices are as
before. And it tries to mount unless the directory is a mount point. -/
def AllOrNothing (img : Str) (dir : MountDir) (before : Mounts) (result : MountResult) : Prop :=
  (∀ k, result.printed = some k → result.status = true ∧ before.loops k = none ∧
    result.mounts =
      ⟨before.table ++ [loopLine k dir.path], Function.update before.loops k (some img)⟩) ∧
  (result.printed = none → result.mounts.loops = before.loops) ∧
  (¬ MountedOn dir.path before.table → result.attempts ≠ [])

/-- A call that loses a device is neither. -/
theorem not_allOrNothing_of_leak {img : Str} {dir : MountDir} {before : Mounts} {k : Fin 8}
    {attempts : List (Fin 8)} {ended : Call × Option (Fin 8)} (free : before.loops k = none)
    (later : Ended img dir
      ⟨⟨before.table, Function.update before.loops k (some img)⟩, attempts⟩ ended) :
    ¬ AllOrNothing img dir before
      ⟨ended.1.mounts, ended.1.attempts, ended.2, ended.2.isSome⟩ := by
  rintro ⟨whole, nothing, -⟩
  -- The device holds the image at the end, whoever is printed.
  have lost : ended.1.mounts.loops k = some img :=
    later.kept k img (Function.update_self ..)
  cases printed : ended.2 with
  | none =>
    rw [nothing printed, free] at lost
    exact absurd lost (by simp)
  | some j =>
    obtain ⟨-, -, mounts⟩ := whole j printed
    have different : k ≠ j := by
      rintro rfl
      obtain ⟨-, unused, -⟩ := later.printed k printed
      exact absurd ((Function.update_self ..).symm.trans unused) (by simp)
    rw [show ended.1.mounts.loops = Function.update before.loops j (some img) from
      congrArg Mounts.loops mounts, Function.update_of_ne different, free] at lost
    exact absurd lost (by simp)

/-- `mount_systemless` is all or nothing exactly when its directory is a mount point
already, or it is a directory that no line of the table contains, and the first
loop device that takes the image can be mounted. -/
theorem mountSystemless_allOrNothing_iff (img : Str) (dir : MountDir)
    (works : Fin 8 → Bool × Bool) (isDir : Bool) (before : Mounts) :
    AllOrNothing img dir before (mountSystemless img dir works isDir before) ↔
      MountedOn dir.path before.table ∨
        isDir = true ∧ isMounted dir.path before.table = false ∧
          ∃ k, loopDevices.find? (attachable works before.loops) = some k ∧
            (works k).2 = true := by
  -- A call that changes nothing needs a directory that is a mount point.
  have idle (status : Bool) : AllOrNothing img dir before ⟨before, [], none, status⟩ ↔
      MountedOn dir.path before.table := by
    simp [AllOrNothing]
  cases isDir with
  | false => simpa [mountSystemless] using idle true
  | true =>
    rw [mountSystemless, if_pos rfl]
    cases free : isMounted dir.path before.table with
    | true =>
      have same : mountRounds img dir works loopDevices ⟨before, []⟩ = (⟨before, []⟩, none) :=
        mountRounds_mounted free loopDevices
      rw [same]
      simpa using idle false
    | false =>
      have notMounted : ¬ MountedOn dir.path before.table := by
        intro mounted
        rw [isMounted_of_mountedOn mounted] at free
        exact absurd free (by simp)
      cases first : loopDevices.find? (attachable works before.loops) with
      | none =>
        -- No device takes the image, so nothing was tried and nothing changed.
        have busy : ∀ k ∈ loopDevices, attachable works before.loops k = false := by
          simpa using List.find?_eq_none.mp first
        have same : mountRounds img dir works loopDevices ⟨before, []⟩ = (⟨before, []⟩, none) := by
          rw [← List.append_nil loopDevices]
          exact mountRounds_busy free busy []
        rw [same]
        simpa [notMounted] using idle false
      | some k =>
        obtain ⟨ready, front, rest, devices, busy⟩ := List.find?_eq_some_iff_append.mp first
        -- The devices in front of the first one that takes the image are passed over.
        have skipped : mountRounds img dir works loopDevices ⟨before, []⟩ =
            mountRounds img dir works (k :: rest) ⟨before, []⟩ := by
          rw [devices]
          exact mountRounds_busy free (by simpa using busy) (k :: rest)
        have unused : before.loops k = none := by
          simp only [attachable, Bool.and_eq_true, Option.isNone_iff_eq_none] at ready
          exact ready.2
        rw [skipped]
        cases mounts : (works k).2 with
        | true =>
          have ends : mountRounds img dir works (k :: rest) ⟨before, []⟩ = _ :=
            mountRounds_mounts free rest ready mounts
          rw [ends]
          constructor
          · intro _
            exact Or.inr ⟨rfl, rfl, k, rfl, mounts⟩
          · intro _
            refine ⟨?_, fun impossible => absurd impossible (by simp), fun _ => by simp⟩
            intro j same
            obtain rfl := Option.some.inj same
            exact ⟨rfl, unused, rfl⟩
        | false =>
          have leaks : mountRounds img dir works (k :: rest) ⟨before, []⟩ = _ :=
            mountRounds_leaks free rest ready mounts
          rw [leaks]
          constructor
          · intro allOrNothing
            exact absurd allOrNothing (not_allOrNothing_of_leak unused (mountRounds_ended ..))
          · rintro (mounted | ⟨-, -, j, same, mounted⟩)
            · exact absurd mounted notMounted
            · obtain rfl := Option.some.inj same
              rw [mounts] at mounted
              exact absurd mounted (by simp)

/-- `/su` -/
def suDir : MountDir where
  path := "/su".toList
  unsplit := by decide
  plain := by decide

/-- Where the image is attached to two devices and mounted from the second, the first
one is lost. And a mounted directory whose name starts with `/su` is enough for the
image to be skipped. -/
theorem device_lost_and_image_skipped :
    (let works : Fin 8 → Bool × Bool := fun k => (true, k = 1)
      let result := mountSystemless "/data/su.img".toList suDir works true ⟨[], fun _ => none⟩
      result.printed = some 1 ∧ result.mounts.loops 0 = some "/data/su.img".toList ∧
        ¬ AllOrNothing "/data/su.img".toList suDir ⟨[], fun _ => none⟩ result) ∧
    (let table := ["tmpfs /support tmpfs rw 0 0".toList]
      let result := mountSystemless "/data/su.img".toList suDir (fun _ => (true, true)) true
        ⟨table, fun _ => none⟩
      ¬ MountedOn suDir.path table ∧ result.attempts = [] ∧
        ¬ AllOrNothing "/data/su.img".toList suDir ⟨table, fun _ => none⟩ result) := by
  refine ⟨⟨by decide +kernel, by decide +kernel, ?_⟩, by decide +kernel, by decide +kernel, ?_⟩
  · rintro ⟨whole, -, -⟩
    obtain ⟨-, -, mounts⟩ := whole 1 (by decide +kernel)
    have lost := congrFun (congrArg Mounts.loops mounts) 0
    exact absurd lost (by decide +kernel)
  · rintro ⟨-, -, tries⟩
    exact tries (by decide +kernel) (by decide +kernel)

end BbBot.Installer
