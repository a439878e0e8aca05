/-
# Merging users and groups

`addusergroup.sh` gives the system's `passwd` and `group` files a line for root
and for every name of its list. A name is looked up in a file with `grep`, as a
line that starts with the name and a colon, and only a name that is not found
gets a line appended. The two files are handled independently, and each lookup
sees what the run has appended so far.

A line is appended with `echo`, behind whatever the file ends with. When the
last line of a file is not terminated, the first appended line is glued to it:
the old line is gone and the new name is not at the start of a line.
-/

import BbBot.Unix.Text

namespace BbBot.Accounts

open BbBot.Unix

/-! ## The script -/

/-- The two files. -/
inductive Table
  | passwd
  | group
  deriving DecidableEq

/-- The contents of the files that exist. -/
abbrev Tables := Table → Option Str

/-- The arguments of `addug`. -/
structure Account where
  id : Str
  name : Str
  home : Str
  shell : Str
  deriving DecidableEq

/-- `user_name_id_list`, which starts with a newline and has one entry a line. -/
def userNameIdList : Str :=
  output (List.map String.toList [
    "", "1000-system", "1001-radio", "1002-bluetooth", "1003-graphics", "1004-input",
    "1005-audio", "1006-camera", "1007-log", "1008-compass", "1009-mount", "1010-wifi",
    "1011-adb", "1012-install", "1013-media", "1014-dhcp", "1015-sdcard_rw", "1016-vpn",
    "1017-keystore", "1018-usb", "1019-drm", "1020-mdnsr", "1021-gps", "1023-media_rw",
    "1024-mtp", "1026-drmrpc", "1027-nfc", "1028-sdcard_r", "1029-clat", "1030-loop_radio",
    "1031-mediadrm", "1032-package_info", "1033-sdcard_pics", "1034-sdcard_av",
    "1035-sdcard_all", "1036-logd", "1037-shared_relro", "1038-dbus", "1039-tlsdate",
    "1040-mediaex", "1041-audioserver", "1042-metrics_coll", "1043-metricsd", "1044-webserv",
    "1045-debuggerd", "1046-mediacodec", "1047-cameraserver", "1048-firewall", "1049-trunks",
    "1050-nvram", "1051-dns", "1052-dns_tether", "1053-webview_zygote", "2000-shell",
    "2001-cache", "2002-diag", "3001-net_bt_admin", "3002-net_bt", "3003-inet", "3004-net_raw",
    "3005-net_admin", "3006-net_bw_stats", "3007-net_bw_acct", "3008-net_bt_stack",
    "3009-readproc", "3010-wakelock", "9997-everybody", "9998-misc", "9999-nobody"])

/-- `addug 0 root /data/local/cron /system/bin/sh` -/
def rootAccount : Account where
  id := "0".toList
  name := "root".toList
  home := "/data/local/cron".toList
  shell := "/system/bin/sh".toList

/-- `addug ${i%-*} ${i#*-} /system /system/bin/false` -/
def listedAccount (i : Str) : Account where
  id := beforeLast '-' i
  name := afterFirst '-' i
  home := "/system".toList
  shell := "/system/bin/false".toList

/-- The accounts of `user_name_id_list`. -/
def listedAccounts : List Account := (fields userNameIdList).map listedAccount

/-- The accounts in the order in which the script adds them. -/
def accounts : List Account := rootAccount :: listedAccounts

/-- The line that `addu` writes to `passwd`. -/
def addu (account : Account) : Str :=
  account.name ++ ":x:".toList ++ account.id ++ ":".toList ++ account.id ++ "::".toList ++
    account.home ++ ":".toList ++ account.shell

/-- The line that `addg` writes to `group`. -/
def addg (account : Account) : Str :=
  account.name ++ ":x:".toList ++ account.id ++ ":".toList ++ account.name

def record : Table → Account → Str
  | .passwd => addu
  | .group => addg

/-- `grep ^name: file`. The names of the script mean themselves as patterns. -/
def found (name text : Str) : Bool :=
  (inputLines text).any fun line => (name ++ [':']).isPrefixOf line

/-- `echo line >> file`, which creates the file when it is absent. -/
def append (line : Str) (file : Option Str) : Str := file.getD [] ++ (line ++ ['\n'])

/-- `grep ^name: file || add name`, and its status. -/
def addTo (table : Table) (account : Account) (works : Bool) (files : Tables) : Tables × Bool :=
  if (files table).any (found account.name) then (files, true)
  else if works then
    (Function.update files table (some (append (record table account) (files table))), true)
  else (files, false)

/-- `addug`: first the group, then the user. Its status is that of the second. -/
def addug (account : Account) (works : Table → Bool) (files : Tables) : Tables × Bool :=
  addTo .passwd account (works .passwd) (addTo .group account (works .group) files).1

/-- The rounds of the script, each with whether its writes work. The status of a
sequence is that of its last command. -/
def addAll : List (Account × (Table → Bool)) → Tables × Bool → Tables × Bool
  | [], state => state
  | round :: rounds, state => addAll rounds (addug round.1 round.2 state.1)

/-- `[ ! -f file ] && touch file`, none when `touch` fails. -/
def touch (table : Table) (works : Bool) (files : Tables) : Option Tables :=
  if (files table).isSome then some files
  else if works then some (Function.update files table (some []))
  else none

/-- The whole subshell and its status. It stops when `touch` fails. -/
def addUserGroup (touches : Table → Bool) (rounds : List (Account × (Table → Bool)))
    (files : Tables) : Tables × Bool :=
  match touch .passwd (touches .passwd) files with
  | none => (files, false)
  | some first =>
    -- `exit 1` on an error; the second file is tested after the first was created.
    match touch .group (touches .group) first with
    | none => (first, false)
    | some both => addAll rounds (both, true)

/-- A run in which every write works. -/
def merge (files : Tables) : Tables :=
  (addUserGroup (fun _ => true) (accounts.map fun account => (account, fun _ => true)) files).1

/-! ## One file -/

/-- What the rounds do to the text of one file. -/
def mergeText (line : Account → Str) : List Account → Str → Str
  | [], text => text
  | account :: rest, text =>
    if found account.name text then mergeText line rest text
    else mergeText line rest (text ++ (line account ++ ['\n']))

/-- The accounts that are appended on the way. -/
def missing (line : Account → Str) : List Account → Str → List Account
  | [], _ => []
  | account :: rest, text =>
    if found account.name text then missing line rest text
    else account :: missing line rest (text ++ (line account ++ ['\n']))

/-- A write that fails is as good as an account that is not in the list. -/
theorem addTo_self (table : Table) (account : Account) (works : Bool) {files : Tables}
    {text : Str} (present : files table = some text) :
    (addTo table account works files).1 table =
      some (mergeText (record table) (if works then [account] else []) text) := by
  rw [addTo, present]
  -- Found, refused or appended: the same three cases on both sides.
  by_cases known : found account.name text
  · cases works
    · simp [known, present, mergeText]
    · simp [known, present, mergeText]
  · cases works
    · simp [known, present, mergeText]
    · simp [known, append, mergeText]

theorem addTo_of_ne {table other : Table} (different : other ≠ table) (account : Account)
    (works : Bool) (files : Tables) : (addTo table account works files).1 other = files other := by
  rw [addTo]
  split
  · rfl
  · split
    · exact Function.update_of_ne different _ _
    · rfl

theorem mergeText_append (line : Account → Str) (first rest : List Account) (text : Str) :
    mergeText line (first ++ rest) text = mergeText line rest (mergeText line first text) := by
  induction first generalizing text with
  | nil => rfl
  | cons account first ih =>
    rw [List.cons_append, mergeText, mergeText]
    split
    · exact ih text
    · exact ih _

/-- A round changes both files, each by itself. -/
theorem addug_table (table : Table) (account : Account) (works : Table → Bool) {files : Tables}
    {text : Str} (present : files table = some text) :
    (addug account works files).1 table =
      some (mergeText (record table) (if works table then [account] else []) text) := by
  cases table with
  | passwd =>
    apply addTo_self
    rw [addTo_of_ne (by decide), present]
  | group =>
    rw [addug, addTo_of_ne (by decide)]
    exact addTo_self .group account (works .group) present

/-- What a file holds after the rounds: the merge of the accounts whose writes work. -/
theorem addAll_table (table : Table) (works : Account → Table → Bool) (list : List Account)
    {files : Tables} {text : Str} (status : Bool) (present : files table = some text) :
    (addAll (list.map fun account => (account, works account)) (files, status)).1 table =
      some (mergeText (record table) (list.filter (works · table)) text) := by
  induction list generalizing files text status with
  | nil => exact present
  | cons account rest ih =>
    -- The first account passes the filter or drops out, like its write.
    have split : (account :: rest).filter (works · table) =
        (if works account table then [account] else []) ++ rest.filter (works · table) := by
      rw [List.filter_cons]
      split
      · rfl
      · rfl
    rw [List.map_cons, addAll, split, mergeText_append]
    exact ih _ (addug_table table account (works account) present)

/-- `touch` fails on a file that is absent, or leaves it there and nothing else
changed. -/
theorem touch_cases (table : Table) (works : Bool) (files : Tables) :
    (files table = none ∧ works = false) ∧ touch table works files = none ∨
      (files table = none → works = true) ∧ ∃ next, touch table works files = some next ∧
        next table = some ((files table).getD []) ∧
        ∀ other, other ≠ table → next other = files other := by
  unfold touch
  cases content : files table with
  | some text =>
    exact Or.inr ⟨fun absent => absurd absent (by simp), files, rfl, content, fun _ _ => rfl⟩
  | none =>
    cases works with
    | false => exact Or.inl ⟨⟨rfl, rfl⟩, rfl⟩
    | true =>
      refine Or.inr ⟨fun _ => rfl, _, rfl, Function.update_self .., ?_⟩
      intro other different
      exact Function.update_of_ne different _ _

/-- A run ends with an error when a file is absent and cannot be created. Otherwise it
goes through its rounds with both files there. -/
theorem addUserGroup_cases (touches : Table → Bool) (rounds : List (Account × (Table → Bool)))
    (files : Tables) :
    (∃ table, files table = none ∧ touches table = false) ∧
        (addUserGroup touches rounds files).2 = false ∨
      (∀ table, files table = none → touches table = true) ∧
        ∃ both, addUserGroup touches rounds files = addAll rounds (both, true) ∧
          ∀ table, both table = some ((files table).getD []) := by
  unfold addUserGroup
  rcases touch_cases .passwd (touches .passwd) files with
    ⟨fails, stopped⟩ | ⟨able, first, ran, passwd, keeps⟩
  · rw [stopped]
    exact Or.inl ⟨⟨.passwd, fails⟩, rfl⟩
  · rw [ran]
    dsimp only
    -- The second `touch` sees the group file as it was.
    have same : first .group = files .group := keeps .group (by decide)
    rcases touch_cases .group (touches .group) first with
      ⟨fails, stopped⟩ | ⟨ableToo, both, ran, group, keepsToo⟩
    · rw [stopped]
      exact Or.inl ⟨⟨.group, same ▸ fails⟩, rfl⟩
    · rw [ran]
      refine Or.inr ⟨?_, both, rfl, ?_⟩
      · intro table
        cases table with
        | passwd => exact able
        | group => exact same ▸ ableToo
      · intro table
        cases table with
        | passwd => rw [keepsToo .passwd (by decide), passwd]
        | group => rw [group, same]

/-- After a run each file has its merged text. -/
theorem merge_table (files : Tables) (table : Table) :
    merge files table = some (mergeText (record table) accounts ((files table).getD [])) := by
  rw [merge]
  rcases addUserGroup_cases (fun _ => true) (accounts.map fun account => (account, fun _ => true))
    files with ⟨⟨_, -, fails⟩, -⟩ | ⟨-, both, same, contents⟩
  · exact absurd fails (by simp)
  · rw [same, addAll_table table (fun _ _ => true) accounts true (contents table),
      List.filter_eq_self.mpr fun _ _ => rfl]

/-! ## Looking names up -/

/-- The accounts of a list can be told apart in a file: names are distinct, hold
no colon, and start their lines. -/
structure Distinct (line : Account → Str) (list : List Account) : Prop where
  names : (list.map Account.name).Nodup
  plain : ∀ account ∈ list, ':' ∉ account.name
  single : ∀ account ∈ list, '\n' ∉ line account
  starts : ∀ account ∈ list, ∃ rest, line account = account.name ++ ':' :: rest

theorem Distinct.sublist {line : Account → Str} {list some_ : List Account}
    (distinct : Distinct line list) (sub : some_.Sublist list) : Distinct line some_ where
  names := distinct.names.sublist (sub.map _)
  plain := fun account member => distinct.plain account (sub.subset member)
  single := fun account member => distinct.single account (sub.subset member)
  starts := fun account member => distinct.starts account (sub.subset member)

theorem Distinct.tail {line : Account → Str} {account : Account} {rest : List Account}
    (distinct : Distinct line (account :: rest)) : Distinct line rest :=
  distinct.sublist (List.sublist_cons_self account rest)

/-- Where a name without a colon ends is settled by the first colon. -/
theorem eq_of_colon {name other rest text : Str} (plain : ':' ∉ name) (otherPlain : ':' ∉ other)
    (same : name ++ ':' :: rest = other ++ ':' :: text) : name = other := by
  induction name generalizing other with
  | nil =>
    cases other with
    | nil => rfl
    | cons c other =>
      have head : ':' = c := (List.cons.inj same).1
      exact absurd (head ▸ List.mem_cons_self) otherPlain
  -- Both names go on with the same character.
  | cons x name ih =>
    cases other with
    | nil =>
      have head : x = ':' := (List.cons.inj same).1
      exact absurd (head ▸ List.mem_cons_self) plain
    | cons c other =>
      obtain ⟨rfl, tails⟩ := List.cons.inj same
      rw [ih (fun inside => plain (by simp [inside])) (fun inside => otherPlain (by simp [inside]))
        tails]

/-- Behind another line, an account's line is found under a name that the other line
starts with, or that is put together at the seam. -/
theorem starts_glued {name other last rest : Str} (plain : ':' ∉ name) (otherPlain : ':' ∉ other)
    (starts : name ++ [':'] <+: last ++ (other ++ ':' :: rest)) :
    name ++ [':'] <+: last ∨ name = last ++ other := by
  rcases List.prefix_or_prefix_of_prefix starts (List.prefix_append last _) with inside | inside
  · exact Or.inl inside
  · obtain ⟨tail, same⟩ := inside
    rcases List.eq_nil_or_concat tail with rfl | ⟨front, c, rfl⟩
    · rw [List.append_nil] at same
      exact Or.inl (same ▸ List.prefix_rfl)
    · -- The first line ends inside the name, and the rest of the name is the other one.
      rw [List.concat_eq_append, ← List.append_assoc] at same
      obtain ⟨whole, isColon⟩ := List.append_inj' same rfl
      obtain rfl : c = ':' := by simpa using isColon
      rw [← whole] at starts
      obtain ⟨more, again⟩ := starts
      rw [List.append_assoc, List.append_assoc] at again
      have cut : front ++ ':' :: more = other ++ ':' :: rest := by
        simpa using List.append_cancel_left again
      have frontPlain : ':' ∉ front := fun member => plain (whole ▸ List.mem_append_right _ member)
      rw [← whole, eq_of_colon frontPlain otherPlain cut]
      exact Or.inr rfl

section Lookup

variable {line : Account → Str} {account other : Account} (plain : ':' ∉ account.name)
  (otherPlain : ':' ∉ other.name) {rest : Str} (starts : line other = other.name ++ ':' :: rest)

include plain otherPlain starts

/-- The line of an account is found under its own name only. -/
theorem starts_line_iff :
    account.name ++ [':'] <+: line other ↔ account.name = other.name := by
  rw [starts]
  constructor
  · rintro ⟨text, same⟩
    rw [List.append_assoc, List.singleton_append] at same
    exact eq_of_colon plain otherPlain same
  · intro same
    rw [same]
    exact ⟨rest, by simp⟩

end Lookup

theorem found_iff {name text : Str} :
    found name text = true ↔ ∃ line ∈ inputLines text, name ++ [':'] <+: line := by
  simp [found]

/-- A name that is found stays found, whatever is appended. -/
theorem found_append_line {name text line : Str} (single : '\n' ∉ line)
    (known : found name text = true) : found name (text ++ (line ++ ['\n'])) = true := by
  obtain ⟨first, last, -, before, after⟩ := inputLines_append_line text single
  obtain ⟨old, member, starts⟩ := found_iff.mp known
  rw [before] at member
  rw [found_iff, after]
  rcases List.mem_append.mp member with member | member
  · exact ⟨old, List.mem_append_left _ member, starts⟩
  -- The old last line is extended and still starts with the name.
  · split at member
    · exact absurd member (by simp)
    · obtain rfl := List.mem_singleton.mp member
      exact ⟨old ++ line, by simp, starts.trans (List.prefix_append old line)⟩

/-- Behind a terminated text a line is read as it was written. -/
theorem inputLines_append_of_terminated {text line : Str} (terminated : Terminated text)
    (single : '\n' ∉ line) :
    inputLines (text ++ (line ++ ['\n'])) = inputLines text ++ [line] := by
  obtain ⟨first, last, empty, before, after⟩ := inputLines_append_line text single
  rw [after, before, empty.mp terminated]
  simp

theorem inputLines_append_output {text : Str} (terminated : Terminated text) {printed : List Str}
    (single : ∀ line ∈ printed, '\n' ∉ line) :
    inputLines (text ++ output printed) = inputLines text ++ printed := by
  induction printed generalizing text with
  | nil => simp [output]
  | cons line printed ih =>
    have split : text ++ output (line :: printed) =
        text ++ (line ++ ['\n']) ++ output printed := by simp [output]
    rw [split, ih (terminated_append_line text line) fun other member =>
      single other (List.mem_cons_of_mem _ member),
      inputLines_append_of_terminated terminated (single line (by simp)), List.append_assoc]
    rfl

/-! ## A run on one file -/

section Run

variable {line : Account → Str} {list : List Account} {text : Str}

theorem mergeText_of_found (line : Account → Str)
    (all : ∀ account ∈ list, found account.name text = true) :
    mergeText line list text = text ∧ missing line list text = [] := by
  induction list with
  | nil => exact ⟨rfl, rfl⟩
  | cons account rest ih =>
    have known := all account (by simp)
    rw [mergeText, missing, if_pos known, if_pos known]
    exact ih fun other member => all other (List.mem_cons_of_mem _ member)

theorem mem_of_mem_missing {account : Account}
    (member : account ∈ missing line list text) : account ∈ list := by
  induction list generalizing text with
  | nil => exact member
  | cons first rest ih =>
    rw [missing] at member
    split at member
    · exact List.mem_cons_of_mem _ (ih member)
    · rcases List.mem_cons.mp member with rfl | later
      · exact List.mem_cons_self
      · exact List.mem_cons_of_mem _ (ih later)

/-- A terminated file gets the lines of the accounts it did not have, in order. -/
theorem mergeText_eq (distinct : Distinct line list) (terminated : Terminated text) :
    missing line list text = (list.filter fun account => !found account.name text) ∧
      mergeText line list text = text ++ output ((missing line list text).map line) := by
  induction list generalizing text with
  | nil => exact ⟨rfl, by simp [mergeText, missing, output]⟩
  | cons account rest ih =>
    rw [missing, mergeText]
    split
    · rename_i known
      rw [List.filter_cons_of_neg (by simp [known])]
      exact ih distinct.tail terminated
    · rename_i unknown
      have single := distinct.single account (by simp)
      obtain ⟨lineRest, starts⟩ := distinct.starts account (by simp)
      -- The line that was added answers no lookup of the other names.
      have unchanged : ∀ other ∈ rest,
          found other.name (text ++ (line account ++ ['\n'])) = found other.name text := by
        intro other member
        have different : other.name ≠ account.name := by
          intro same
          exact (List.nodup_cons.mp distinct.names).1 (same ▸ List.mem_map_of_mem member)
        have apart : ¬ other.name ++ [':'] <+: line account := by
          rw [starts_line_iff (distinct.plain other (by simp [member]))
            (distinct.plain account (by simp)) starts]
          exact different
        rw [found, inputLines_append_of_terminated terminated single, List.any_append, found]
        simp [apart]
      obtain ⟨rest, text'⟩ := ih distinct.tail (terminated_append_line text (line account))
      -- The rest was looked up in the longer text, with the same answers.
      rw [text', rest, List.filter_cons_of_pos (by simpa using unknown),
        List.filter_congr fun other member => by rw [unchanged other member]]
      exact ⟨rfl, by simp [output]⟩

theorem inputLines_mergeText (distinct : Distinct line list) (terminated : Terminated text) :
    inputLines (mergeText line list text) =
      inputLines text ++ (list.filter fun account => !found account.name text).map line := by
  obtain ⟨isFilter, whole⟩ := mergeText_eq distinct terminated
  rw [whole, isFilter, inputLines_append_output terminated]
  intro printed member
  obtain ⟨account, inside, rfl⟩ := List.mem_map.mp member
  exact distinct.single account (List.mem_filter.mp inside).1

/-- Afterwards a terminated file has every account. -/
theorem found_mergeText (distinct : Distinct line list) (terminated : Terminated text)
    {account : Account} (member : account ∈ list) :
    found account.name (mergeText line list text) = true := by
  rw [found_iff, inputLines_mergeText distinct terminated]
  cases known : found account.name text with
  | true =>
    -- A line that was there is still there, and one that was not is the account's own.
    obtain ⟨old, inside, starts⟩ := found_iff.mp known
    exact ⟨old, List.mem_append_left _ inside, starts⟩
  | false =>
    obtain ⟨rest, starts⟩ := distinct.starts account member
    refine ⟨line account, List.mem_append_right _ (List.mem_map_of_mem ?_), rest, ?_⟩
    · exact List.mem_filter.mpr ⟨member, by simp [known]⟩
    · simp [starts]

end Run

/-! ## The accounts of the script -/

/-- Every word of the list is an identifier, a dash and a name. The names differ,
and no field holds a colon or a newline. -/
private theorem accounts_sound :
    (∀ i ∈ fields userNameIdList, i = (listedAccount i).id ++ '-' :: (listedAccount i).name) ∧
    (accounts.map Account.name).Nodup ∧ ∀ account ∈ accounts,
      (':' ∉ account.name ∧ '\n' ∉ account.name) ∧ (':' ∉ account.id ∧ '\n' ∉ account.id) ∧
      (':' ∉ account.home ∧ '\n' ∉ account.home) ∧ ':' ∉ account.shell ∧
        '\n' ∉ account.shell := by
  decide +kernel

theorem distinct_accounts (table : Table) : Distinct (record table) accounts where
  names := accounts_sound.2.1
  plain := fun account member => (accounts_sound.2.2 account member).1.1
  single := by
    intro account member
    obtain ⟨name, id, home, shell⟩ := accounts_sound.2.2 account member
    cases table <;> simp [record, addu, addg, name, id, home, shell]
  starts := by
    intro account member
    cases table with
    | passwd => exact ⟨_, by simp only [record, addu, List.append_assoc]; rfl⟩
    | group => exact ⟨_, by simp only [record, addg, List.append_assoc]; rfl⟩

/-- Files that are absent, empty or terminated keep their text and get one line for
each account they did not have, in the order of the list and with its fields.
Afterwards no account is missing, and a second run changes nothing. -/
theorem merge_complete (files : Tables)
    (terminated : ∀ table, Terminated ((files table).getD [])) :
    (∀ table, ∃ text, merge files table = some text ∧
      text = (files table).getD [] ++ output ((accounts.filter fun account =>
        !found account.name ((files table).getD [])).map (record table)) ∧
      ∀ account ∈ accounts, found account.name text = true) ∧
    (accounts.map Account.name).Nodup ∧
    (∀ account ∈ accounts,
      (record .passwd account).splitOn ':' = [account.name, ['x'], account.id, account.id, [],
        account.home, account.shell] ∧
      (record .group account).splitOn ':' = [account.name, ['x'], account.id, account.name]) ∧
    (∀ i ∈ fields userNameIdList, ∃ account ∈ accounts, i = account.id ++ '-' :: account.name) ∧
    merge (merge files) = merge files := by
  have texts (table : Table) : ∃ text, merge files table = some text ∧
      text = (files table).getD [] ++ output ((accounts.filter fun account =>
        !found account.name ((files table).getD [])).map (record table)) ∧
      ∀ account ∈ accounts, found account.name text = true := by
    obtain ⟨isFilter, whole⟩ := mergeText_eq (distinct_accounts table) (terminated table)
    refine ⟨_, merge_table files table, whole.trans (by rw [isFilter]), ?_⟩
    intro account member
    exact found_mergeText (distinct_accounts table) (terminated table) member
  obtain ⟨words, names, plain⟩ := accounts_sound
  refine ⟨texts, names, ?_, ?_, ?_⟩
  · intro account member
    obtain ⟨⟨name, -⟩, ⟨id, -⟩, ⟨home, -⟩, shell, -⟩ := plain account member
    -- A line is its fields with colons between them, and no field has one inside.
    have passwd : record .passwd account = [':'].intercalate [account.name, ['x'], account.id,
        account.id, [], account.home, account.shell] := by
      simp [record, addu, List.intercalate]
    have group : record .group account =
        [':'].intercalate [account.name, ['x'], account.id, account.name] := by
      simp [record, addg, List.intercalate]
    rw [passwd, group]
    constructor
    · exact List.splitOn_intercalate ':' (by simp [name, id, home, shell]) (by simp)
    · exact List.splitOn_intercalate ':' (by simp [name, id]) (by simp)
  · intro i member
    refine ⟨listedAccount i, ?_, words i member⟩
    exact List.mem_cons_of_mem _ (List.mem_map_of_mem member)
  · funext table
    obtain ⟨text, after, -, all⟩ := texts table
    -- Everybody is found by now, so a second run appends nothing.
    rw [merge_table, after, Option.getD_some, (mergeText_of_found _ all).1]

theorem merge_complete_fresh : merge (merge fun _ => none) = merge fun _ => none :=
  (merge_complete (fun _ => none) fun _ => Or.inl rfl).2.2.2.2

/-! ## Files whose last line is not terminated -/

/-- A name is not found at the start of its own line when that was glued to another
line, which was not found itself. -/
theorem not_starts_glued {name last rest : Str} (plain : ':' ∉ name) (glued : last ≠ [])
    (unknown : ¬ name ++ [':'] <+: last) : ¬ name ++ [':'] <+: last ++ (name ++ ':' :: rest) := by
  intro starts
  rcases starts_glued plain plain starts with inside | same
  · exact unknown inside
  · exact glued (by simpa using same)

section Glued

variable {line : Account → Str} {text : Str} (unterminated : ¬ Terminated text)

include unterminated

/-- What is read once a line was glued to the last one, and who is found then. -/
theorem glue {account : Account} {rest : List Account}
    (distinct : Distinct line (account :: rest)) :
    ∃ front last, last ≠ [] ∧ inputLines text = front ++ [last] ∧
      inputLines (mergeText line rest (text ++ (line account ++ ['\n']))) =
        front ++ (last ++ line account) :: (rest.filter fun other =>
          !found other.name (text ++ (line account ++ ['\n']))).map line := by
  obtain ⟨front, last, empty, before, after⟩ :=
    inputLines_append_line text (distinct.single account (by simp))
  have glued : last ≠ [] := fun isEmpty => unterminated (empty.mpr isEmpty)
  rw [if_neg glued] at before
  refine ⟨front, last, glued, before, ?_⟩
  rw [inputLines_mergeText distinct.tail (terminated_append_line _ _), after]
  simp

/-- The first account that is appended is not found afterwards. -/
theorem not_found_glued {account : Account} {rest : List Account}
    (distinct : Distinct line (account :: rest)) (unknown : found account.name text = false) :
    found account.name (mergeText line rest (text ++ (line account ++ ['\n']))) = false := by
  obtain ⟨front, last, glued, before, after⟩ := glue unterminated distinct
  have notFound : ∀ old ∈ inputLines text, ¬ account.name ++ [':'] <+: old := by
    intro old member starts
    rw [found_iff.mpr ⟨old, member, starts⟩] at unknown
    exact absurd unknown (by simp)
  rw [before] at notFound
  have plain := distinct.plain account (by simp)
  rw [← Bool.not_eq_true, found_iff, after]
  rintro ⟨now, member, starts⟩
  rcases List.mem_append.mp member with member | member
  · exact notFound now (List.mem_append_left _ member) starts
  rcases List.mem_cons.mp member with rfl | member
  -- The glued line.
  · obtain ⟨lineRest, form⟩ := distinct.starts account (by simp)
    rw [form] at starts
    exact not_starts_glued plain glued (notFound last (by simp)) starts
  -- The line of a later account, which has another name.
  · obtain ⟨other, kept, rfl⟩ := List.mem_map.mp member
    have inside := (List.mem_filter.mp kept).1
    obtain ⟨lineRest, form⟩ := distinct.starts other (List.mem_cons_of_mem _ inside)
    rw [starts_line_iff plain (distinct.plain other (List.mem_cons_of_mem _ inside)) form] at starts
    exact (List.nodup_cons.mp distinct.names).1 (starts ▸ List.mem_map_of_mem inside)

/-- So all that are appended are found only when none is appended. -/
theorem found_of_found_missing {list : List Account} (distinct : Distinct line list)
    (later : ∀ account ∈ missing line list text,
      found account.name (mergeText line list text) = true) :
    ∀ account ∈ list, found account.name text = true := by
  induction list with
  | nil => simp
  | cons account rest ih =>
    cases known : found account.name text with
    | false =>
      -- The first one that is appended would have to be found.
      rw [missing, mergeText, if_neg (by simp [known]), if_neg (by simp [known])] at later
      have gone := not_found_glued unterminated distinct known
      rw [later account (by simp)] at gone
      exact absurd gone (by simp)
    | true =>
      rw [missing, mergeText, if_pos known, if_pos known] at later
      intro other member
      rcases List.mem_cons.mp member with rfl | inside
      · exact known
      · exact ih distinct.tail later other inside

/-- When the first account is glued on, the old lines survive only if the last one
stands in the file a second time. -/
theorem lines_survive_glue_iff {account : Account} {rest : List Account}
    (distinct : Distinct line (account :: rest)) :
    (∀ old ∈ inputLines text,
        old ∈ inputLines (mergeText line rest (text ++ (line account ++ ['\n'])))) ↔
      ∃ last ∈ (inputLines text).dropLast, (inputLines text).getLast? = some last := by
  obtain ⟨front, last, glued, before, after⟩ := glue unterminated distinct
  have single := distinct.single account (by simp)
  rw [before, after, List.dropLast_concat, List.getLast?_concat]
  constructor
  · intro survive
    refine ⟨last, ?_, rfl⟩
    rcases List.mem_append.mp (survive last (by simp)) with inside | inside
    · exact inside
    rcases List.mem_cons.mp inside with same | inside
    · obtain ⟨lineRest, form⟩ := distinct.starts account (by simp)
      -- The glued line is longer than the old one.
      have nothing : line account = [] := by simpa using same
      rw [form] at nothing
      exact absurd nothing (by simp)
    · -- An account whose line was there already is not appended.
      obtain ⟨other, kept, same⟩ := List.mem_map.mp inside
      obtain ⟨member, unknown⟩ := List.mem_filter.mp kept
      obtain ⟨lineRest, form⟩ := distinct.starts other (List.mem_cons_of_mem _ member)
      have known : found other.name text = true := by
        rw [found_iff, before]
        exact ⟨last, by simp, lineRest, by simp [← same, form]⟩
      rw [found_append_line single known] at unknown
      exact absurd unknown (by simp)
  · rintro ⟨again, member, same⟩ old inside
    obtain rfl := Option.some.inj same
    rcases List.mem_append.mp inside with inside | inside
    · exact List.mem_append_left _ inside
    · rw [List.mem_singleton.mp inside]
      exact List.mem_append_left _ member

/-- The two ways in which an unterminated file survives. -/
theorem survives_unterminated_iff {first : Account} {rest : List Account}
    (distinct : Distinct line (first :: rest)) :
    ((∀ old ∈ inputLines text, old ∈ inputLines (mergeText line (first :: rest) text)) ∧
        ∀ account ∈ rest, account ∈ missing line (first :: rest) text →
          found account.name (mergeText line (first :: rest) text) = true) ↔
      (∀ account ∈ first :: rest, found account.name text = true) ∨
        found first.name text = false ∧
          ∃ last ∈ (inputLines text).dropLast, (inputLines text).getLast? = some last := by
  constructor
  · rintro ⟨survive, later⟩
    cases known : found first.name text with
    | true =>
      rw [missing, mergeText, if_pos known, if_pos known] at later
      have all := found_of_found_missing unterminated distinct.tail fun account member =>
        later account (mem_of_mem_missing member) member
      left
      intro account member
      rcases List.mem_cons.mp member with rfl | inside
      · exact known
      · exact all account inside
    | false =>
      rw [mergeText, if_neg (by simp [known])] at survive
      exact Or.inr ⟨rfl, (lines_survive_glue_iff unterminated distinct).mp survive⟩
  · rintro (all | ⟨unknown, again⟩)
    · obtain ⟨same, none⟩ := mergeText_of_found line all
      rw [same, none]
      exact ⟨fun old member => member, fun account _ member => absurd member (by simp)⟩
    · rw [mergeText, if_neg (by simp [unknown])]
      refine ⟨(lines_survive_glue_iff unterminated distinct).mpr again, ?_⟩
      intro account member _
      exact found_mergeText distinct.tail (terminated_append_line _ _) member

end Glued

/-- The lines of a file survive the merge and the accounts of the list that are
appended are found afterwards, exactly when the file is absent, empty or terminated,
or nothing is appended, or the line for root is appended and the last line of the
file stands in it a second time. -/
theorem accounts_survive_iff (files : Tables) (table : Table) :
    ∃ text, merge files table = some text ∧
      (((∀ old ∈ inputLines ((files table).getD []), old ∈ inputLines text) ∧
          ∀ account ∈ listedAccounts,
            account ∈ missing (record table) accounts ((files table).getD []) →
              found account.name text = true) ↔
        Terminated ((files table).getD []) ∨
          (∀ account ∈ accounts, found account.name ((files table).getD []) = true) ∨
          found rootAccount.name ((files table).getD []) = false ∧
            ∃ last ∈ (inputLines ((files table).getD [])).dropLast,
              (inputLines ((files table).getD [])).getLast? = some last) := by
  refine ⟨_, merge_table files table, ?_⟩
  have distinct := distinct_accounts table
  generalize (files table).getD [] = text
  by_cases terminated : Terminated text
  · have survive := inputLines_mergeText distinct terminated
    refine ⟨fun _ => Or.inl terminated, fun _ => ⟨?_, ?_⟩⟩
    · intro old member
      rw [survive]
      exact List.mem_append_left _ member
    · intro account member _
      exact found_mergeText distinct terminated (List.mem_cons_of_mem _ member)
  simp only [terminated, false_or]
  exact survives_unterminated_iff terminated distinct

/-- A `passwd` file of two accounts, without a newline at its end. -/
def unfinished : Tables
  | .passwd => some "root:x:0:0::/:/sh\nshell:x:2000:2000::/:/sh".toList
  | .group => none

private theorem system_listed : listedAccount "1000-system".toList ∈ listedAccounts := by
  apply List.mem_map_of_mem
  rw [userNameIdList, fields_output_eq_flatMap]
  exact List.mem_flatMap.mpr ⟨"1000-system".toList, by simp, by decide⟩

/-- The account of the last line is lost and the one of system is appended in vain:
the file now has a line in which the one follows the other. -/
theorem account_lost_unfinished :
    ∃ text, merge unfinished .passwd = some text ∧
      ¬ ((∀ old ∈ inputLines ((unfinished .passwd).getD []), old ∈ inputLines text) ∧
        ∀ account ∈ listedAccounts,
          account ∈ missing (record .passwd) accounts ((unfinished .passwd).getD []) →
            found account.name text = true) := by
  refine ⟨_, merge_table unfinished .passwd, ?_⟩
  have unterminated : ¬ Terminated ((unfinished .passwd).getD []) := by decide
  intro survives
  rcases (survives_unterminated_iff unterminated (distinct_accounts .passwd)).mp survives with
    all | ⟨noRoot, -⟩
  · have found := all _ (List.mem_cons_of_mem _ system_listed)
    exact absurd found (by decide +kernel)
  · exact absurd noRoot (by decide +kernel)

end BbBot.Accounts
