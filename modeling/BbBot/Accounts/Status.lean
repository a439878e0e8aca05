/-
# What the status of the merge says

Both installers source `addusergroup.sh` and warn that users and groups could not be
added when its status is not zero. That status is the one of the last command that
ran: of a `touch` that failed, and otherwise of the last of some hundred and forty
appends, the one of nobody to `passwd`. What became of the others is not in it.
-/

import BbBot.Accounts.Merge
import Mathlib.Data.List.Nodup

namespace BbBot.Accounts

open BbBot.Unix

/-- A run in which each `touch` and each append may fail. -/
def attempt (touches : Table → Bool) (works : Account → Table → Bool) (files : Tables) :
    Tables × Bool :=
  addUserGroup touches (accounts.map fun account => (account, works account)) files

/-- The file is there and has a line that starts with the name and a colon. -/
def Listed (name : Str) (file : Option Str) : Prop :=
  ∃ text, file = some text ∧ ∃ line ∈ inputLines text, name ++ [':'] <+: line

/-- After status zero, every account has its line in both files. -/
def Reports (touches : Table → Bool) (works : Account → Table → Bool) (files : Tables) : Prop :=
  (attempt touches works files).2 = true → ∀ account ∈ accounts, ∀ table,
    Listed account.name ((attempt touches works files).1 table)

/-- `addug 9999 nobody`, the last round. -/
def nobody : Account := listedAccount "9999-nobody".toList

theorem listed_iff {name : Str} {file : Option Str} {text : Str} (content : file = some text) :
    Listed name file ↔ found name text = true := by
  rw [found_iff]
  constructor
  · rintro ⟨other, same, lines⟩
    rwa [Option.some.inj (content.symm.trans same)]
  · intro lines
    exact ⟨text, content, lines⟩

/-! ## Names that are found on the way -/

section Text

variable {line : Account → Str} {list : List Account} {text name : Str}

/-- An appended line is found under the name of its account, or under a name that the
end of the file and its account make up together. -/
theorem found_of_found_append (distinct : Distinct line list) {other : Account}
    (member : other ∈ list) (plain : ':' ∉ name)
    (known : found name (text ++ (line other ++ ['\n'])) = true) :
    found name text = true ∨ other.name <:+ name := by
  obtain ⟨front, last, -, before, after⟩ :=
    inputLines_append_line text (distinct.single other member)
  obtain ⟨rest, form⟩ := distinct.starts other member
  obtain ⟨now, inside, starts⟩ := found_iff.mp known
  rw [after] at inside
  -- A line from before the append, or the one that was appended or glued.
  rcases List.mem_append.mp inside with inside | inside
  · exact Or.inl (found_iff.mpr ⟨now, before ▸ List.mem_append_left _ inside, starts⟩)
  · rw [List.mem_singleton.mp inside, form] at starts
    -- Either the end of the file already starts with the name, or the two make it up.
    rcases starts_glued plain (distinct.plain other member) starts with inLast | same
    · have nonempty : last ≠ [] := by
        rintro rfl
        exact absurd inLast (by simp)
      refine Or.inl (found_iff.mpr ⟨last, ?_, inLast⟩)
      rw [before, if_neg nonempty]
      simp
    · exact Or.inr ⟨last, same.symm⟩

/-- A name that is found stays found. -/
theorem found_mergeText_of_found (distinct : Distinct line list)
    (known : found name text = true) : found name (mergeText line list text) = true := by
  induction list generalizing text with
  | nil => exact known
  | cons account rest ih =>
    rw [mergeText]
    split
    · exact ih distinct.tail known
    · exact ih distinct.tail (found_append_line (distinct.single account (by simp)) known)

/-- A merge makes a name found only by an account whose name it ends with. -/
theorem found_mergeText_iff (distinct : Distinct line list) (plain : ':' ∉ name)
    (apart : ∀ other ∈ list, ¬ other.name <:+ name) :
    found name (mergeText line list text) = true ↔ found name text = true := by
  constructor
  · intro known
    induction list generalizing text with
    | nil => exact known
    | cons account rest ih =>
      have others : ∀ other ∈ rest, ¬ other.name <:+ name :=
        fun other member => apart other (List.mem_cons_of_mem _ member)
      rw [mergeText] at known
      split at known
      · exact ih distinct.tail others known
      · have appended := ih distinct.tail others known
        exact (found_of_found_append distinct (by simp) plain appended).resolve_right
          (apart account (by simp))
  · exact found_mergeText_of_found distinct

/-- A file has all accounts in the end exactly when each was found in it, or could be
appended and the file is terminated. -/
theorem complete_iff (distinct : Distinct line list) (works : Account → Bool) :
    (∀ account ∈ list, found account.name (mergeText line (list.filter works) text) = true) ↔
      ∀ account ∈ list, found account.name text = true ∨
        Terminated text ∧ works account = true := by
  have kept : Distinct line (list.filter works) := distinct.sublist List.filter_sublist
  constructor
  · intro complete
    by_cases terminated : Terminated text
    · intro account member
      have now := complete account member
      rw [found_iff, inputLines_mergeText kept terminated] at now
      obtain ⟨old, inside, starts⟩ := now
      rcases List.mem_append.mp inside with inside | inside
      · exact Or.inl (found_iff.mpr ⟨old, inside, starts⟩)
      · obtain ⟨other, appended, rfl⟩ := List.mem_map.mp inside
        obtain ⟨isListed, able⟩ := List.mem_filter.mp (List.mem_of_mem_filter appended)
        obtain ⟨rest, form⟩ := distinct.starts other isListed
        have same := (starts_line_iff (distinct.plain account member)
          (distinct.plain other isListed) form).mp starts
        obtain rfl : account = other :=
          List.inj_on_of_nodup_map distinct.names member isListed same
        exact Or.inr ⟨terminated, able⟩
    · -- The first line that is appended is glued and never found, so none was appended.
      have all := found_of_found_missing terminated kept fun account appended =>
        complete account (List.mem_of_mem_filter (mem_of_mem_missing appended))
      rw [(mergeText_of_found line all).1] at complete
      exact fun account member => Or.inl (complete account member)
  · intro able account member
    by_cases terminated : Terminated text
    -- In a terminated file every append adds a line of its own.
    · rcases able account member with known | ⟨-, works⟩
      · exact found_mergeText_of_found kept known
      · exact found_mergeText kept terminated (List.mem_filter.mpr ⟨member, works⟩)
    · have all (other : Account) (inside : other ∈ list) : found other.name text = true :=
        (able other inside).resolve_right fun more => terminated more.1
      rw [(mergeText_of_found line fun other kept => all other (List.mem_of_mem_filter kept)).1]
      exact all account member

end Text

/-! ## The status -/

theorem addTo_status (table : Table) (account : Account) (works : Bool) {files : Tables}
    {text : Str} (present : files table = some text) :
    (addTo table account works files).2 = true ↔
      found account.name text = true ∨ works = true := by
  rw [addTo, present]
  -- `grep` finds the account and nothing is appended, or the append decides.
  cases known : found account.name text with
  | true => simp [known]
  | false => cases works <;> simp [known]

theorem addAll_append (first rest : List (Account × (Table → Bool))) (state : Tables × Bool) :
    addAll (first ++ rest) state = addAll rest (addAll first state) := by
  induction first generalizing state with
  | nil => rfl
  | cons round first ih => exact ih _

/-- Nobody comes last, and its name does not end with the name of another account. -/
private theorem nobody_last : accounts.getLast? = some nobody ∧
    ∀ account ∈ accounts.dropLast, ¬ account.name <:+ nobody.name := by
  decide +kernel

theorem accounts_eq : accounts = accounts.dropLast ++ [nobody] :=
  (List.dropLast_append_getLast? nobody nobody_last.1).symm

/-- Once both files are there, the status says whether nobody is in `passwd`. -/
theorem addAll_status (works : Account → Table → Bool) {files : Tables} {text : Str}
    (present : files .passwd = some text) :
    (addAll (accounts.map fun account => (account, works account)) (files, true)).2 = true ↔
      found nobody.name text = true ∨ works nobody .passwd = true := by
  have distinct := distinct_accounts .passwd
  have others : Distinct (record .passwd) (accounts.dropLast.filter (works · .passwd)) :=
    distinct.sublist (List.filter_sublist.trans (List.dropLast_sublist _))
  have before := addAll_table .passwd works accounts.dropLast true present
  have plain : ':' ∉ nobody.name := distinct.plain nobody (accounts_eq ▸ by simp)
  rw [accounts_eq, List.map_append, addAll_append]
  generalize addAll _ (files, true) = state at before ⊢
  -- The last round appends to `group` first, which leaves `passwd` alone.
  have same : (addTo .group nobody (works nobody .group) state.1).1 .passwd = state.1 .passwd :=
    addTo_of_ne (by decide) nobody _ _
  have status : (addAll [(nobody, works nobody)] state).2 =
      (addTo .passwd nobody (works nobody .passwd)
        (addTo .group nobody (works nobody .group) state.1).1).2 := rfl
  rw [List.map_singleton, status, addTo_status .passwd nobody _ (same.trans before),
    found_mergeText_iff others plain fun other member =>
      nobody_last.2 other (List.mem_of_mem_filter member)]

/-- A whole run: an error, or two merged files and the status of the last append. -/
theorem attempt_cases (touches : Table → Bool) (works : Account → Table → Bool)
    (files : Tables) :
    (∃ table, files table = none ∧ touches table = false) ∧
        (attempt touches works files).2 = false ∨
      (∀ table, files table = none → touches table = true) ∧
        ((attempt touches works files).2 = true ↔
          found nobody.name ((files .passwd).getD []) = true ∨ works nobody .passwd = true) ∧
        ∀ table, (attempt touches works files).1 table = some (mergeText (record table)
          (accounts.filter (works · table)) ((files table).getD [])) := by
  -- `touch` fails and the subshell exits, or the loop runs over both files.
  rcases addUserGroup_cases touches (accounts.map fun account => (account, works account))
    files with stopped | ⟨able, both, same, contents⟩
  · exact Or.inl stopped
  · refine Or.inr ⟨able, ?_, ?_⟩
    · rw [attempt, same]
      exact addAll_status works (contents .passwd)
    · intro table
      rw [attempt, same]
      exact addAll_table table works accounts true (contents table)

/-- For all files and all patterns of failures, status zero means that every account
has its line in both files exactly when a file cannot be created, or nobody has to be
appended to `passwd` and cannot be, or each account is in each file from the start or
the file is terminated and the account can be appended. The first two are the failures
that the status shows. -/
theorem reports_iff (touches : Table → Bool) (works : Account → Table → Bool) (files : Tables) :
    Reports touches works files ↔
      (∃ table, files table = none ∧ touches table = false) ∨
      (found nobody.name ((files .passwd).getD []) = false ∧ works nobody .passwd = false) ∨
      ∀ account ∈ accounts, ∀ table, found account.name ((files table).getD []) = true ∨
        Terminated ((files table).getD []) ∧ works account table = true := by
  rcases attempt_cases touches works files with ⟨fails, status⟩ | ⟨able, status, contents⟩
  · constructor
    · intro _
      exact Or.inl fails
    · intro _ zero
      rw [status] at zero
      exact absurd zero (by simp)
  · have noError : ¬ ∃ table, files table = none ∧ touches table = false := by
      rintro ⟨table, absent, fails⟩
      rw [able table absent] at fails
      exact absurd fails (by simp)
    -- The failures that the status does show.
    have shown : (found nobody.name ((files .passwd).getD []) = false ∧
        works nobody .passwd = false) ↔ (attempt touches works files).2 = false := by
      rw [← Bool.not_eq_true, ← Bool.not_eq_true, ← Bool.not_eq_true, ← not_or, status]
    have complete : (∀ account ∈ accounts, ∀ table,
        Listed account.name ((attempt touches works files).1 table)) ↔
        ∀ account ∈ accounts, ∀ table, found account.name ((files table).getD []) = true ∨
          Terminated ((files table).getD []) ∧ works account table = true := by
      constructor
      · intro all account member table
        apply (complete_iff (distinct_accounts table) (works · table)).mp _ account member
        intro other inside
        exact (listed_iff (contents table)).mp (all other inside table)
      · intro all account member table
        rw [listed_iff (contents table)]
        apply (complete_iff (distinct_accounts table) (works · table)).mpr _ account member
        intro other inside
        exact all other inside table
    rw [Reports, complete, shown]
    cases (attempt touches works files).2 with
    | true => simp [noError]
    | false => simp

/-- A `passwd` file of one account, without a newline at its end. -/
def shellOnly : Tables
  | .passwd => some "shell:x:2000:2000::/:/sh".toList
  | .group => none

/-- Nothing can be appended to `group`. -/
def groupRefused (_ : Account) (table : Table) : Bool := table = .passwd

/-- Where nothing can be appended to `group`, it stays empty after status zero. And
after a run without a failure, root is missing when the last line of `passwd` was not
terminated. -/
theorem failures_not_reported :
    (attempt (fun _ => true) groupRefused (fun _ => none)).2 = true ∧
      (attempt (fun _ => true) groupRefused (fun _ => none)).1 .group = some [] ∧
      ¬ Reports (fun _ => true) groupRefused (fun _ => none) ∧
      (attempt (fun _ => true) (fun _ _ => true) shellOnly).2 = true ∧
      ¬ Reports (fun _ => true) (fun _ _ => true) shellOnly := by
  have isAccount : rootAccount ∈ accounts := List.mem_cons_self
  rcases attempt_cases (fun _ => true) groupRefused (fun _ => none) with
    ⟨⟨_, -, fails⟩, -⟩ | ⟨-, status, contents⟩
  · exact absurd fails (by simp)
  rcases attempt_cases (fun _ => true) (fun _ _ => true) shellOnly with
    ⟨⟨_, -, fails⟩, -⟩ | ⟨-, statusToo, contentsToo⟩
  · exact absurd fails (by simp)
  have zero := status.mpr (Or.inr rfl)
  have empty : (attempt (fun _ => true) groupRefused (fun _ => none)).1 .group = some [] := by
    rw [contents, List.filter_eq_nil_iff.mpr fun account _ => by simp [groupRefused]]
    rfl
  refine ⟨zero, empty, ?_, statusToo.mpr (Or.inr rfl), ?_⟩
  · intro reports
    have listed := (listed_iff empty).mp (reports zero rootAccount isAccount .group)
    exact absurd listed (by decide)
  · intro reports
    have listed := reports (statusToo.mpr (Or.inr rfl)) rootAccount isAccount .passwd
    rw [listed_iff (contentsToo .passwd), List.filter_eq_self.mpr fun _ _ => rfl] at listed
    have unknown : found rootAccount.name ((shellOnly .passwd).getD []) = false := by decide
    have unterminated : ¬ Terminated ((shellOnly .passwd).getD []) := by decide
    -- Root is the first account, so its line is the one that is glued.
    have glued := not_found_glued unterminated (distinct_accounts .passwd) unknown
    rw [accounts, mergeText, if_neg (by simp [unknown]), glued] at listed
    exact absurd listed (by simp)

end BbBot.Accounts
