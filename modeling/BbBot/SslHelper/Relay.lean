/-
# The calls of the TLS helper

`ssl_helper.c` connects a descriptor that it is given as an argument and then relays:
what it reads from its standard input goes into the TLS connection, and what comes
out of the connection goes to its standard output. This file has the functions that
the relay is made of, each as a function of what the kernel and the connection answer.

A read from the connection returns what is left of the record before, and takes new
records from the socket only when nothing is left of it.
-/

import BbBot.Unix.Decimal
import Mathlib.Data.List.Infix

namespace BbBot.SslHelper

open BbBot.Unix

abbrev Bytes := List UInt8

/-! ## Writing -/

/-- What the kernel answers to one `write`. -/
inductive WriteAnswer
  | wrote (count : ℕ)
  | interrupted
  | failed
  deriving DecidableEq

/-- `safe_write` of so many bytes: its result, and the answers that are left. There is
no result while the kernel has not answered. -/
def safeWrite (count : ℕ) : List WriteAnswer → Option (ℤ × List WriteAnswer)
  | [] => none
  -- `n < 0 && errno == EINTR`
  | .interrupted :: answers => safeWrite count answers
  | .failed :: answers => some (-1, answers)
  -- The kernel takes no more than it is given.
  | .wrote n :: answers => some ((min n count : ℕ), answers)

theorem length_of_safeWrite {count : ℕ} {answers rest : List WriteAnswer} {cc : ℤ}
    (returned : safeWrite count answers = some (cc, rest)) : rest.length < answers.length := by
  induction answers with
  | nil => exact absurd returned (by simp [safeWrite])
  | cons answer answers ih =>
    rw [List.length_cons]
    cases answer with
    | wrote n =>
      rw [safeWrite, Option.some_inj, Prod.mk.injEq] at returned
      rw [returned.2]
      omega
    | interrupted => exact Nat.lt_succ_of_lt (ih returned)
    | failed =>
      rw [safeWrite, Option.some_inj, Prod.mk.injEq] at returned
      rw [returned.2]
      omega

/-- What `full_write` has done: the bytes that the kernel took, and the result. -/
structure Written where
  total : ℕ
  returned : Option ℤ
  deriving DecidableEq

/-- The loop of `full_write`, with `len` bytes to go after the first `total` ones. -/
def fullWrite (len total : ℕ) (answers : List WriteAnswer) : Written :=
  if len = 0 then ⟨total, some total⟩
  else
    match _called : safeWrite len answers with
    | none => ⟨total, none⟩
    | some (cc, rest) =>
      -- After the first bytes an error is left to the next call.
      if cc < 0 then ⟨total, some (if total ≠ 0 then total else cc)⟩
      else fullWrite (len - cc.toNat) (total + cc.toNat) rest
termination_by answers.length
decreasing_by exact length_of_safeWrite _called

/-- A result of `safe_write` is an error that the kernel has answered, or a number of
bytes that it was given. -/
theorem safeWrite_cases {count : ℕ} {answers rest : List WriteAnswer} {cc : ℤ}
    (returned : safeWrite count answers = some (cc, rest)) :
    (∀ answer ∈ rest, answer ∈ answers) ∧
      (cc = -1 ∧ .failed ∈ answers ∨ ∃ n ≤ count, cc = (n : ℤ)) := by
  induction answers with
  | nil => exact absurd returned (by simp [safeWrite])
  | cons answer answers ih =>
    cases answer with
    | wrote n =>
      rw [safeWrite, Option.some_inj, Prod.mk.injEq] at returned
      obtain ⟨rfl, rfl⟩ := returned
      exact ⟨fun answer member => List.mem_cons_of_mem _ member,
        Or.inr ⟨min n count, Nat.min_le_right _ _, rfl⟩⟩
    | interrupted =>
      obtain ⟨inside, result⟩ := ih returned
      refine ⟨fun answer member => List.mem_cons_of_mem _ (inside answer member), ?_⟩
      exact result.imp_left fun failed => ⟨failed.1, List.mem_cons_of_mem _ failed.2⟩
    | failed =>
      rw [safeWrite, Option.some_inj, Prod.mk.injEq] at returned
      obtain ⟨rfl, rfl⟩ := returned
      exact ⟨fun answer member => List.mem_cons_of_mem _ member, Or.inl ⟨rfl, by simp⟩⟩

/-- Whatever the kernel answers, `full_write` hands it the bytes in order and returns
how many it took, or an error when it took none. -/
theorem fullWrite_cases (len total : ℕ) (answers : List WriteAnswer) :
    total ≤ (fullWrite len total answers).total ∧
    (fullWrite len total answers).total ≤ total + len ∧
    ∀ n, (fullWrite len total answers).returned = some n →
      (n = (fullWrite len total answers).total ∨
        n = -1 ∧ (fullWrite len total answers).total = 0 ∧ len ≠ 0) ∧
      ((fullWrite len total answers).total = total + len ∨ .failed ∈ answers) := by
  induction len, total, answers using fullWrite.induct with
  | case1 total answers =>
    simp [fullWrite]
  | case2 len total answers more waits =>
    -- No answer yet: nothing is returned.
    rw [fullWrite, if_neg more]
    split
    · simp
    · rename_i returned
      exact absurd (waits.symm.trans returned) (by simp)
  | case3 len total answers more cc rest called failed =>
    rw [fullWrite, if_neg more]
    split
    · rename_i waits
      exact absurd (waits.symm.trans called) (by simp)
    · rename_i cc' rest' returned
      obtain ⟨rfl, rfl⟩ : cc = cc' ∧ rest = rest' := by
        simpa using called.symm.trans returned
      rw [if_pos failed]
      obtain ⟨-, ⟨rfl, member⟩ | ⟨n, -, rfl⟩⟩ := safeWrite_cases called
      · refine ⟨le_rfl, Nat.le_add_right _ _, ?_⟩
        intro n result
        refine ⟨?_, Or.inr member⟩
        rw [Option.some_inj] at result
        split at result
        · exact Or.inl result.symm
        · rename_i none
          exact Or.inr ⟨result.symm, by simpa using none, more⟩
      · omega
  | case4 len total answers more cc rest called wrote ih =>
    rw [fullWrite, if_neg more]
    split
    · rename_i waits
      exact absurd (waits.symm.trans called) (by simp)
    · rename_i cc' rest' returned
      obtain ⟨rfl, rfl⟩ : cc = cc' ∧ rest = rest' := by
        simpa using called.symm.trans returned
      rw [if_neg wrote]
      obtain ⟨inside, ⟨rfl, -⟩ | ⟨n, atMost, rfl⟩⟩ := safeWrite_cases called
      · omega
      · obtain ⟨lower, upper, result⟩ := ih
        rw [Int.toNat_natCast] at lower upper result ⊢
        refine ⟨by omega, by omega, ?_⟩
        intro m same
        obtain ⟨value, full⟩ := result m same
        refine ⟨?_, ?_⟩
        · rcases value with value | ⟨value, nothing, -⟩
          · exact Or.inl value
          · exact Or.inr ⟨value, nothing, more⟩
        · rcases full with full | failed
          · exact Or.inl (by omega)
          · exact Or.inr (inside _ failed)

/-- The callers compare the result with the length: it is the length exactly when the
kernel took every byte, and without an error it is nothing else. -/
theorem fullWrite_complete_iff {len : ℕ} {answers : List WriteAnswer} {n : ℤ}
    (returned : (fullWrite len 0 answers).returned = some n) :
    (fullWrite len 0 answers).total ≤ len ∧
    (n = len ↔ (fullWrite len 0 answers).total = len) ∧
    (n ≠ len → .failed ∈ answers ∧
      (n = (fullWrite len 0 answers).total ∨ n = -1 ∧ (fullWrite len 0 answers).total = 0)) := by
  obtain ⟨-, upper, result⟩ := fullWrite_cases len 0 answers
  obtain ⟨value, full⟩ := result n returned
  rw [Nat.zero_add] at upper full
  have same : n = len ↔ (fullWrite len 0 answers).total = len := by
    rcases value with value | ⟨value, nothing, more⟩ <;> omega
  refine ⟨upper, same, fun short => ⟨?_, ?_⟩⟩
  · rcases full with full | failed
    · exact absurd (same.mpr full) short
    · exact failed
  · rcases value with value | ⟨value, nothing, -⟩
    · exact Or.inl value
    · exact Or.inr ⟨value, nothing⟩

/-! ## Reading from the connection -/

/-- A record that the peer sends. -/
inductive Record
  | data (bytes : Bytes)
  | closeNotify
  /-- A warning, or a request that is answered on the spot. -/
  | other
  /-- A record that cannot be decrypted, or a fatal alert. -/
  | corrupt
  deriving DecidableEq

/-- How the peer's end of the socket was closed. -/
inductive Hangup
  | closed
  | reset
  | broken
  deriving DecidableEq

/-- The bytes that a record brings. -/
def Record.payload : Record → Bytes
  | .data bytes => bytes
  | _ => []

/-- Is it the last record of the connection? -/
def Record.ends : Record → Bool
  | .closeNotify => true
  | _ => false

/-- What the records bring until the connection is closed. -/
def expected (records : List Record) : Bytes :=
  (records.takeWhile fun record => !record.ends).flatMap Record.payload

/-- What `ProcessReply` has come to when `ReceiveData` goes on. -/
inductive Reply
  | waits
  | clear (bytes : Bytes)
  | finished
  | failed
  deriving DecidableEq

/-- The loop of `ReceiveData` over `ProcessReply`: records are taken until one of them
brings something. The number is that of the records taken. -/
def processReplies (hangup : Option Hangup) : List Record → ℕ × Reply
  | [] =>
    match hangup with
    | none => (0, .waits)
    -- A peer that goes away without a word is taken for one that has finished.
    | some .closed | some .reset => (0, .finished)
    | some .broken => (0, .failed)
  | .data (byte :: bytes) :: _ => (1, .clear (byte :: bytes))
  | .closeNotify :: _ => (1, .finished)
  | .corrupt :: _ => (1, .failed)
  | .data [] :: records | .other :: records =>
    let (taken, reply) := processReplies hangup records
    (taken + 1, reply)

/-- What `wolfSSL_read` has come to. -/
inductive Received
  | waits
  | read (bytes clear : Bytes)
  | finished
  | failed
  deriving DecidableEq

/-- `ReceiveData` of at most `sz` bytes, with those that are left of the last record. -/
def receiveData (sz : ℕ) (clear : Bytes) (hangup : Option Hangup) (records : List Record) :
    ℕ × Received :=
  if clear ≠ [] then (0, .read (clear.take sz) (clear.drop sz))
  else
    let (taken, reply) := processReplies hangup records
    match reply with
    | .waits => (taken, .waits)
    | .clear bytes => (taken, .read (bytes.take sz) (bytes.drop sz))
    | .finished => (taken, .finished)
    | .failed => (taken, .failed)

theorem expected_append {front back : List Record}
    (goesOn : ∀ record ∈ front, record.ends = false) :
    expected (front ++ back) = front.flatMap Record.payload ++ expected back := by
  rw [expected, List.takeWhile_append_of_pos, List.flatMap_append, expected]
  intro record member
  rw [goesOn record member]
  rfl

theorem expected_of_forall {records : List Record}
    (goesOn : ∀ record ∈ records, record.ends = false) :
    expected records = records.flatMap Record.payload := by
  have all := @expected_append records [] goesOn
  rwa [List.append_nil, show expected [] = [] from rfl, List.append_nil] at all

/-- What more records bring comes after what the first ones bring. -/
theorem expected_isPrefix_of {front records : List Record} (isPrefix : front <+: records) :
    expected front <+: expected records := by
  obtain ⟨back, rfl⟩ := isPrefix
  induction front with
  | nil => exact List.nil_prefix
  | cons record front ih =>
    cases ends : record.ends with
    | true => simp [expected, ends]
    | false =>
      have split (rest : List Record) :
          expected (record :: rest) = record.payload ++ expected rest := by
        simp [expected, ends]
      rw [List.cons_append, split, split]
      exact (List.prefix_append_right_inj _).mpr ih

/-- The records that are taken before one of them brings something bring nothing. -/
structure Quiet (records : List Record) : Prop where
  goesOn : ∀ record ∈ records, record.ends = false
  nothing : records.flatMap Record.payload = []

theorem Quiet.nil : Quiet [] := ⟨by simp, rfl⟩

theorem Quiet.cons {record : Record} {records : List Record} (goesOn : record.ends = false)
    (nothing : record.payload = []) (quiet : Quiet records) : Quiet (record :: records) := by
  refine ⟨?_, ?_⟩
  · intro later member
    rcases List.mem_cons.mp member with rfl | inside
    · exact goesOn
    · exact quiet.goesOn later inside
  · rw [List.flatMap_cons, nothing, quiet.nothing]
    rfl

/-- Which records a result comes from. -/
def Explains (hangup : Option Hangup) (records taken : List Record) : Reply → Prop
  | .waits => Quiet taken ∧ taken = records ∧ hangup = none
  | .clear bytes => bytes ≠ [] ∧ ∃ quiet, Quiet quiet ∧ taken = quiet ++ [.data bytes]
  | .finished =>
    (∃ quiet, Quiet quiet ∧ taken = quiet ++ [.closeNotify]) ∨
      Quiet taken ∧ taken = records ∧ hangup.isSome
  | .failed =>
    (∃ quiet, Quiet quiet ∧ taken = quiet ++ [.corrupt]) ∨
      Quiet taken ∧ taken = records ∧ hangup = some .broken

/-- A record that brings nothing can be put in front. -/
theorem Explains.cons {hangup : Option Hangup} {record : Record} {records taken : List Record}
    {reply : Reply} (goesOn : record.ends = false) (nothing : record.payload = [])
    (explains : Explains hangup records taken reply) :
    Explains hangup (record :: records) (record :: taken) reply := by
  cases reply with
  | waits =>
    obtain ⟨quiet, rfl, isOpen⟩ := explains
    exact ⟨quiet.cons goesOn nothing, rfl, isOpen⟩
  | clear bytes =>
    obtain ⟨some, quiet, isQuiet, rfl⟩ := explains
    exact ⟨some, record :: quiet, isQuiet.cons goesOn nothing, rfl⟩
  | finished =>
    rcases explains with ⟨quiet, isQuiet, rfl⟩ | ⟨quiet, rfl, gone⟩
    · exact Or.inl ⟨record :: quiet, isQuiet.cons goesOn nothing, rfl⟩
    · exact Or.inr ⟨quiet.cons goesOn nothing, rfl, gone⟩
  | failed =>
    rcases explains with ⟨quiet, isQuiet, rfl⟩ | ⟨quiet, rfl, gone⟩
    · exact Or.inl ⟨record :: quiet, isQuiet.cons goesOn nothing, rfl⟩
    · exact Or.inr ⟨quiet.cons goesOn nothing, rfl, gone⟩

theorem processReplies_explains (hangup : Option Hangup) (records : List Record) :
    Explains hangup records (records.take (processReplies hangup records).1)
      (processReplies hangup records).2 := by
  induction records with
  | nil =>
    cases hangup with
    | none => exact ⟨Quiet.nil, rfl, rfl⟩
    | some how => cases how <;> exact Or.inr ⟨Quiet.nil, rfl, rfl⟩
  | cons record records ih =>
    cases record with
    | data bytes =>
      cases bytes with
      | nil => exact ih.cons rfl rfl
      | cons byte bytes => exact ⟨by simp, [], Quiet.nil, rfl⟩
    | closeNotify => exact Or.inl ⟨[], Quiet.nil, rfl⟩
    | other => exact ih.cons rfl rfl
    | corrupt => exact Or.inl ⟨[], Quiet.nil, rfl⟩

/-- Records that bring nothing can be left out. -/
theorem Quiet.expected_append {quiet : List Record} (isQuiet : Quiet quiet)
    (back : List Record) : expected (quiet ++ back) = expected back := by
  rw [SslHelper.expected_append isQuiet.goesOn, isQuiet.nothing, List.nil_append]

theorem Quiet.expected_eq {quiet : List Record} (isQuiet : Quiet quiet) :
    expected quiet = [] := by
  rw [expected_of_forall isQuiet.goesOn, isQuiet.nothing]

theorem processReplies_le (hangup : Option Hangup) (records : List Record) :
    (processReplies hangup records).1 ≤ records.length := by
  induction records with
  | nil =>
    cases hangup with
    | none => exact le_rfl
    | some how => cases how <;> exact le_rfl
  | cons record records ih =>
    cases record with
    | data bytes =>
      cases bytes with
      | nil => exact Nat.succ_le_succ ih
      | cons byte bytes => exact Nat.succ_le_succ (Nat.zero_le _)
    | closeNotify => exact Nat.succ_le_succ (Nat.zero_le _)
    | other => exact Nat.succ_le_succ ih
    | corrupt => exact Nat.succ_le_succ (Nat.zero_le _)

/-- A read comes from what is left of a record, or from the records in the socket. -/
theorem receiveData_cases (sz : ℕ) (clear : Bytes) (hangup : Option Hangup)
    (records : List Record) :
    (clear ≠ [] ∧ receiveData sz clear hangup records =
        (0, .read (clear.take sz) (clear.drop sz))) ∨
      clear = [] ∧ ∃ taken ≤ records.length, ∃ reply,
        Explains hangup records (records.take taken) reply ∧
        receiveData sz clear hangup records = (taken,
          match reply with
          | .waits => .waits
          | .clear bytes => .read (bytes.take sz) (bytes.drop sz)
          | .finished => .finished
          | .failed => .failed) := by
  by_cases empty : clear = []
  · right
    refine ⟨empty, (processReplies hangup records).1, processReplies_le hangup records,
      (processReplies hangup records).2, processReplies_explains hangup records, ?_⟩
    rw [receiveData, if_neg (not_not.mpr empty)]
    rcases processReplies hangup records with ⟨taken, reply⟩
    cases reply <;> rfl
  · exact Or.inl ⟨empty, by rw [receiveData, if_pos empty]⟩

/-! ## The arguments -/

/-- `atoi` of a text that starts with a digit. -/
def atoi (text : Str) : ℕ := Nat.ofDigitChars 10 (text.takeWhile Char.isDigit) 0

/-- The descriptor that `main` finds in its arguments, unless it ends with a syntax
error. -/
def descriptor : List Str → Option ℕ
  | ('-' :: 'd' :: attached) :: rest =>
    -- `-d7` or `-d 7`
    match if attached = [] then rest.head? else some attached with
    | some (digit :: more) =>
      if digit.isDigit then
        let fd := atoi (digit :: more)
        if fd < 3 then none else some fd
      else none
    | _ => none
  | _ => none

/-- The first three descriptors are never relayed. -/
theorem three_le_of_descriptor {arguments : List Str} {fd : ℕ}
    (named : descriptor arguments = some fd) : 3 ≤ fd := by
  unfold descriptor at named
  split at named
  · split at named
    · split at named
      · dsimp only at named
        split at named
        · exact absurd named (by simp)
        · rename_i large
          rw [← Option.some.inj named]
          exact Nat.le_of_not_lt large
      · exact absurd named (by simp)
    · exact absurd named (by simp)
  · exact absurd named (by simp)

end BbBot.SslHelper
