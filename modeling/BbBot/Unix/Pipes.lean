/-
# Pipes

A pipe carries items from one end to the other. What has been taken out of it is a
prefix of what was put in, and the rest is still inside: nothing is lost, doubled or
reordered on the way. The number of items taken never exceeds the number put in, so
a pipe keeps its whole history and the two ends cannot disagree about it.
-/

import Mathlib.Data.List.Basic

namespace BbBot.Unix

/-- A pipe with everything that was ever put into it. -/
structure Pipe (α : Type*) where
  written : List α
  taken : ℕ
  /-- Nothing more will be put in. -/
  closed : Bool
  within : taken ≤ written.length
  deriving DecidableEq

namespace Pipe

variable {α : Type*} (pipe : Pipe α)

/-- A new pipe. -/
def new : Pipe α := ⟨[], 0, false, Nat.zero_le _⟩

/-- What has come out of the pipe. -/
def read : List α := pipe.written.take pipe.taken

/-- What is still inside. -/
def pending : List α := pipe.written.drop pipe.taken

/-- Put items in. A closed pipe takes nothing more. -/
def put (items : List α) : Pipe α :=
  if pipe.closed then pipe
  else
    { pipe with
      written := pipe.written ++ items
      within := by
        rw [List.length_append]
        exact Nat.le_add_right_of_le pipe.within }

/-- Close the end that things are put in at. -/
def close : Pipe α := { pipe with closed := true }

/-- Take so many items out, or all that are inside. -/
def take (count : ℕ) : Pipe α :=
  { pipe with
    taken := min (pipe.taken + count) pipe.written.length
    within := Nat.min_le_right _ _ }

/-- Can the end that things are taken from be read without waiting? -/
def isReadable : Bool := pipe.closed || !pipe.pending.isEmpty

variable {pipe}

@[simp] theorem read_new : (new : Pipe α).read = [] := rfl

@[simp] theorem pending_new : (new : Pipe α).pending = [] := rfl

@[simp] theorem closed_new : (new : Pipe α).closed = false := rfl

theorem read_append_pending (pipe : Pipe α) : pipe.read ++ pipe.pending = pipe.written :=
  List.take_append_drop _ _

theorem read_prefix (pipe : Pipe α) : pipe.read <+: pipe.written :=
  List.take_prefix _ _

/-- Everything that was put in has come out when nothing is inside. -/
theorem read_of_pending_nil (empty : pipe.pending = []) : pipe.read = pipe.written := by
  rw [← read_append_pending pipe, empty, List.append_nil]

@[simp] theorem read_close : pipe.close.read = pipe.read := rfl

@[simp] theorem pending_close : pipe.close.pending = pipe.pending := rfl

@[simp] theorem written_close : pipe.close.written = pipe.written := rfl

@[simp] theorem closed_close : pipe.close.closed = true := rfl

@[simp] theorem written_take (count : ℕ) : (pipe.take count).written = pipe.written := rfl

@[simp] theorem closed_take (count : ℕ) : (pipe.take count).closed = pipe.closed := rfl

@[simp] theorem closed_put (items : List α) : (pipe.put items).closed = pipe.closed := by
  unfold put
  split
  · rfl
  · rfl

theorem written_put_of_open (items : List α) (isOpen : pipe.closed = false) :
    (pipe.put items).written = pipe.written ++ items := by
  simp [put, isOpen]

theorem put_of_closed (items : List α) (isClosed : pipe.closed = true) :
    pipe.put items = pipe := by
  simp [put, isClosed]

@[simp] theorem read_put (items : List α) : (pipe.put items).read = pipe.read := by
  unfold put
  split
  · rfl
  · exact List.take_append_of_le_length pipe.within

theorem pending_put_of_open (items : List α) (isOpen : pipe.closed = false) :
    (pipe.put items).pending = pipe.pending ++ items := by
  simp only [pending, put, isOpen, Bool.false_eq_true, if_false]
  exact List.drop_append_of_le_length pipe.within

@[simp] theorem read_take (count : ℕ) :
    (pipe.take count).read = pipe.read ++ pipe.pending.take count := by
  rw [read, take, ← List.take_take, List.take_length, List.take_add]
  rfl

@[simp] theorem pending_take (count : ℕ) : (pipe.take count).pending = pipe.pending.drop count := by
  have same : pipe.written.drop (min (pipe.taken + count) pipe.written.length) =
      pipe.written.drop (pipe.taken + count) := by
    rcases Nat.le_total (pipe.taken + count) pipe.written.length with inside | beyond
    · rw [Nat.min_eq_left inside]
    · rw [Nat.min_eq_right beyond, List.drop_length, List.drop_eq_nil_of_le beyond]
  rw [pending, pending, List.drop_drop]
  exact same

@[simp] theorem take_zero : pipe.take 0 = pipe := by
  cases pipe with
  | mk written taken closed within => simp [take, Nat.min_eq_left within]

theorem isReadable_iff : pipe.isReadable = true ↔ pipe.closed = true ∨ pipe.pending ≠ [] := by
  simp [isReadable]

theorem isReadable_eq_false_iff :
    pipe.isReadable = false ↔ pipe.closed = false ∧ pipe.pending = [] := by
  simp [isReadable]

/-- A pipe and the same pipe after its writer went on. -/
structure Fed (pipe later : Pipe α) : Prop where
  read : later.read = pipe.read
  more : ∃ items, later.pending = pipe.pending ++ items ∧ later.written = pipe.written ++ items
  closed : pipe.closed = true → later.closed = true ∧ later.pending = pipe.pending

namespace Fed

theorem refl (pipe : Pipe α) : Fed pipe pipe :=
  ⟨rfl, ⟨[], by simp⟩, fun closed => ⟨closed, rfl⟩⟩

theorem put (pipe : Pipe α) (items : List α) : Fed pipe (pipe.put items) := by
  refine ⟨read_put items, ?_, ?_⟩
  · cases isClosed : pipe.closed with
    | true => exact ⟨[], by simp [put_of_closed items isClosed]⟩
    | false =>
      exact ⟨items, pending_put_of_open items isClosed, written_put_of_open items isClosed⟩
  · intro closed
    rw [put_of_closed items closed]
    exact ⟨closed, rfl⟩

theorem close (pipe : Pipe α) : Fed pipe pipe.close :=
  ⟨rfl, ⟨[], by simp⟩, fun _ => ⟨rfl, rfl⟩⟩

/-- What could be read still can. -/
theorem isReadable {later : Pipe α} (fed : Fed pipe later) (readable : pipe.isReadable = true) :
    later.isReadable = true := by
  rw [isReadable_iff] at readable ⊢
  rcases readable with closed | some
  · exact Or.inl (fed.closed closed).1
  · obtain ⟨items, pending, -⟩ := fed.more
    right
    simp [pending, some]

end Fed

end Pipe

end BbBot.Unix
