/-
# Reading a list of items

A script that reads options goes through a list of words, changes its settings
with each of them and may stop on the way. What holds of one word carries over to
the whole list: a property that every word keeps holds in the end, and two readers
that stay related on every word end related or stop alike.
-/

import Mathlib.Data.List.Basic

namespace BbBot.Unix

section Reading

variable {σ τ ε α : Type*}

/-- Read the items in order, until one of them stops the reader. -/
def readAll (read : σ → α → Except ε σ) : List α → σ → Except ε σ
  | [], state => .ok state
  | item :: items, state =>
    match read state item with
    | .ok next => readAll read items next
    | .error stop => .error stop

/-- The items that are reached, each with the state in which it is read. -/
def trace (read : σ → α → Except ε σ) : List α → σ → List (σ × α)
  | [], _ => []
  | item :: items, state =>
    (state, item) ::
      match read state item with
      | .ok next => trace read items next
      | .error _ => []

variable {read : σ → α → Except ε σ}

theorem readAll_cons_ok {item : α} {items : List α} {state final : σ}
    (ends : readAll read (item :: items) state = .ok final) :
    ∃ next, read state item = .ok next ∧ readAll read items next = .ok final := by
  rw [readAll] at ends
  split at ends
  · rename_i next result
    exact ⟨next, result, ends⟩
  · exact absurd ends (by simp)

theorem readAll_cons {item : α} {state next : σ} (result : read state item = .ok next)
    (items : List α) : readAll read (item :: items) state = readAll read items next := by
  rw [readAll, result]

theorem trace_cons {item : α} {state next : σ} (result : read state item = .ok next)
    (items : List α) :
    trace read (item :: items) state = (state, item) :: trace read items next := by
  rw [trace, result]

/-- What every item keeps holds in the end. -/
theorem readAll_invariant (invariant : σ → Prop) {items : List α}
    (step : ∀ item ∈ items, ∀ state next, invariant state → read state item = .ok next →
      invariant next)
    {state final : σ} (holds : invariant state) (ends : readAll read items state = .ok final) :
    invariant final := by
  induction items generalizing state with
  | nil => exact Except.ok.inj ends ▸ holds
  | cons item items ih =>
    obtain ⟨next, result, ends⟩ := readAll_cons_ok ends
    apply ih _ _ ends
    · intro other member
      exact step other (List.mem_cons_of_mem _ member)
    · exact step item (by simp) state next holds result

/-- What every item that is reached keeps holds in the end. -/
theorem readAll_invariant_of_trace (invariant : σ → Prop) {items : List α} {state final : σ}
    (step : ∀ reached ∈ trace read items state, ∀ next, invariant reached.1 →
      read reached.1 reached.2 = .ok next → invariant next)
    (holds : invariant state) (ends : readAll read items state = .ok final) :
    invariant final := by
  induction items generalizing state with
  | nil => exact Except.ok.inj ends ▸ holds
  | cons item items ih =>
    obtain ⟨next, result, ends⟩ := readAll_cons_ok ends
    rw [trace_cons result] at step
    apply ih _ _ ends
    · intro reached member
      exact step reached (List.mem_cons_of_mem _ member)
    · exact step (state, item) (by simp) next holds result

/-- Two readers that stay related on every item, or stop alike, do so on the list. -/
theorem readAll_related (related : σ → τ → Prop) {other : τ → α → Except ε τ} {items : List α}
    (step : ∀ item ∈ items, ∀ s t, related s t →
      (∃ s' t', read s item = .ok s' ∧ other t item = .ok t' ∧ related s' t') ∨
        ∃ stop, read s item = .error stop ∧ other t item = .error stop)
    {s : σ} {t : τ} (holds : related s t) :
    (∃ s' t', readAll read items s = .ok s' ∧ readAll other items t = .ok t' ∧ related s' t') ∨
      ∃ stop, readAll read items s = .error stop ∧ readAll other items t = .error stop := by
  induction items generalizing s t with
  | nil => exact Or.inl ⟨s, t, rfl, rfl, holds⟩
  | cons item items ih =>
    have rest := fun next member => step next (List.mem_cons_of_mem item member)
    rcases step item (by simp) s t holds with ⟨s', t', first, second, still⟩ | ⟨stop, first, second⟩
    · rw [readAll_cons first, readAll_cons second]
      exact ih rest still
    · exact Or.inr ⟨stop, by rw [readAll, first], by rw [readAll, second]⟩

/-- A list that is read to its end has no item of a kind, or a last one, after which
none of that kind is read. -/
theorem readAll_last (kind : α → Bool) {items : List α} {state final : σ}
    (ends : readAll read items state = .ok final) :
    (∀ item ∈ items, kind item = false) ∧
        ((trace read items state).filter fun reached => kind reached.2).getLast? = none ∨
      ∃ front item rest middle next, items = front ++ item :: rest ∧
        readAll read front state = .ok middle ∧ read middle item = .ok next ∧
        readAll read rest next = .ok final ∧ kind item = true ∧
        (∀ later ∈ rest, kind later = false) ∧
        ((trace read items state).filter fun reached => kind reached.2).getLast? =
          some (middle, item) := by
  induction items generalizing state with
  | nil => exact Or.inl ⟨by simp, rfl⟩
  | cons item items ih =>
    obtain ⟨next, result, ends⟩ := readAll_cons_ok ends
    rw [trace_cons result]
    -- The last item of the kind is in the rest, or the first item is it, or there is none.
    rcases ih ends with ⟨none, empty⟩ |
      ⟨front, last, rest, middle, after, rfl, reached, step, ends, isKind, later, found⟩
    · cases first : kind item with
      | false =>
        left
        refine ⟨?_, ?_⟩
        · intro other member
          rcases List.mem_cons.mp member with rfl | inside
          · exact first
          · exact none other inside
        · rw [List.filter_cons_of_neg (by simp [first]), empty]
      | true =>
        refine Or.inr ⟨[], item, items, state, next, rfl, rfl, result, ends, first, none, ?_⟩
        rw [List.filter_cons_of_pos (by simpa using first),
          List.getLast?_eq_none_iff.mp empty, List.getLast?_singleton]
    · refine Or.inr ⟨item :: front, last, rest, middle, after, rfl,
        (readAll_cons result front).trans reached, step, ends, isKind, later, ?_⟩
      rw [List.filter_cons]
      split
      · rw [List.getLast?_cons, found]
        rfl
      · exact found

end Reading

end BbBot.Unix
