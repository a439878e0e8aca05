/-
# The helper never spins

Every action of the helper is paid for: by a byte or a record that it takes, by one of
the two sides that ends, or by its own end. The number of its actions in a run is
therefore bounded by what the user and the peer have put in. When both of them have
stopped, the helper can always go on until it ends, and when no call fails it ends with
everything handed on.
-/

import BbBot.SslHelper.Delivery

namespace BbBot.SslHelper

open BbBot.Unix

/-- What a record pays for. -/
def Record.weight (record : Record) : ℕ := record.payload.length + 1

def weights : List Record → ℕ
  | [] => 0
  | record :: records => record.weight + weights records

@[simp] theorem weights_nil : weights [] = 0 := rfl

@[simp] theorem weights_append (front back : List Record) :
    weights (front ++ back) = weights front + weights back := by
  induction front with
  | nil => rw [List.nil_append, weights_nil, Nat.zero_add]
  | cons record front ih => rw [List.cons_append, weights, ih, weights, Nat.add_assoc]

@[simp] theorem weights_data (bytes : Bytes) : weights [.data bytes] = bytes.length + 1 := rfl

theorem length_le_weights (records : List Record) : records.length ≤ weights records := by
  induction records with
  | nil => exact Nat.zero_le _
  | cons record records ih =>
    rw [weights, Record.weight, List.length_cons]
    omega

/-- How far a place is from the end of an iteration. -/
def Place.rank : Place → ℕ
  | .poll => 2
  | .stdin _ | .network => 1
  | .exited _ _ => 0

/-- Is the descriptor still polled? -/
def polled (fd : ℤ) : ℕ := if fd = -1 then 0 else 1

/-- What is still to be taken, and the sides that have not ended. -/
def World.remaining (w : World) : ℕ :=
  w.input.pending.length + polled w.stdinFd +
    (w.clear.length + weights w.socket.pending + polled w.networkFd)

/-- A bound on what the helper can still do by itself. -/
def World.work (w : World) : ℕ := 3 * w.remaining + w.place.rank

/-- What was put in so far. -/
def World.supplied (w : World) : ℕ := w.input.written.length + weights w.socket.written

variable {fd : ℕ} {w w' : World}

@[simp] theorem polled_ended : polled (-1) = 0 := rfl

theorem polled_of_ne {fd : ℤ} (isOpen : fd ≠ -1) : polled fd = 1 := if_neg isOpen

theorem rank_le (place : Place) : place.rank ≤ 2 := by
  cases place <;> simp [Place.rank]

/-- Something has been taken. -/
theorem work_lt_of_remaining (fewer : w'.remaining < w.remaining) (moves : 1 ≤ w.place.rank) :
    w'.work < w.work := by
  have := rank_le w'.place
  rw [World.work, World.work]
  omega

/-- The iteration goes on, or the helper ends. -/
theorem work_lt_of_rank (noMore : w'.remaining ≤ w.remaining)
    (onward : w'.place.rank < w.place.rank) : w'.work < w.work := by
  rw [World.work, World.work]
  omega

theorem weights_take_drop (records : List Record) (taken : ℕ) :
    weights (records.take taken) + weights (records.drop taken) = weights records := by
  rw [← weights_append, List.take_append_drop]

theorem weights_drop_le (records : List Record) (taken : ℕ) :
    weights (records.drop taken) ≤ weights records := by
  have sum := weights_take_drop records taken
  omega

/-- A read takes bytes that are left, or at least one record. -/
theorem Source.remaining {taken : ℕ} {whole : Bytes} (source : Source w taken whole) :
    (whole.drop World.readSize).length + weights (w.socket.pending.drop taken) <
      w.clear.length + weights w.socket.pending := by
  obtain ⟨some, ⟨rfl, rfl⟩ | ⟨empty, quiet, -, same⟩⟩ := source
  · have positive := List.length_pos_of_ne_nil some
    rw [List.drop_zero, List.length_drop, World.readSize]
    omega
  · have sum := weights_take_drop w.socket.pending taken
    rw [same, weights_append, weights_data] at sum
    rw [List.length_drop]
    omega

theorem waitForInput_work (result : w.waitForInput = .ok w') (place : w.place = .poll) :
    w'.work < w.work := by
  rcases waitForInput_cases result with ⟨-, rfl⟩ | ⟨-, ⟨-, rfl⟩ | ⟨-, -, rfl⟩⟩
  · exact work_lt_of_rank le_rfl (by simp [place, Place.rank])
  · exact work_lt_of_rank le_rfl (by simp [place, Place.rank])
  · exact work_lt_of_rank le_rfl (by simp [place, Place.rank])

theorem Faithful.readStdin_work (faithful : Faithful fd w) {network : Bool}
    (place : w.place = .stdin network) (answer : ReadAnswer) (returned : ℤ) :
    (w.readStdin network answer returned).work < w.work := by
  have inPlace := faithful.inPlace
  rw [InPlace, place] at inPlace
  have isOpen : w.stdinFd ≠ -1 := by omega
  have moves : 1 ≤ w.place.rank := by rw [place]; exact le_rfl
  unfold World.readStdin
  cases answer with
  | failed => exact work_lt_of_rank le_rfl moves
  | got count =>
    dsimp only
    split
    · -- The side ends.
      apply work_lt_of_remaining _ moves
      simp only [World.remaining, polled_ended, polled_of_ne isOpen]
      omega
    · rename_i some
      have fewer : (w.input.pending.drop (min (max count 1) World.bufferSize)).length <
          w.input.pending.length := by
        have positive := List.length_pos_of_ne_nil some
        rw [List.length_drop, World.bufferSize]
        omega
      split
      · apply work_lt_of_remaining _ moves
        simp only [World.remaining, Pipe.pending_take]
        omega
      · apply work_lt_of_remaining _ moves
        simp only [World.remaining, World.die, Pipe.pending_take]
        omega

theorem Faithful.readNetwork_work (faithful : Faithful fd w) (place : w.place = .network)
    {answers : List WriteAnswer} (result : w.readNetwork answers = .ok w') :
    w'.work < w.work := by
  have isOpen : w.networkFd ≠ -1 := by
    have inPlace := faithful.inPlace
    rw [InPlace, place] at inPlace
    omega
  have moves : 1 ≤ w.place.rank := by rw [place]; exact le_rfl
  cases readNetwork_cases result with
  | waits taken more empty quiet all =>
    apply work_lt_of_remaining _ moves
    have some := List.length_pos_of_ne_nil more
    have := length_le_weights w.socket.pending
    have gone : w.socket.pending.drop taken = [] := by simpa using List.take_eq_self_iff _ |>.mp all
    simp only [World.remaining, Pipe.pending_take, gone, weights_nil]
    omega
  | failed taken empty explains =>
    refine work_lt_of_rank ?_ moves
    have := weights_drop_le w.socket.pending taken
    simp only [World.remaining, World.die, Pipe.pending_take]
    omega
  | finished taken empty explains =>
    apply work_lt_of_remaining _ moves
    have := weights_drop_le w.socket.pending taken
    simp only [World.remaining, Pipe.pending_take, polled_ended, polled_of_ne isOpen]
    omega
  | passed taken whole source =>
    apply work_lt_of_remaining _ moves
    have := source.remaining
    simp only [World.remaining, Pipe.pending_take]
    omega
  | torn taken whole source total message failing =>
    apply work_lt_of_remaining _ moves
    have := source.remaining
    simp only [World.remaining, World.die, Pipe.pending_take]
    omega

/-! ## Runs -/

/-- What the user and the peer put in pays for the work that it makes. -/
theorem Outside.work (outside : Outside w w') :
    w'.work + 3 * w.supplied = w.work + 3 * w'.supplied := by
  obtain ⟨bytes, inputPending, inputWritten⟩ := outside.input.more
  obtain ⟨records, socketPending, socketWritten⟩ := outside.socket.more
  simp only [World.work, World.remaining, World.supplied, outside.place, outside.stdinFd,
    outside.networkFd, outside.clear, inputPending, inputWritten, socketPending, socketWritten,
    List.length_append, weights_append]
  omega

/-- The helper puts nothing in. -/
structure Kept (w w' : World) : Prop where
  input : w'.input.written = w.input.written
  socket : w'.socket.written = w.socket.written
  how : w'.how = w.how

theorem kept_of_helper {action : Action} (helper : action.isHelper = true)
    (result : w.step action = .ok w') : Kept w w' := by
  rcases step_cases result with
    ⟨others, -⟩ | ⟨-, -, result⟩ | ⟨network, answer, returned, -, -, rfl⟩ |
    ⟨answers, -, -, result⟩
  · exact absurd (helper.symm.trans others) (by simp)
  · rcases waitForInput_cases result with ⟨-, rfl⟩ | ⟨-, ⟨-, rfl⟩ | ⟨-, -, rfl⟩⟩
    · exact ⟨rfl, rfl, rfl⟩
    · exact ⟨rfl, rfl, rfl⟩
    · exact ⟨rfl, rfl, rfl⟩
  · unfold World.readStdin
    cases answer with
    | failed => exact ⟨rfl, rfl, rfl⟩
    | got count =>
      dsimp only
      split
      · exact ⟨rfl, rfl, rfl⟩
      · split
        · exact ⟨rfl, rfl, rfl⟩
        · exact ⟨rfl, rfl, rfl⟩
  · cases readNetwork_cases result with
    | waits => exact ⟨rfl, rfl, rfl⟩
    | failed => exact ⟨rfl, rfl, rfl⟩
    | finished => exact ⟨rfl, rfl, rfl⟩
    | passed => exact ⟨rfl, rfl, rfl⟩
    | torn => exact ⟨rfl, rfl, rfl⟩

theorem Kept.supplied (kept : Kept w w') : w'.supplied = w.supplied := by
  rw [World.supplied, kept.input, kept.socket, World.supplied]

/-- Every action of the helper is paid for. -/
theorem Faithful.step_work (faithful : Faithful fd w) {action : Action}
    (helper : action.isHelper = true) (result : w.step action = .ok w') : w'.work < w.work := by
  rcases step_cases result with
    ⟨others, -⟩ | ⟨-, place, result⟩ | ⟨network, answer, returned, -, place, rfl⟩ |
    ⟨answers, -, place, result⟩
  · exact absurd (helper.symm.trans others) (by simp)
  · exact waitForInput_work result place
  · exact faithful.readStdin_work place answer returned
  · exact faithful.readNetwork_work place result

theorem step_work_le (holds : Faithful fd w ∨ Failed w) {action : Action}
    (result : w.step action = .ok w') :
    (if action.isHelper then 1 else 0) + w'.work + 3 * w.supplied ≤
      w.work + 3 * w'.supplied := by
  cases helper : action.isHelper with
  | false =>
    have := (outside_of_not_helper helper result).work
    simp only [Bool.false_eq_true, if_false]
    omega
  | true =>
    rcases holds with faithful | failed
    · have := faithful.step_work helper result
      rw [(kept_of_helper helper result).supplied, if_pos rfl]
      omega
    · exact absurd (helper.symm.trans (failed.not_helper result)) (by simp)

/-- In a run the helper does no more than what was put in pays for. -/
theorem run_work_le (guard : 3 ≤ fd) {actions : List Action} (holds : Faithful fd w ∨ Failed w)
    (ran : run actions w = .ok w') :
    actions.countP Action.isHelper + w'.work + 3 * w.supplied ≤ w.work + 3 * w'.supplied := by
  induction actions generalizing w with
  | nil =>
    obtain rfl := Except.ok.inj ran
    simp
  | cons action actions ih =>
    obtain ⟨next, result, ran⟩ := readAll_cons_ok ran
    have first := step_work_le holds result
    have rest := ih (step_delivers guard holds result) ran
    rw [List.countP_cons]
    omega

/-- The action is not a call that fails, nor does the peer make one fail. -/
def Smooth (w : World) : Action → Prop
  | .arrive record => record ≠ .corrupt
  | .hangUp how => how ≠ .broken
  | .readStdin (.got count) returned => returned = (w.chunk count).length
  | .readStdin .failed _ => False
  | .readNetwork answers => .failed ∉ answers
  | _ => True

instance (w : World) : (action : Action) → Decidable (Smooth w action)
  | .arrive record => inferInstanceAs (Decidable (record ≠ .corrupt))
  | .hangUp how => inferInstanceAs (Decidable (how ≠ .broken))
  | .readStdin (.got count) returned =>
    inferInstanceAs (Decidable (returned = (w.chunk count).length))
  | .readStdin .failed _ => isFalse id
  | .readNetwork answers => inferInstanceAs (Decidable (.failed ∉ answers))
  | .supply _ | .endInput | .fragment | .waitForInput => isTrue trivial

/-- Nothing that the peer did makes a call fail. -/
structure Sane (w : World) : Prop where
  records : ∀ record ∈ w.socket.written, record ≠ .corrupt
  how : w.how ≠ .broken

/-- A call that does not fail leaves the helper running. -/
theorem Faithful.smooth (guard : 3 ≤ fd) (faithful : Faithful fd w) (sane : Sane w)
    {action : Action} (smooth : Smooth w action) (result : w.step action = .ok w') :
    Faithful fd w' := by
  rcases step_cases result with
    ⟨-, outside⟩ | ⟨-, -, result⟩ | ⟨network, answer, returned, rfl, place, rfl⟩ |
    ⟨answers, rfl, place, result⟩
  · exact faithful.outside outside
  · exact faithful.waitForInput guard result
  · -- The only other outcome is the exit after a failure.
    cases answer with
    | failed => exact absurd smooth id
    | got count =>
      obtain rfl : returned = (w.chunk count).length := smooth
      rcases faithful.readStdin place (.got count) (w.chunk count).length with holds | failed
      · exact holds
      · obtain ⟨message, exited⟩ := failed.exited
        unfold World.readStdin at exited
        dsimp only at exited
        split at exited
        · cases network <;> simp at exited
        · rw [if_pos rfl] at exited
          cases network <;> simp at exited
  · rcases faithful.readNetwork place result with holds | failed
    · exact holds
    · obtain ⟨message, exited⟩ := failed.exited
      cases readNetwork_cases result with
      | waits => exact absurd (exited.symm.trans place) (by simp)
      | failed taken empty explains =>
        rcases explains with ⟨quiet, -, same⟩ | ⟨-, -, broken⟩
        · refine absurd rfl (sane.records .corrupt ?_)
          have inside : Record.corrupt ∈ w.socket.pending.take taken := by simp [same]
          exact List.mem_of_mem_drop (List.mem_of_mem_take inside)
        · unfold World.hangup at broken
          split at broken
          · exact absurd (Option.some.inj broken) sane.how
          · exact absurd broken (by simp)
      | finished => exact absurd exited (by simp)
      | passed => exact absurd exited (by simp)
      | torn taken whole source total message failing => exact absurd failing smooth

theorem Sane.step (sane : Sane w) {action : Action} (smooth : Smooth w action)
    (result : w.step action = .ok w') : Sane w' := by
  cases helper : action.isHelper with
  | true =>
    have kept := kept_of_helper helper result
    exact ⟨kept.socket ▸ sane.records, kept.how ▸ sane.how⟩
  | false =>
    cases action with
    | arrive record =>
      obtain rfl := Except.ok.inj result
      refine ⟨?_, sane.how⟩
      intro later member
      dsimp only at member
      cases isClosed : w.socket.closed with
      | true =>
        rw [Pipe.put_of_closed _ isClosed] at member
        exact sane.records later member
      | false =>
        rw [Pipe.written_put_of_open _ isClosed, List.mem_append, List.mem_singleton] at member
        rcases member with before | rfl
        · exact sane.records later before
        · exact smooth
    | hangUp how =>
      obtain rfl := Except.ok.inj result
      refine ⟨sane.records, ?_⟩
      dsimp only
      split
      · exact sane.how
      · exact smooth
    | supply bytes =>
      obtain rfl := Except.ok.inj result
      exact ⟨sane.records, sane.how⟩
    | endInput =>
      obtain rfl := Except.ok.inj result
      exact ⟨sane.records, sane.how⟩
    | fragment =>
      obtain rfl := Except.ok.inj result
      exact ⟨sane.records, sane.how⟩
    | waitForInput => exact absurd helper (by simp [Action.isHelper])
    | readStdin answer returned => exact absurd helper (by simp [Action.isHelper])
    | readNetwork answers => exact absurd helper (by simp [Action.isHelper])

/-- A kernel that writes all at once. -/
theorem fullWrite_whole (len : ℕ) : (fullWrite len 0 [.wrote len]).returned = some (len : ℤ) := by
  obtain ⟨-, -, result⟩ := fullWrite_cases len 0 [.wrote len]
  by_cases none : len = 0
  · rw [none, fullWrite, if_pos rfl]
  · rw [fullWrite, if_neg none]
    simp only [safeWrite, Nat.min_self]
    rw [if_neg (by omega), Int.toNat_natCast, Nat.sub_self, fullWrite, if_pos rfl, Nat.zero_add]

/-- A read that brings bytes can be finished. -/
theorem exists_readNetwork_of_read {taken : ℕ} {data clear : Bytes}
    (received : receiveData World.readSize w.clear w.hangup w.socket.pending =
      (taken, .read data clear)) :
    ∃ w', w.readNetwork [.wrote data.length] = .ok w' := by
  unfold World.readNetwork
  rw [received]
  dsimp only
  rw [fullWrite_whole]
  dsimp only
  split
  · exact ⟨_, rfl⟩
  · exact ⟨_, rfl⟩

/-- A read from a closed socket does not wait. -/
theorem exists_readNetwork (socketClosed : w.socket.closed = true) :
    ∃ answers w', w.readNetwork answers = .ok w' := by
  have hangup : w.hangup = some w.how := if_pos socketClosed
  rcases receiveData_cases World.readSize w.clear w.hangup w.socket.pending with
    ⟨-, received⟩ | ⟨-, taken, -, reply, explains, received⟩
  · exact ⟨_, exists_readNetwork_of_read received⟩
  · cases reply with
    | waits => exact absurd (explains.2.2.symm.trans hangup) (by simp)
    | clear bytes => exact ⟨_, exists_readNetwork_of_read received⟩
    | finished => exact ⟨[], _, by rw [World.readNetwork, received]⟩
    | failed => exact ⟨[], _, by rw [World.readNetwork, received]⟩

/-- When both ends have stopped, the helper can go on until it ends. -/
theorem Faithful.goes_on (guard : 3 ≤ fd) (faithful : Faithful fd w)
    (inputClosed : w.input.closed = true) (socketClosed : w.socket.closed = true) :
    w.place = .exited 0 [] ∨ ∃ action w', action.isHelper = true ∧ w.step action = .ok w' := by
  have inPlace := faithful.inPlace
  unfold InPlace at inPlace
  cases place : w.place with
  | poll =>
    right
    -- The descriptors are equal, or one of the sides is at its end and can be read.
    have possible : ∃ w', w.waitForInput = .ok w' := by
      unfold World.waitForInput
      by_cases same : w.stdinFd = w.networkFd
      · exact ⟨_, if_pos same⟩
      · rw [if_neg same]
        by_cases input : w.stdinReady = true
        · exact ⟨_, if_pos input⟩
        · rw [if_neg input]
          refine ⟨_, if_pos ?_⟩
          have readable : w.input.isReadable = true := Pipe.isReadable_iff.mpr (Or.inl inputClosed)
          have ended : w.stdinFd = -1 := by
            cases faithful.inputSide with
            | isOpen fd => exact absurd (by simp [World.stdinReady, fd, readable]) input
            | ended fd => exact fd
          have network : 0 ≤ w.networkFd := by
            cases faithful.networkSide with
            | isOpen fd => omega
            | ended fd => exact absurd (ended.trans fd.symm) same
          have more : w.socket.isReadable = true := Pipe.isReadable_iff.mpr (Or.inl socketClosed)
          simp [World.networkReady, network, more]
    obtain ⟨w', result⟩ := possible
    exact ⟨.waitForInput, w', rfl, by rw [World.step, if_pos place, result]⟩
  | stdin network =>
    right
    exact ⟨.readStdin .failed 0, w.readStdin network .failed 0, rfl, by rw [World.step, place]⟩
  | network =>
    right
    obtain ⟨answers, w', result⟩ := exists_readNetwork socketClosed
    exact ⟨.readNetwork answers, w', rfl, by rw [World.step, if_pos place, result]⟩
  | exited status message =>
    rw [place] at inPlace
    obtain ⟨rfl, rfl, -⟩ := inPlace
    exact Or.inl rfl

theorem run_smooth (guard : 3 ≤ fd) {actions : List Action}
    (smooth : ∀ reached ∈ trace World.step actions (World.start fd), Smooth reached.1 reached.2)
    (ran : run actions (World.start fd) = .ok w) : Faithful fd w ∧ Sane w := by
  refine readAll_invariant_of_trace (fun w => Faithful fd w ∧ Sane w) ?_
    ⟨Faithful.start fd, by simp [World.start, Pipe.new], by simp [World.start]⟩ ran
  intro reached member next holds result
  exact ⟨holds.1.smooth guard holds.2 (smooth reached member) result,
    holds.2.step (smooth reached member) result⟩

/-- For all arguments and every order of the actions, when no call fails and both ends have
stopped: as long as the helper has not ended it can go on, and once it cannot go on it has
ended with status zero, and everything was handed on in both directions. -/
theorem relay_completes {arguments : List Str} {fd : ℕ} (named : descriptor arguments = some fd)
    {actions : List Action} {w : World} (ran : run actions (World.start fd) = .ok w)
    (smooth : ∀ reached ∈ trace World.step actions (World.start fd), Smooth reached.1 reached.2)
    (inputClosed : w.input.closed = true) (socketClosed : w.socket.closed = true)
    (rests : ∀ action, action.isHelper = true → w.step action = .error ()) :
    w.place = .exited 0 [] ∧ w.sent = w.input.written ∧ w.outputClosed = true ∧
      w.output = expected w.socket.written := by
  have guard := three_le_of_descriptor named
  obtain ⟨faithful, -⟩ := run_smooth guard smooth ran
  rcases faithful.goes_on guard inputClosed socketClosed with exited | ⟨action, w', helper, result⟩
  · obtain ⟨-, -, -, sent, -, closed, output⟩ := faithful.exited exited
    exact ⟨exited, sent, closed, output⟩
  · rw [rests action helper] at result
    exact absurd result (by simp)

theorem relay_completes_exchange :
    exchanged.place = .exited 0 [] ∧ exchanged.sent = [71, 69, 84] ∧
      exchanged.outputClosed = true ∧ exchanged.output = [79, 75] := by
  have named : descriptor exchangeArguments = some 7 := by decide
  have ran : run exchange (World.start 7) = .ok exchanged := by decide +kernel
  refine relay_completes named ran (by decide +kernel) rfl rfl ?_
  intro action helper
  cases action with
  | waitForInput => rfl
  | readStdin answer returned => rfl
  | readNetwork answers => rfl
  | supply bytes => exact absurd helper (by simp [Action.isHelper])
  | endInput => exact absurd helper (by simp [Action.isHelper])
  | arrive record => exact absurd helper (by simp [Action.isHelper])
  | fragment => exact absurd helper (by simp [Action.isHelper])
  | hangUp how => exact absurd helper (by simp [Action.isHelper])

end BbBot.SslHelper
