/-
# What is held back while the helper waits

The connection hands out a record in pieces, and the helper asks for one piece each
time `poll` says that the socket can be read. A record that has been taken from the
socket is not in the socket any more, so the pieces after the first one are handed on
only when something else arrives. While the helper waits, the standard output lacks
nothing but the end of the last record, and of that at least the first piece is there.

When records arrive whole, it lacks exactly what is beyond the first piece. So a peer
that sends a long record and waits for an answer has not been read to its end.
-/

import BbBot.SslHelper.Delivery

namespace BbBot.SslHelper

open BbBot.Unix

variable {fd : ℕ} {w w' : World}

/-- What the connection holds is the end of the last record, after some pieces of it. -/
def Held (w : World) : Prop :=
  w.clear ≠ [] → ∃ pieces ≠ 0, ∃ bytes, w.socket.read.getLast? = some (.data bytes) ∧
    w.clear = bytes.drop (pieces * World.readSize)

theorem Held.start (fd : ℕ) : Held (World.start fd) := fun some => absurd rfl some

/-- A read leaves the end of the record that it reads from. -/
theorem Source.held (held : Held w) {taken : ℕ} {whole : Bytes} (source : Source w taken whole) :
    ∃ pieces ≠ 0, ∃ bytes, (w.socket.take taken).read.getLast? = some (.data bytes) ∧
      whole.drop World.readSize = bytes.drop (pieces * World.readSize) := by
  obtain ⟨some, ⟨rfl, rfl⟩ | ⟨empty, quiet, -, same⟩⟩ := source
  · obtain ⟨pieces, positive, bytes, last, rest⟩ := held some
    refine ⟨pieces + 1, by omega, bytes, by rwa [Pipe.take_zero], ?_⟩
    rw [rest, List.drop_drop, Nat.succ_mul]
  · refine ⟨1, by omega, whole, ?_, by rw [Nat.one_mul]⟩
    rw [Pipe.read_take, same, ← List.append_assoc, List.getLast?_concat]

theorem Held.step (held : Held w) {action : Action} (result : w.step action = .ok w') :
    Held w' := by
  rcases step_cases result with
    ⟨-, outside⟩ | ⟨-, -, result⟩ | ⟨network, answer, returned, -, -, rfl⟩ |
    ⟨answers, -, -, result⟩
  · rw [Held, outside.clear, outside.socket.read]
    exact held
  · rcases waitForInput_cases result with ⟨-, rfl⟩ | ⟨-, ⟨-, rfl⟩ | ⟨-, -, rfl⟩⟩
    · exact held
    · exact held
    · exact held
  · unfold World.readStdin
    cases answer with
    | failed => exact held
    | got count =>
      dsimp only
      split
      · exact held
      · split
        · exact held
        · exact held
  · cases readNetwork_cases result with
    | waits taken more empty => exact fun some => absurd empty some
    | failed taken empty => exact fun some => absurd empty some
    | finished taken empty => exact fun some => absurd empty some
    | passed taken whole source => exact fun _ => source.held held
    | torn taken whole source => exact fun _ => source.held held

theorem not_ready_of_blocked (blocked : w.waitForInput = .error ()) :
    w.stdinReady = false ∧ w.networkReady = false := by
  unfold World.waitForInput at blocked
  split at blocked
  · exact absurd blocked (by simp)
  · split at blocked
    · exact absurd blocked (by simp)
    · rename_i notInput
      split at blocked
      · exact absurd blocked (by simp)
      · rename_i notNetwork
        exact ⟨by simpa using notInput, by simpa using notNetwork⟩

/-- While the helper waits in `poll`, nothing is left in the standard input, nor in a
socket that it still polls. -/
theorem Faithful.waits (faithful : Faithful fd w) (blocked : w.waitForInput = .error ()) :
    w.input.pending = [] ∧
      (w.networkFd = fd → w.socket.pending = [] ∧ w.socket.closed = false) := by
  obtain ⟨notInput, notNetwork⟩ := not_ready_of_blocked blocked
  refine ⟨?_, ?_⟩
  · cases faithful.inputSide with
    | isOpen fd =>
      rw [World.stdinReady, fd] at notInput
      exact (Pipe.isReadable_eq_false_iff.mp (by simpa using notInput)).2
    | ended fd closed empty => exact empty
  · intro isOpen
    rw [World.networkReady, isOpen] at notNetwork
    have quiet : w.socket.isReadable = false ∧ w.torn = false := by simpa using notNetwork
    exact (Pipe.isReadable_eq_false_iff.mp quiet.1).symm

theorem run_held {actions : List Action} (ran : run actions (World.start fd) = .ok w) : Held w :=
  readAll_invariant Held (fun _ _ _ _ held result => held.step result) (Held.start fd) ran

/-- The peer sends a record of 1025 bytes and waits. -/
def longAnswer : List Action :=
  [.arrive (.data (List.replicate 1025 0)), .waitForInput, .readNetwork [.wrote 1024]]

/-- The helper waits as well, with the last byte in the connection. -/
def answerHeld : World :=
  { World.start 7 with
    socket := ⟨[.data (List.replicate 1025 0)], 1, false, by decide⟩
    clear := [0]
    output := List.replicate 1024 0 }

theorem longAnswer_ran : main exchangeArguments longAnswer = some (.ok answerHeld) := by
  decide +kernel

/-- For all arguments and every order of the actions: while the helper waits in `poll`,
the peer was sent everything that the user put in, and the standard output has everything
that the peer's records brought, except the end of the last record after some pieces. -/
theorem waiting_lacks_tail {arguments : List Str} {actions : List Action} {w : World}
    (ran : main arguments actions = some (.ok w)) (place : w.place = .poll)
    (blocked : w.waitForInput = .error ()) :
    w.sent = w.input.written ∧
      ∃ tail, w.output ++ tail = expected w.socket.written ∧
        (tail = [] ∨ ∃ pieces ≠ 0, ∃ bytes, w.socket.written.getLast? = some (.data bytes) ∧
          tail = bytes.drop (pieces * World.readSize)) := by
  obtain ⟨fd, named, ran⟩ := Option.map_eq_some_iff.mp ran
  rcases run_delivers (three_le_of_descriptor named) ran with faithful | failed
  · obtain ⟨empty, quiet⟩ := faithful.waits blocked
    refine ⟨faithful.sent.trans (Pipe.read_of_pending_nil empty), ?_⟩
    cases faithful.networkSide with
    | isOpen fd output goesOn =>
      have all := Pipe.read_of_pending_nil (quiet fd).1
      refine ⟨w.clear, faithful.output.trans (congrArg expected all), ?_⟩
      by_cases none : w.clear = []
      · exact Or.inl none
      · right
        rw [← all]
        exact run_held ran none
    | ended fd output nothing isOver =>
      exact ⟨[], by rw [List.append_nil, (faithful.closes output).2], Or.inl rfl⟩
  · obtain ⟨message, exited⟩ := failed.exited
    exact absurd (exited.symm.trans place) (by simp)

theorem waiting_lacks_tail_longAnswer :
    answerHeld.sent = answerHeld.input.written ∧
      ∃ tail, answerHeld.output ++ tail = expected answerHeld.socket.written ∧
        (tail = [] ∨ ∃ pieces ≠ 0, ∃ bytes,
          answerHeld.socket.written.getLast? = some (.data bytes) ∧
            tail = bytes.drop (pieces * World.readSize)) :=
  waiting_lacks_tail longAnswer_ran rfl rfl

/-! ## Records that arrive whole -/

/-- No action leaves a part of a record in the socket. -/
def Whole (actions : List Action) : Prop := .fragment ∉ actions

instance (actions : List Action) : Decidable (Whole actions) :=
  inferInstanceAs (Decidable (.fragment ∉ actions))

/-- The end of the last record that was taken, beyond its first piece. -/
def tailOf (records : List Record) : Bytes :=
  match records.getLast? with
  | some (.data bytes) => bytes.drop World.readSize
  | _ => []

/-- What is held back while records arrive whole and the peer is there. When the socket
is empty, the helper is inside a read with nothing left to hand on, or it has handed on
the first piece of the last record. -/
structure Exact (w : World) : Prop where
  notTorn : w.torn = false
  empty : w.networkFd ≠ -1 → w.socket.closed = false → w.socket.pending = [] →
    (∀ status message, w.place ≠ .exited status message) →
      w.place = .network ∧ w.clear = [] ∨
        w.place ≠ .network ∧ w.place ≠ .stdin true ∧ w.clear = tailOf w.socket.read

theorem Exact.start (fd : ℕ) : Exact (World.start fd) :=
  ⟨rfl, fun _ _ _ _ => Or.inr ⟨by simp [World.start], by simp [World.start], rfl⟩⟩

/-- What others do does not change what is held back, or fills or closes the socket. -/
theorem Exact.outside (exact : Exact w) {action : Action} (others : action.isHelper = false)
    (whole : action ≠ .fragment) (result : w.step action = .ok w') : Exact w' := by
  have same := outside_of_not_helper others result
  -- The socket was not filled or closed before either, when it is not now.
  have before (empty : w'.socket.pending = []) (isOpen : w'.socket.closed = false) :
      w.socket.pending = [] ∧ w.socket.closed = false := by
    obtain ⟨items, pending, -⟩ := same.socket.more
    refine ⟨(List.append_eq_nil_iff.mp (pending.symm.trans empty)).1, ?_⟩
    by_contra closed
    exact absurd ((same.socket.closed (by simpa using closed)).1.symm.trans isOpen) (by simp)
  refine ⟨?_, ?_⟩
  · cases action with
    | supply bytes => obtain rfl := Except.ok.inj result; exact exact.notTorn
    | endInput => obtain rfl := Except.ok.inj result; exact exact.notTorn
    | arrive record => obtain rfl := Except.ok.inj result; rfl
    | fragment => exact absurd rfl whole
    | hangUp how => obtain rfl := Except.ok.inj result; exact exact.notTorn
    | waitForInput => exact absurd others (by simp [Action.isHelper])
    | readStdin answer returned => exact absurd others (by simp [Action.isHelper])
    | readNetwork answers => exact absurd others (by simp [Action.isHelper])
  · intro isOpen notClosed empty
    obtain ⟨emptyBefore, openBefore⟩ := before empty notClosed
    rw [same.place, same.clear, same.socket.read]
    exact exact.empty (same.networkFd ▸ isOpen) openBefore emptyBefore

theorem Exact.waitForInput (exact : Exact w) (place : w.place = .poll)
    (result : w.waitForInput = .ok w') : Exact w' := by
  have clear (isOpen : w.networkFd ≠ -1) (notClosed : w.socket.closed = false)
      (empty : w.socket.pending = []) : w.networkReady = false ∧
        w.clear = tailOf w.socket.read := by
    refine ⟨?_, ?_⟩
    · rw [World.networkReady, Pipe.isReadable_eq_false_iff.mpr ⟨notClosed, empty⟩, exact.notTorn]
      simp
    · rcases exact.empty isOpen notClosed empty (by simp [place]) with ⟨network, -⟩ | ⟨-, -, same⟩
      · exact absurd (place.symm.trans network) (by simp)
      · exact same
  rcases waitForInput_cases result with ⟨-, rfl⟩ | ⟨-, ⟨-, rfl⟩ | ⟨-, ready, rfl⟩⟩
  · exact ⟨exact.notTorn, fun _ _ _ running => absurd rfl (running _ _)⟩
  · refine ⟨exact.notTorn, fun isOpen notClosed empty _ => ?_⟩
    obtain ⟨notReady, same⟩ := clear isOpen notClosed empty
    exact Or.inr ⟨by simp, by simp [notReady], same⟩
  · refine ⟨exact.notTorn, fun isOpen notClosed empty _ => ?_⟩
    exact absurd (ready.symm.trans (clear isOpen notClosed empty).1) (by simp)

theorem Exact.readStdin (exact : Exact w) {network : Bool} (place : w.place = .stdin network)
    (answer : ReadAnswer) (returned : ℤ) : Exact (w.readStdin network answer returned) := by
  -- The helper goes on to the network only when something is there.
  have next {w' : World} (torn : w'.torn = w.torn) (fd : w'.networkFd = w.networkFd)
      (socket : w'.socket = w.socket) (clear : w'.clear = w.clear)
      (onward : w'.place = if network then .network else .poll) : Exact w' := by
    refine ⟨torn.trans exact.notTorn, ?_⟩
    rw [fd, socket, clear, onward]
    intro isOpen notClosed empty _
    rcases exact.empty isOpen notClosed empty (by simp [place]) with
      ⟨inNetwork, -⟩ | ⟨-, notReady, same⟩
    · exact absurd (place.symm.trans inNetwork) (by simp)
    · right
      cases network with
      | true => exact absurd place notReady
      | false => exact ⟨by simp, by simp, same⟩
  unfold World.readStdin
  cases answer with
  | failed => exact ⟨exact.notTorn, fun _ _ _ running => absurd rfl (running _ _)⟩
  | got count =>
    dsimp only
    split
    · exact next rfl rfl rfl rfl rfl
    · split
      · exact next rfl rfl rfl rfl rfl
      · exact ⟨exact.notTorn, fun _ _ _ running => absurd rfl (running _ _)⟩

theorem Exact.readNetwork (exact : Exact w) (place : w.place = .network) (isOpen : w.networkFd ≠ -1)
    {answers : List WriteAnswer} (result : w.readNetwork answers = .ok w') : Exact w' := by
  cases readNetwork_cases result with
  | waits taken more empty => exact ⟨exact.notTorn, fun _ _ _ _ => Or.inl ⟨place, empty⟩⟩
  | failed => exact ⟨exact.notTorn, fun _ _ _ running => absurd rfl (running _ _)⟩
  | finished => exact ⟨exact.notTorn, fun isOpen => absurd rfl isOpen⟩
  | passed taken whole source =>
    refine ⟨exact.notTorn, fun _ notClosed empty _ => Or.inr ⟨by simp, by simp, ?_⟩⟩
    obtain ⟨some, ⟨rfl, rfl⟩ | ⟨-, quiet, -, same⟩⟩ := source
    · -- Something else is in the socket: the helper did not wait inside the read.
      rw [Pipe.take_zero] at empty
      rcases exact.empty isOpen notClosed empty (by simp [place]) with ⟨-, none⟩ | ⟨elsewhere, -⟩
      · exact absurd none some
      · exact absurd place elsewhere
    · dsimp only
      rw [tailOf, Pipe.read_take, same, ← List.append_assoc, List.getLast?_concat]
  | torn => exact ⟨exact.notTorn, fun _ _ _ running => absurd rfl (running _ _)⟩

theorem Exact.step (exact : Exact w) (faithful : Faithful fd w) {action : Action}
    (whole : action ≠ .fragment) (result : w.step action = .ok w') : Exact w' := by
  rcases step_cases result with
    ⟨others, -⟩ | ⟨-, place, result⟩ | ⟨network, answer, returned, -, place, rfl⟩ |
    ⟨answers, -, place, result⟩
  · exact exact.outside others whole result
  · exact exact.waitForInput place result
  · exact exact.readStdin place answer returned
  · have isOpen := faithful.inPlace
    rw [InPlace, place] at isOpen
    exact exact.readNetwork place (by omega) result

theorem run_exact (guard : 3 ≤ fd) {actions : List Action} (whole : Whole actions)
    (ran : run actions (World.start fd) = .ok w) : Faithful fd w ∧ Exact w ∨ Failed w := by
  refine readAll_invariant (fun w => Faithful fd w ∧ Exact w ∨ Failed w) ?_
    (Or.inl ⟨Faithful.start fd, Exact.start fd⟩) ran
  intro action member w w' holds result
  have still := step_delivers guard (holds.imp_left And.left) result
  rcases holds with ⟨faithful, exact⟩ | failed
  · have notFragment : action ≠ .fragment := fun same => whole (same ▸ member)
    exact still.imp_left fun faithful' => ⟨faithful', exact.step faithful notFragment result⟩
  · exact Or.inr (failed.outside (outside_of_not_helper (failed.not_helper result) result))

/-- Nothing is beyond the first piece exactly when the last record is that short. -/
theorem tailOf_eq_nil_iff (records : List Record) :
    tailOf records = [] ↔
      ∀ bytes, records.getLast? = some (.data bytes) → bytes.length ≤ World.readSize := by
  unfold tailOf
  split
  · rename_i bytes last
    rw [List.drop_eq_nil_iff, last]
    constructor
    · rintro short other same
      rw [Option.some_inj, Record.data.injEq] at same
      exact same ▸ short
    · exact fun short => short bytes rfl
  · rename_i notData
    exact ⟨fun _ bytes last => absurd last (notData bytes), fun _ => rfl⟩

/-- For all arguments and every order of the actions in which records arrive whole: while
the helper waits in `poll` and its peer is there, the standard output lacks exactly what
is beyond the first 1024 bytes of the last record. It has everything if and only if the
last record is no longer than that. -/
theorem waiting_lacks_exactly {arguments : List Str} {actions : List Action} {w : World}
    (ran : main arguments actions = some (.ok w)) (whole : Whole actions)
    (place : w.place = .poll) (blocked : w.waitForInput = .error ())
    (isOpen : w.networkFd ≠ -1) :
    w.output ++ tailOf w.socket.written = expected w.socket.written ∧
      (w.output = expected w.socket.written ↔
        ∀ bytes, w.socket.written.getLast? = some (.data bytes) →
          bytes.length ≤ World.readSize) := by
  obtain ⟨fd, named, ran⟩ := Option.map_eq_some_iff.mp ran
  have lacks : w.output ++ tailOf w.socket.written = expected w.socket.written := by
    rcases run_exact (three_le_of_descriptor named) whole ran with ⟨faithful, exact⟩ | failed
    · have fd : w.networkFd = fd := by
        cases faithful.networkSide with
        | isOpen fd => exact fd
        | ended fd => exact absurd fd isOpen
      obtain ⟨empty, notClosed⟩ := (faithful.waits blocked).2 fd
      have all := Pipe.read_of_pending_nil empty
      rcases exact.empty isOpen notClosed empty (by simp [place]) with ⟨network, -⟩ | ⟨-, -, same⟩
      · exact absurd (place.symm.trans network) (by simp)
      · rw [← all, ← same, faithful.output]
    · obtain ⟨message, exited⟩ := failed.exited
      exact absurd (exited.symm.trans place) (by simp)
  refine ⟨lacks, ?_⟩
  rw [← tailOf_eq_nil_iff, ← lacks]
  exact List.self_eq_append_right

/-- The last of the 1025 bytes is not written. -/
theorem waiting_lacks_exactly_longAnswer :
    answerHeld.output ++ tailOf answerHeld.socket.written = expected answerHeld.socket.written ∧
      answerHeld.output ≠ expected answerHeld.socket.written := by
  obtain ⟨lacks, all⟩ := waiting_lacks_exactly longAnswer_ran (by decide) rfl rfl (by decide)
  refine ⟨lacks, ?_⟩
  rw [Ne, all]
  exact fun short => absurd (short (List.replicate 1025 0) rfl) (by decide +kernel)

end BbBot.SslHelper
