/-
# Nothing is lost between the two pipes

In any order of the actions: the connection has been given what was read from the
standard input, and the standard output has what the records brought, apart from the
part of the last one that the connection still holds. The helper ends well only when
both sides have ended, and then everything has been handed on. When a call fails, a
part has been handed on and the helper has ended.

The loop stops when its two descriptors are equal. They start apart because `main`
takes no descriptor below three, and so they are equal only when both sides have
ended.
-/

import BbBot.SslHelper.World

namespace BbBot.SslHelper

open BbBot.Unix

/-! ## What holds all the time -/

/-- The peer has closed the connection, or is gone with nothing left in the socket. -/
def Over (w : World) : Prop :=
  (∃ record ∈ w.socket.read, record.ends = true) ∨
    w.socket.closed = true ∧ w.socket.pending = []

/-- The side of the standard input: open, or at its end with nothing left in it. -/
inductive InputSide (w : World) : Prop
  | isOpen (fd : w.stdinFd = 0)
  | ended (fd : w.stdinFd = -1) (closed : w.input.closed = true) (empty : w.input.pending = [])

/-- The side of the connection: open, or at its end with nothing left of what it
brought. -/
inductive NetworkSide (fd : ℕ) (w : World) : Prop
  | isOpen (fd : w.networkFd = fd) (output : w.outputClosed = false)
      (goesOn : ∀ record ∈ w.socket.read, record.ends = false)
  | ended (fd : w.networkFd = -1) (output : w.outputClosed = true) (nothing : w.clear = [])
      (isOver : Over w)

/-- Where the helper can be. -/
def InPlace (fd : ℕ) (w : World) : Prop :=
  match w.place with
  | .poll => True
  | .stdin network =>
    w.stdinFd = 0 ∧ w.input.isReadable = true ∧ (network = true → w.networkFd = fd)
  | .network => w.networkFd = fd
  | .exited status message => status = 0 ∧ message = [] ∧ w.stdinFd = -1 ∧ w.networkFd = -1

/-- Nothing has failed: everything that was read has been handed on. -/
structure Faithful (fd : ℕ) (w : World) : Prop where
  sent : w.sent = w.input.read
  output : w.output ++ w.clear = expected w.socket.read
  inputSide : InputSide w
  networkSide : NetworkSide fd w
  inPlace : InPlace fd w

/-- A call has failed and the helper has ended: a part was handed on. -/
structure Failed (w : World) : Prop where
  exited : ∃ message, w.place = .exited 1 message
  sent : w.sent <+: w.input.read
  output : w.output <+: expected w.socket.read
  outputClosed : w.outputClosed = true → Over w ∧ w.output = expected w.socket.read

theorem expected_append_of_ends {front : List Record} (back : List Record)
    (ends : ∃ record ∈ front, record.ends = true) : expected (front ++ back) = expected front := by
  obtain ⟨last, member, ends⟩ := ends
  induction front with
  | nil => exact absurd member (by simp)
  | cons record front ih =>
    cases first : record.ends with
    | true => simp [expected, first]
    | false =>
      have inside : last ∈ front := by
        rcases List.mem_cons.mp member with rfl | inside
        · exact absurd (ends.symm.trans first) (by simp)
        · exact inside
      have rest := ih inside
      simp only [expected, List.cons_append, List.takeWhile_cons, first] at rest ⊢
      simpa using rest

/-- What the peer sends after the end is not expected any more. -/
theorem Over.expected_eq {w : World} (isOver : Over w) :
    expected w.socket.read = expected w.socket.written := by
  rw [← Pipe.read_append_pending w.socket]
  rcases isOver with ends | ⟨-, empty⟩
  · rw [expected_append_of_ends _ ends]
  · rw [empty, List.append_nil]

/-! ## What others do -/

/-- The helper has not moved, and what it has read stays read. -/
structure Outside (w w' : World) : Prop where
  place : w'.place = w.place
  stdinFd : w'.stdinFd = w.stdinFd
  networkFd : w'.networkFd = w.networkFd
  clear : w'.clear = w.clear
  sent : w'.sent = w.sent
  output : w'.output = w.output
  outputClosed : w'.outputClosed = w.outputClosed
  input : Pipe.Fed w.input w'.input
  socket : Pipe.Fed w.socket w'.socket

theorem Over.outside {w w' : World} (outside : Outside w w') (isOver : Over w) : Over w' := by
  rcases isOver with ends | ⟨closed, empty⟩
  · exact Or.inl (outside.socket.read ▸ ends)
  · obtain ⟨closed', same⟩ := outside.socket.closed closed
    exact Or.inr ⟨closed', same.trans empty⟩

theorem InPlace.outside {fd : ℕ} {w w' : World} (outside : Outside w w') (place : InPlace fd w) :
    InPlace fd w' := by
  unfold InPlace at *
  rw [outside.place, outside.stdinFd, outside.networkFd]
  split at place
  · trivial
  · exact ⟨place.1, outside.input.isReadable place.2.1, place.2.2⟩
  · exact place
  · exact place

theorem Faithful.outside {fd : ℕ} {w w' : World} (outside : Outside w w')
    (faithful : Faithful fd w) : Faithful fd w' where
  sent := by rw [outside.sent, outside.input.read, faithful.sent]
  output := by rw [outside.output, outside.clear, outside.socket.read, faithful.output]
  inputSide := by
    cases faithful.inputSide with
    | isOpen fd => exact .isOpen (outside.stdinFd.trans fd)
    | ended fd closed empty =>
      obtain ⟨closed', same⟩ := outside.input.closed closed
      exact .ended (outside.stdinFd.trans fd) closed' (same.trans empty)
  networkSide := by
    cases faithful.networkSide with
    | isOpen fd output goesOn =>
      exact .isOpen (outside.networkFd.trans fd) (outside.outputClosed.trans output)
        (outside.socket.read ▸ goesOn)
    | ended fd output nothing isOver =>
      exact .ended (outside.networkFd.trans fd) (outside.outputClosed.trans output)
        (outside.clear.trans nothing) (isOver.outside outside)
  inPlace := faithful.inPlace.outside outside

theorem Failed.outside {w w' : World} (outside : Outside w w') (failed : Failed w) :
    Failed w' where
  exited := outside.place ▸ failed.exited
  sent := by
    rw [outside.sent, outside.input.read]
    exact failed.sent
  output := by
    rw [outside.output, outside.socket.read]
    exact failed.output
  outputClosed := by
    rw [outside.output, outside.socket.read, outside.outputClosed]
    exact fun closed => (failed.outputClosed closed).imp_left (Over.outside outside)

/-! ## The steps of the helper -/

variable {fd : ℕ} {w : World}

theorem Faithful.start (fd : ℕ) : Faithful fd (World.start fd) where
  sent := rfl
  output := rfl
  inputSide := .isOpen rfl
  networkSide := .isOpen rfl rfl (by simp [World.start])
  inPlace := trivial

/-- The two descriptors are equal only when both sides have ended. -/
theorem Faithful.stdinFd_eq_networkFd_iff (guard : 3 ≤ fd) (faithful : Faithful fd w) :
    w.stdinFd = w.networkFd ↔ w.stdinFd = -1 ∧ w.networkFd = -1 := by
  have input : w.stdinFd = 0 ∨ w.stdinFd = -1 := by
    cases faithful.inputSide with
    | isOpen fd => exact Or.inl fd
    | ended fd => exact Or.inr fd
  have network : w.networkFd = fd ∨ w.networkFd = -1 := by
    cases faithful.networkSide with
    | isOpen fd => exact Or.inl fd
    | ended fd => exact Or.inr fd
  omega

/-- Only the place changes. -/
theorem Faithful.moved (faithful : Faithful fd w) {place : Place}
    (inPlace : InPlace fd { w with place := place }) : Faithful fd { w with place := place } where
  sent := faithful.sent
  output := faithful.output
  inputSide := by
    cases faithful.inputSide with
    | isOpen fd => exact .isOpen fd
    | ended fd closed empty => exact .ended fd closed empty
  networkSide := by
    cases faithful.networkSide with
    | isOpen fd output goesOn => exact .isOpen fd output goesOn
    | ended fd output nothing isOver => exact .ended fd output nothing isOver
  inPlace := inPlace

theorem waitForInput_cases {w' : World} (result : w.waitForInput = .ok w') :
    (w.stdinFd = w.networkFd ∧ w' = { w with place := .exited 0 [] }) ∨
      w.stdinFd ≠ w.networkFd ∧
        ((w.stdinReady = true ∧ w' = { w with place := .stdin w.networkReady }) ∨
          w.stdinReady = false ∧ w.networkReady = true ∧ w' = { w with place := .network }) := by
  unfold World.waitForInput at result
  split at result
  · rename_i same
    exact Or.inl ⟨same, (Except.ok.inj result).symm⟩
  · rename_i apart
    split at result
    · rename_i ready
      exact Or.inr ⟨apart, Or.inl ⟨ready, (Except.ok.inj result).symm⟩⟩
    · rename_i notReady
      split at result
      · rename_i ready
        exact Or.inr ⟨apart,
          Or.inr ⟨by simpa using notReady, ready, (Except.ok.inj result).symm⟩⟩
      · exact absurd result (by simp)

theorem Faithful.networkFd_of_ready (faithful : Faithful fd w) (ready : w.networkReady = true) :
    w.networkFd = fd := by
  cases faithful.networkSide with
  | isOpen fd => exact fd
  | ended fd =>
    rw [World.networkReady, fd] at ready
    exact absurd ready (by simp)

theorem Faithful.stdinFd_of_ready (faithful : Faithful fd w) (ready : w.stdinReady = true) :
    w.stdinFd = 0 := by
  cases faithful.inputSide with
  | isOpen fd => exact fd
  | ended fd =>
    rw [World.stdinReady, fd] at ready
    exact absurd ready (by simp)

theorem readable_of_stdinReady (ready : w.stdinReady = true) : w.input.isReadable = true := by
  rw [World.stdinReady, Bool.and_eq_true] at ready
  exact ready.2

theorem Faithful.waitForInput (guard : 3 ≤ fd) (faithful : Faithful fd w) {w' : World}
    (result : w.waitForInput = .ok w') : Faithful fd w' := by
  rcases waitForInput_cases result with
    ⟨same, rfl⟩ | ⟨-, ⟨ready, rfl⟩ | ⟨-, ready, rfl⟩⟩
  · exact faithful.moved ⟨rfl, rfl, (faithful.stdinFd_eq_networkFd_iff guard).mp same⟩
  · exact faithful.moved ⟨faithful.stdinFd_of_ready ready, readable_of_stdinReady ready,
      faithful.networkFd_of_ready⟩
  · exact faithful.moved (faithful.networkFd_of_ready ready)

/-- A call fails while everything read so far has been handed on, or a prefix of it. -/
theorem Failed.die (message : Str) (sent : w.sent <+: w.input.read)
    (output : w.output <+: expected w.socket.read)
    (outputClosed : w.outputClosed = true → Over w ∧ w.output = expected w.socket.read) :
    Failed (w.die message) :=
  ⟨⟨message, rfl⟩, sent, output, outputClosed⟩

/-- Once the standard output is closed, everything has been written to it. -/
theorem Faithful.outputClosed (faithful : Faithful fd w) (closed : w.outputClosed = true) :
    Over w ∧ w.output = expected w.socket.read := by
  cases faithful.networkSide with
  | isOpen fd output => exact absurd (closed.symm.trans output) (by simp)
  | ended fd output nothing isOver =>
    refine ⟨isOver, ?_⟩
    rw [← faithful.output, nothing, List.append_nil]

theorem Faithful.output_prefix (faithful : Faithful fd w) :
    w.output <+: expected w.socket.read := by
  rw [← faithful.output]
  exact List.prefix_append _ _

theorem Faithful.readStdin (faithful : Faithful fd w) {network : Bool}
    (place : w.place = .stdin network) (answer : ReadAnswer) (returned : ℤ) :
    Faithful fd (w.readStdin network answer returned) ∨
      Failed (w.readStdin network answer returned) := by
  have inPlace := faithful.inPlace
  rw [InPlace, place] at inPlace
  obtain ⟨stdinFd, readable, networkFd⟩ := inPlace
  -- From here the helper goes to the network or back to the start of the loop.
  have onward {w' : World} (same : w'.networkFd = w.networkFd)
      (next : w'.place = if network then .network else .poll) : InPlace fd w' := by
    rw [InPlace, next]
    cases network with
    | false => trivial
    | true => exact same.trans (networkFd rfl)
  have networkSide {w' : World} (fdSame : w'.networkFd = w.networkFd)
      (closedSame : w'.outputClosed = w.outputClosed) (clearSame : w'.clear = w.clear)
      (socketSame : w'.socket = w.socket) : NetworkSide fd w' := by
    cases faithful.networkSide with
    | isOpen fd output goesOn =>
      exact .isOpen (fdSame.trans fd) (closedSame.trans output) (socketSame ▸ goesOn)
    | ended fd output nothing isOver =>
      refine .ended (fdSame.trans fd) (closedSame.trans output) (clearSame.trans nothing) ?_
      rwa [Over, socketSame]
  unfold World.readStdin
  cases answer with
  | failed =>
    right
    exact Failed.die _ (faithful.sent ▸ List.prefix_rfl) faithful.output_prefix
      faithful.outputClosed
  | got count =>
    dsimp only
    split
    · rename_i empty
      -- `poll` has said that the input can be read, so it is at its end.
      have closed : w.input.closed = true :=
        (Pipe.isReadable_iff.mp readable).resolve_right (not_not.mpr empty)
      left
      exact ⟨faithful.sent, faithful.output, .ended rfl closed empty,
        networkSide rfl rfl rfl rfl, onward rfl rfl⟩
    · split
      · left
        exact ⟨by simp [faithful.sent, World.chunk], faithful.output, .isOpen stdinFd,
          networkSide rfl rfl rfl rfl, onward rfl rfl⟩
      · right
        refine Failed.die _ ?_ faithful.output_prefix faithful.outputClosed
        simp [faithful.sent]

/-- Where the bytes of a read come from: the rest of a record, or a new one. -/
def Source (w : World) (taken : ℕ) (whole : Bytes) : Prop :=
  whole ≠ [] ∧
    (taken = 0 ∧ w.clear = whole ∨
      w.clear = [] ∧ ∃ quiet, Quiet quiet ∧ w.socket.pending.take taken = quiet ++ [.data whole])

/-- What a read from the connection can come to. -/
inductive NetworkRead (w : World) (answers : List WriteAnswer) : World → Prop
  /-- The records bring nothing, and the connection waits for another one. -/
  | waits (taken : ℕ) (more : w.socket.pending ≠ []) (empty : w.clear = [])
      (quiet : Quiet (w.socket.pending.take taken))
      (all : w.socket.pending.take taken = w.socket.pending) (isOpen : w.hangup = none) :
      NetworkRead w answers { w with socket := w.socket.take taken }
  | failed (taken : ℕ) (empty : w.clear = [])
      (explains : Explains w.hangup w.socket.pending (w.socket.pending.take taken) .failed) :
      NetworkRead w answers ({ w with socket := w.socket.take taken }.die (sslReadText (-1)))
  | finished (taken : ℕ) (empty : w.clear = [])
      (explains : Explains w.hangup w.socket.pending (w.socket.pending.take taken) .finished) :
      NetworkRead w answers { w with
        socket := w.socket.take taken, networkFd := -1, outputClosed := true, place := .poll }
  /-- The bytes are read and written. -/
  | passed (taken : ℕ) (whole : Bytes) (source : Source w taken whole) :
      NetworkRead w answers { w with
        socket := w.socket.take taken, clear := whole.drop World.readSize,
        output := w.output ++ whole.take World.readSize, place := .poll }
  /-- The bytes are read, and only a part can be written. -/
  | torn (taken : ℕ) (whole : Bytes) (source : Source w taken whole) (total : ℕ) (message : Str)
      (failing : .failed ∈ answers) :
      NetworkRead w answers ({ w with
        socket := w.socket.take taken, clear := whole.drop World.readSize,
        output := w.output ++ (whole.take World.readSize).take total }.die message)

/-- What the helper does with bytes that it has read. -/
theorem networkRead_of_source {taken : ℕ} {whole : Bytes} (source : Source w taken whole)
    {answers : List WriteAnswer} {w' : World}
    (result : (match (fullWrite (whole.take World.readSize).length 0 answers).returned with
      | none => Except.error ()
      | some n =>
        let w := { w with
          socket := w.socket.take taken, clear := whole.drop World.readSize,
          output := w.output ++ (whole.take World.readSize).take
            (fullWrite (whole.take World.readSize).length 0 answers).total }
        if n = (whole.take World.readSize).length then .ok { w with place := .poll }
        else .ok (w.die (stdoutText (whole.take World.readSize).length n))) = .ok w') :
    NetworkRead w answers w' := by
  split at result
  · exact absurd result (by simp)
  · rename_i n returned
    dsimp only at result
    split at result
    · rename_i full
      obtain rfl := Except.ok.inj result
      -- The result of `full_write` is the length, so everything has been written.
      have total := (fullWrite_complete_iff returned).2.1.mp full
      rw [total, List.take_length]
      exact .passed taken whole source
    · rename_i short
      obtain rfl := Except.ok.inj result
      exact .torn taken whole source _ _ ((fullWrite_complete_iff returned).2.2 short).1

theorem readNetwork_cases {answers : List WriteAnswer} {w' : World}
    (result : w.readNetwork answers = .ok w') : NetworkRead w answers w' := by
  unfold World.readNetwork at result
  rcases receiveData_cases World.readSize w.clear w.hangup w.socket.pending with
    ⟨some, received⟩ | ⟨empty, taken, atMost, reply, explains, received⟩
  · rw [received] at result
    exact networkRead_of_source ⟨some, Or.inl ⟨rfl, rfl⟩⟩ result
  · rw [received] at result
    cases reply with
    | waits =>
      obtain ⟨quiet, all, isOpen⟩ := explains
      dsimp only at result
      split at result
      · exact absurd result (by simp)
      · rename_i more
        obtain rfl := Except.ok.inj result
        refine .waits taken ?_ empty quiet all isOpen
        rintro none
        rw [none] at atMost
        exact more (Nat.le_zero.mp atMost)
    | clear whole =>
      obtain ⟨some, quiet, isQuiet, same⟩ := explains
      exact networkRead_of_source ⟨some, Or.inr ⟨empty, quiet, isQuiet, same⟩⟩ result
    | finished =>
      obtain rfl := Except.ok.inj result
      exact .finished taken empty explains
    | failed =>
      obtain rfl := Except.ok.inj result
      exact .failed taken empty explains

theorem closed_of_hangup (gone : w.hangup.isSome) : w.socket.closed = true := by
  unfold World.hangup at gone
  split at gone
  · assumption
  · exact absurd gone (by simp)

/-- While the connection is open, what is read next comes after what was handed on. -/
theorem Faithful.expected_take (faithful : Faithful fd w)
    (goesOn : ∀ record ∈ w.socket.read, record.ends = false) (taken : ℕ) :
    expected (w.socket.take taken).read =
      w.output ++ w.clear ++ expected (w.socket.pending.take taken) := by
  rw [Pipe.read_take, expected_append goesOn, ← expected_of_forall goesOn, faithful.output]

/-- The bytes of a read come next. -/
theorem Faithful.expected_source (faithful : Faithful fd w)
    (goesOn : ∀ record ∈ w.socket.read, record.ends = false) {taken : ℕ} {whole : Bytes}
    (source : Source w taken whole) :
    expected (w.socket.take taken).read = w.output ++ whole ∧
      ∀ record ∈ (w.socket.take taken).read, record.ends = false := by
  obtain ⟨-, ⟨rfl, rfl⟩ | ⟨empty, quiet, isQuiet, same⟩⟩ := source
  · rw [Pipe.take_zero, faithful.output]
    exact ⟨rfl, goesOn⟩
  · refine ⟨?_, ?_⟩
    · rw [faithful.expected_take goesOn, empty, same, isQuiet.expected_append]
      simp [expected, Record.ends, Record.payload]
    · intro record member
      rw [Pipe.read_take, same, List.mem_append, List.mem_append, List.mem_singleton] at member
      rcases member with before | inside | rfl
      · exact goesOn record before
      · exact isQuiet.goesOn record inside
      · rfl

theorem Faithful.readNetwork (faithful : Faithful fd w) (place : w.place = .network)
    {answers : List WriteAnswer} {w' : World} (result : w.readNetwork answers = .ok w') :
    Faithful fd w' ∨ Failed w' := by
  have networkFd := faithful.inPlace
  rw [InPlace, place] at networkFd
  obtain ⟨outputOpen, goesOn⟩ :
      w.outputClosed = false ∧ ∀ record ∈ w.socket.read, record.ends = false := by
    cases faithful.networkSide with
    | isOpen fd output goesOn => exact ⟨output, goesOn⟩
    | ended fd => omega
  have inputSide {w' : World} (fdSame : w'.stdinFd = w.stdinFd) (inputSame : w'.input = w.input) :
      InputSide w' := by
    cases faithful.inputSide with
    | isOpen fd => exact .isOpen (fdSame.trans fd)
    | ended fd closed empty =>
      exact .ended (fdSame.trans fd) (inputSame ▸ closed) (inputSame ▸ empty)
  have sent : w.sent <+: w.input.read := faithful.sent ▸ List.prefix_rfl
  have stillOpen {p : Prop} (closed : w.outputClosed = true) : p :=
    absurd (closed.symm.trans outputOpen) (by simp)
  cases readNetwork_cases result with
  | waits taken more empty quiet all isOpen =>
    left
    refine ⟨faithful.sent, ?_, inputSide rfl rfl, .isOpen networkFd outputOpen ?_, ?_⟩
    · rw [faithful.expected_take goesOn, quiet.expected_eq, List.append_nil]
    · intro record member
      rw [Pipe.read_take] at member
      rcases List.mem_append.mp member with before | inside
      · exact goesOn record before
      · exact quiet.goesOn record inside
    · rw [InPlace, place]
      exact networkFd
  | failed taken empty explains =>
    right
    refine Failed.die _ sent ?_ stillOpen
    rw [faithful.expected_take goesOn, List.append_assoc]
    exact List.prefix_append _ _
  | finished taken empty explains =>
    left
    have nothing : expected (w.socket.pending.take taken) = [] := by
      rcases explains with ⟨quiet, isQuiet, same⟩ | ⟨quiet, -, -⟩
      · rw [same, isQuiet.expected_append]
        rfl
      · exact quiet.expected_eq
    refine ⟨faithful.sent, ?_, inputSide rfl rfl, .ended rfl rfl empty ?_, trivial⟩
    · rw [faithful.expected_take goesOn, nothing, List.append_nil]
    · rcases explains with ⟨quiet, -, same⟩ | ⟨-, all, gone⟩
      · refine Or.inl ⟨.closeNotify, ?_, rfl⟩
        simp [same]
      · exact Or.inr ⟨closed_of_hangup gone, by simpa using List.take_eq_self_iff _ |>.mp all⟩
  | passed taken whole source =>
    left
    obtain ⟨next, goesOn'⟩ := faithful.expected_source goesOn source
    refine ⟨faithful.sent, ?_, inputSide rfl rfl, .isOpen networkFd outputOpen goesOn', trivial⟩
    rw [next, List.append_assoc, List.take_append_drop]
  | torn taken whole source total message failing =>
    right
    obtain ⟨next, -⟩ := faithful.expected_source goesOn source
    refine Failed.die _ sent ?_ stillOpen
    rw [next]
    exact (List.prefix_append_right_inj _).mpr
      ((List.take_prefix _ _).trans (List.take_prefix _ _))

/-! ## Runs -/

theorem Outside.of_fed (w : World) {input : Pipe UInt8} {socket : Pipe Record} (torn : Bool)
    (how : Hangup) (bytes : Pipe.Fed w.input input) (records : Pipe.Fed w.socket socket) :
    Outside w { w with input := input, socket := socket, torn := torn, how := how } :=
  ⟨rfl, rfl, rfl, rfl, rfl, rfl, rfl, bytes, records⟩

/-- An action is one of the helper, or does not move it. -/
theorem step_cases {action : Action} {w' : World} (result : w.step action = .ok w') :
    (action.isHelper = false ∧ Outside w w') ∨
      (action = .waitForInput ∧ w.place = .poll ∧ w.waitForInput = .ok w') ∨
      (∃ network answer returned, action = .readStdin answer returned ∧
        w.place = .stdin network ∧ w' = w.readStdin network answer returned) ∨
      ∃ answers, action = .readNetwork answers ∧ w.place = .network ∧
        w.readNetwork answers = .ok w' := by
  cases action with
  | supply bytes =>
    obtain rfl := Except.ok.inj result
    exact Or.inl ⟨rfl, Outside.of_fed w _ _ (Pipe.Fed.put _ _) (Pipe.Fed.refl _)⟩
  | endInput =>
    obtain rfl := Except.ok.inj result
    exact Or.inl ⟨rfl, Outside.of_fed w _ _ (Pipe.Fed.close _) (Pipe.Fed.refl _)⟩
  | arrive record =>
    obtain rfl := Except.ok.inj result
    exact Or.inl ⟨rfl, Outside.of_fed w _ _ (Pipe.Fed.refl _) (Pipe.Fed.put _ _)⟩
  | fragment =>
    obtain rfl := Except.ok.inj result
    exact Or.inl ⟨rfl, Outside.of_fed w _ _ (Pipe.Fed.refl _) (Pipe.Fed.refl _)⟩
  | hangUp how =>
    obtain rfl := Except.ok.inj result
    exact Or.inl ⟨rfl, Outside.of_fed w _ _ (Pipe.Fed.refl _) (Pipe.Fed.close _)⟩
  | waitForInput =>
    rw [World.step] at result
    split at result
    · exact Or.inr (Or.inl ⟨rfl, by assumption, result⟩)
    · exact absurd result (by simp)
  | readStdin answer returned =>
    rw [World.step] at result
    split at result
    · rename_i network place
      exact Or.inr (Or.inr (Or.inl ⟨network, answer, returned, rfl, place,
        (Except.ok.inj result).symm⟩))
    · exact absurd result (by simp)
  | readNetwork answers =>
    rw [World.step] at result
    split at result
    · exact Or.inr (Or.inr (Or.inr ⟨answers, rfl, by assumption, result⟩))
    · exact absurd result (by simp)

theorem outside_of_not_helper {action : Action} {w' : World} (others : action.isHelper = false)
    (result : w.step action = .ok w') : Outside w w' := by
  rcases step_cases result with
    ⟨-, outside⟩ | ⟨rfl, -⟩ | ⟨network, answer, returned, rfl, -⟩ | ⟨answers, rfl, -⟩
  · exact outside
  · exact absurd others (by simp [Action.isHelper])
  · exact absurd others (by simp [Action.isHelper])
  · exact absurd others (by simp [Action.isHelper])

/-- After a failure the helper does not act any more. -/
theorem Failed.not_helper (failed : Failed w) {action : Action} {w' : World}
    (result : w.step action = .ok w') : action.isHelper = false := by
  obtain ⟨message, exited⟩ := failed.exited
  rcases step_cases result with
    ⟨others, -⟩ | ⟨-, place, -⟩ | ⟨network, answer, returned, -, place, -⟩ | ⟨answers, -, place, -⟩
  · exact others
  · exact absurd (exited.symm.trans place) (by simp)
  · exact absurd (exited.symm.trans place) (by simp)
  · exact absurd (exited.symm.trans place) (by simp)

/-- Every action keeps what has been handed on. -/
theorem step_delivers (guard : 3 ≤ fd) {action : Action} {w' : World}
    (holds : Faithful fd w ∨ Failed w) (result : w.step action = .ok w') :
    Faithful fd w' ∨ Failed w' := by
  rcases holds with faithful | failed
  · rcases step_cases result with
      ⟨-, outside⟩ | ⟨-, -, result⟩ | ⟨network, answer, returned, -, place, rfl⟩ |
      ⟨answers, -, place, result⟩
    · exact Or.inl (faithful.outside outside)
    · exact Or.inl (faithful.waitForInput guard result)
    · exact faithful.readStdin place answer returned
    · exact faithful.readNetwork place result
  · exact Or.inr (failed.outside (outside_of_not_helper (failed.not_helper result) result))

theorem run_delivers (guard : 3 ≤ fd) {actions : List Action} {w : World}
    (ran : run actions (World.start fd) = .ok w) : Faithful fd w ∨ Failed w :=
  readAll_invariant (fun w => Faithful fd w ∨ Failed w)
    (fun _ _ _ _ holds result => step_delivers guard holds result)
    (Or.inl (Faithful.start fd)) ran

theorem main_delivers {arguments : List Str} {actions : List Action} {w : World}
    (ran : main arguments actions = some (.ok w)) : ∃ fd, Faithful fd w ∨ Failed w := by
  obtain ⟨fd, named, ran⟩ := Option.map_eq_some_iff.mp ran
  exact ⟨fd, run_delivers (three_le_of_descriptor named) ran⟩

/-! ## A request and its answer -/

/-- The arguments `-d 7`. -/
def exchangeArguments : List Str := ["-d".toList, "7".toList]

/-- The text `GET`, and the answer `OK` before the connection is closed. -/
def exchange : List Action :=
  [.supply [71, 69, 84], .waitForInput, .readStdin (.got 3) 3, .arrive (.data [79, 75]),
    .waitForInput, .readNetwork [.interrupted, .wrote 1, .wrote 1], .endInput,
    .arrive .closeNotify, .waitForInput, .readStdin (.got 1) 0, .readNetwork [], .hangUp .closed,
    .waitForInput]

/-- The end of that run. -/
def exchanged : World where
  place := .exited 0 []
  stdinFd := -1
  networkFd := -1
  input := ⟨[71, 69, 84], 3, true, by decide⟩
  socket := ⟨[.data [79, 75], .closeNotify], 2, true, by decide⟩
  torn := false
  how := .closed
  clear := []
  sent := [71, 69, 84]
  output := [79, 75]
  outputClosed := true

theorem exchange_ran : main exchangeArguments exchange = some (.ok exchanged) := by
  decide +kernel

/-! ## What a run hands on -/

theorem Faithful.closes (faithful : Faithful fd w) (closed : w.outputClosed = true) :
    Over w ∧ w.output = expected w.socket.written := by
  obtain ⟨isOver, all⟩ := faithful.outputClosed closed
  exact ⟨isOver, all.trans isOver.expected_eq⟩

/-- An end without a failure comes after everything has been handed on. -/
theorem Faithful.exited (faithful : Faithful fd w) {status : ℕ} {message : Str}
    (exited : w.place = .exited status message) :
    status = 0 ∧ message = [] ∧ w.input.closed = true ∧ w.sent = w.input.written ∧
      Over w ∧ w.outputClosed = true ∧ w.output = expected w.socket.written := by
  have inPlace := faithful.inPlace
  rw [InPlace, exited] at inPlace
  obtain ⟨rfl, rfl, stdinFd, networkFd⟩ := inPlace
  obtain ⟨inputClosed, empty⟩ : w.input.closed = true ∧ w.input.pending = [] := by
    cases faithful.inputSide with
    | isOpen fd => omega
    | ended _ closed empty => exact ⟨closed, empty⟩
  have outputClosed : w.outputClosed = true := by
    cases faithful.networkSide with
    | isOpen fd => omega
    | ended _ output => exact output
  obtain ⟨isOver, all⟩ := faithful.closes outputClosed
  exact ⟨rfl, rfl, inputClosed, faithful.sent.trans (Pipe.read_of_pending_nil empty), isOver,
    outputClosed, all⟩

/-- For all arguments and every order of the actions: the standard output is closed only
when everything that the peer has to send was written to it. The helper ends with status
zero only when both sides have ended and everything was handed on; otherwise it ends
with status one and a message. -/
theorem ends_complete {arguments : List Str} {actions : List Action} {w : World}
    (ran : main arguments actions = some (.ok w)) :
    (w.outputClosed = true → Over w ∧ w.output = expected w.socket.written) ∧
      ∀ status message, w.place = .exited status message →
        status = 1 ∨
          status = 0 ∧ message = [] ∧ w.input.closed = true ∧ w.sent = w.input.written ∧
            Over w ∧ w.outputClosed = true ∧ w.output = expected w.socket.written := by
  obtain ⟨fd, faithful | failed⟩ := main_delivers ran
  · exact ⟨faithful.closes, fun status message exited => Or.inr (faithful.exited exited)⟩
  · refine ⟨?_, ?_⟩
    · intro closed
      obtain ⟨isOver, all⟩ := failed.outputClosed closed
      exact ⟨isOver, all.trans isOver.expected_eq⟩
    · intro status message exited
      obtain ⟨other, failed⟩ := failed.exited
      rw [failed, Place.exited.injEq] at exited
      exact Or.inl exited.1.symm

theorem ends_complete_exchange :
    exchanged.sent = exchanged.input.written ∧
      exchanged.output = expected exchanged.socket.written := by
  obtain ⟨-, ended⟩ := ends_complete exchange_ran
  rcases ended 0 [] rfl with failed | ⟨-, -, -, sent, -, -, output⟩
  · exact absurd failed (by decide)
  · exact ⟨sent, output⟩

end BbBot.SslHelper
