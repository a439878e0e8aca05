/-
# The helper between two pipes and a connection

`do_io_until_eof_and_exit` waits until one of its two descriptors can be read and
serves those that can. The user puts bytes into the standard input, the peer sends
records, and either of them may stop; all of this goes on at any time between the
calls of the helper. A run is any order of these actions.

The user's bytes and the peer's records are kept in pipes with their history, so that
what has come out of the helper can be compared with all that was ever put in.
-/

import BbBot.Unix.Pipes
import BbBot.Unix.Reading
import BbBot.SslHelper.Relay

namespace BbBot.SslHelper

open BbBot.Unix

/-! ## The state -/

/-- Where the helper is in its loop. -/
inductive Place
  | poll
  /-- At the read from the standard input, and whether `NETWORK_READY()` holds. -/
  | stdin (network : Bool)
  | network
  | exited (status : ℕ) (message : Str)
  deriving DecidableEq

/-- The helper, and what lies in front of it and behind it. -/
structure World where
  place : Place
  /-- `pfd[0].fd` and `pfd[1].fd` -/
  stdinFd : ℤ
  networkFd : ℤ
  input : Pipe UInt8
  socket : Pipe Record
  /-- The first part of another record is in the socket. -/
  torn : Bool
  /-- How the socket was closed, when it was. -/
  how : Hangup
  /-- `clearOutputBuffer` -/
  clear : Bytes
  /-- What the connection took for the peer. -/
  sent : Bytes
  output : Bytes
  outputClosed : Bool
  deriving DecidableEq

/-- The start of the loop, on a connected descriptor. -/
def World.start (fd : ℕ) : World where
  place := .poll
  stdinFd := 0
  networkFd := fd
  input := Pipe.new
  socket := Pipe.new
  torn := false
  how := .closed
  clear := []
  sent := []
  output := []
  outputClosed := false

/-- What the kernel answers to `read(STDIN_FILENO, ...)`. -/
inductive ReadAnswer
  | got (count : ℕ)
  | failed
  deriving DecidableEq

/-- What can happen next. -/
inductive Action
  | supply (bytes : Bytes)
  | endInput
  | arrive (record : Record)
  | fragment
  | hangUp (how : Hangup)
  | waitForInput
  /-- With what `wolfSSL_write` returns. -/
  | readStdin (answer : ReadAnswer) (returned : ℤ)
  | readNetwork (answers : List WriteAnswer)
  deriving DecidableEq

/-- Is it an action of the helper? -/
def Action.isHelper : Action → Bool
  | .waitForInput | .readStdin _ _ | .readNetwork _ => true
  | _ => false

/-! ## The messages -/

def showInt (n : ℤ) : Str := if n < 0 then '-' :: decimal n.natAbs else decimal n.natAbs

def readErrorText : Str := "read error on stdin\n".toList

def sslWriteText (len n : ℤ) : Str :=
  "SSL_write(".toList ++ showInt len ++ ") failed (returned ".toList ++ showInt n ++ ")\n".toList

def sslReadText (len : ℤ) : Str :=
  "SSL_read error on network (".toList ++ showInt len ++ ")\n".toList

def stdoutText (len n : ℤ) : Str :=
  "write(".toList ++ showInt len ++ ") to stdout returned ".toList ++ showInt n ++ "\n".toList

/-! ## The steps -/

namespace World

variable (w : World)

/-- `die` -/
def die (message : Str) : World := { w with place := .exited 1 message }

/-- `STDIN_READY()` and `NETWORK_READY()` after `poll`, which leaves out a negative
descriptor. -/
def stdinReady : Bool := decide (0 ≤ w.stdinFd) && w.input.isReadable

def networkReady : Bool := decide (0 ≤ w.networkFd) && (w.socket.isReadable || w.torn)

/-- `wait_for_input`, which is not over while nothing is ready. -/
def waitForInput : Except Unit World :=
  -- means both are -1
  if w.stdinFd = w.networkFd then .ok { w with place := .exited 0 [] }
  else if w.stdinReady then .ok { w with place := .stdin w.networkReady }
  else if w.networkReady then .ok { w with place := .network }
  else .error ()

/-- The size of `ibuf`, and of a read from the network. -/
def bufferSize : ℕ := 4096

def readSize : ℕ := 1024

/-- The bytes of a read from the standard input. The kernel returns at least one byte
and at most what fits. -/
def chunk (count : ℕ) : Bytes := w.input.pending.take (min (max count 1) bufferSize)

/-- The part of the loop for a standard input that can be read. -/
def readStdin (network : Bool) (answer : ReadAnswer) (returned : ℤ) : World :=
  let next := if network then .network else .poll
  match answer with
  | .failed => w.die readErrorText
  | .got count =>
    if w.input.pending = [] then
      -- stdin not polled anymore
      { w with stdinFd := -1, place := next }
    else
      let data := w.chunk count
      let w := { w with input := w.input.take (min (max count 1) bufferSize) }
      if returned = data.length then { w with sent := w.sent ++ data, place := next }
      else w.die (sslWriteText data.length returned)

/-- How the socket was closed. -/
def hangup : Option Hangup := if w.socket.closed then some w.how else none

/-- The part of the loop for a connection that can be read. It is not over while the
connection waits for the rest of a record, or the kernel does not write. -/
def readNetwork (answers : List WriteAnswer) : Except Unit World :=
  let (taken, received) := receiveData readSize w.clear w.hangup w.socket.pending
  let w := { w with socket := w.socket.take taken }
  match received with
  | .waits => if taken = 0 then .error () else .ok w
  | .failed => .ok (w.die (sslReadText (-1)))
  | .finished => .ok { w with networkFd := -1, outputClosed := true, place := .poll }
  | .read data clear =>
    let written := fullWrite data.length 0 answers
    match written.returned with
    | none => .error ()
    | some n =>
      let w := { w with clear := clear, output := w.output ++ data.take written.total }
      if n = data.length then .ok { w with place := .poll }
      else .ok (w.die (stdoutText data.length n))

/-- What an action makes of the world, when it can happen. -/
def step (w : World) : Action → Except Unit World
  | .supply bytes => .ok { w with input := w.input.put bytes }
  | .endInput => .ok { w with input := w.input.close }
  | .arrive record => .ok { w with socket := w.socket.put [record], torn := false }
  | .fragment => .ok { w with torn := true }
  | .hangUp how =>
    .ok { w with socket := w.socket.close, how := if w.socket.closed then w.how else how }
  | .waitForInput => if w.place = .poll then w.waitForInput else .error ()
  | .readStdin answer returned =>
    match w.place with
    | .stdin network => .ok (w.readStdin network answer returned)
    | _ => .error ()
  | .readNetwork answers => if w.place = .network then w.readNetwork answers else .error ()

end World

/-- A run of the loop: any actions that can happen, in their order. -/
def run : List Action → World → Except Unit World := readAll World.step

/-- The program: its arguments name the descriptor, and the loop is run on it. -/
def main (arguments : List Str) (actions : List Action) : Option (Except Unit World) :=
  (descriptor arguments).map fun fd => run actions (World.start fd)

end BbBot.SslHelper
