import XRNetwork.Protocol
import XRNetwork.Lib.Machine

/-!
# The write side of a session

`deliver_byte` posts a handler that pushes the buffer on `deque_write_buffer_` and calls
`do_write_byte` if the deque was empty before; `do_write_byte` pops the front and starts an
`async_write` of it. An `async_write` is a row of `write_some` steps, so two outstanding ones on a
socket put their bytes on the wire in any interleaving. It fails when the socket is closed or the
connection lost, and then the stream is over: nothing more goes out on it.
-/

namespace XRNetwork

/-- How a handler can end other than by returning. An exception leaves `io_context::run`; the
others are undefined behaviour. -/
inductive Fault
  | exception
  | nullDereference
  | outOfBounds
  | frontOfEmpty
deriving DecidableEq, Repr

/-- An `async_write` that has not completed: its buffer, how much of it is on the wire, and
whether the socket was open when it was started. -/
structure Write where
  buffer : Bytes
  sent : ℕ
  onOpen : Bool

structure WriteSide where
  isOpen : Bool
  /-- A write has failed. -/
  lost : Bool
  /-- Buffers of the handlers `deliver_byte` has posted and that have not run. -/
  posted : List Bytes
  /-- `deque_write_buffer_`. -/
  deque : List Bytes
  writes : List Write
  wire : Bytes
  /-- All buffers given to `deliver_byte`, and all given to `async_write`, so far. -/
  delivered : List Bytes
  started : List Bytes

namespace WriteSide

/-- A fresh session on an accepted socket. -/
def fresh : WriteSide := ⟨true, false, [], [], [], [], [], []⟩

variable (w : WriteSide)

def deliverByte (buffer : Bytes) : WriteSide :=
  { w with posted := w.posted ++ [buffer], delivered := w.delivered ++ [buffer] }

/-- `do_close`, as far as the socket goes. -/
def close : WriteSide := { w with isOpen := false }

def doWriteByte : Outcome Fault WriteSide :=
  match w.deque with
  | [] => .fault .frontOfEmpty w
  | btp :: rest =>
    .ok { w with
      deque := rest
      writes := w.writes ++ [⟨btp, 0, w.isOpen⟩]
      started := w.started ++ [btp] }

/-- The handler `deliver_byte` posted runs. -/
def runPosted : Option (Outcome Fault WriteSide) :=
  match w.posted with
  | [] => none
  | bufferPtr :: rest =>
    let writeByteInProgress := !w.deque.isEmpty
    let w' := { w with posted := rest, deque := w.deque ++ [bufferPtr] }
    some (if writeByteInProgress then .ok w' else w'.doWriteByte)

/-- The `i`-th outstanding write puts its next `k` bytes on the wire. -/
def writeSome (i k : ℕ) : Option WriteSide :=
  match w.writes[i]? with
  | none => none
  | some x =>
    if w.isOpen && x.onOpen && !w.lost && decide (x.sent + k ≤ x.buffer.length) then
      some { w with
        writes := w.writes.set i { x with sent := x.sent + k }
        wire := w.wire ++ (x.buffer.drop x.sent).take k }
    else none

/-- The `i`-th outstanding write completes without error. -/
def writeDone (i : ℕ) : Option (Outcome Fault WriteSide) :=
  match w.writes[i]? with
  | none => none
  | some x =>
    if x.onOpen && decide (x.sent = x.buffer.length) then
      let w' := { w with writes := w.writes.eraseIdx i }
      let queueIsEmpty := w'.deque.isEmpty
      some (if queueIsEmpty then .ok w' else w'.doWriteByte)
    else none

/-- The `i`-th outstanding write completes with an error. -/
def writeFailed (i : ℕ) : Option WriteSide :=
  match w.writes[i]? with
  | none => none
  | some _ => some { w with writes := w.writes.eraseIdx i, lost := true }

end WriteSide

/-- What can happen to the write side of a session: calls of `deliver_byte`, handlers, and the
socket being closed by some other handler. -/
inductive WriteEvent
  | deliverByte (buffer : Bytes)
  | posted
  | writeSome (i k : ℕ)
  | writeDone (i : ℕ)
  | writeFailed (i : ℕ)
  | close

def WriteSide.step (w : WriteSide) : WriteEvent → Option (Outcome Fault WriteSide)
  | .deliverByte buffer => some (.ok (w.deliverByte buffer))
  | .posted => w.runPosted
  | .writeSome i k => (w.writeSome i k).map .ok
  | .writeDone i => w.writeDone i
  | .writeFailed i => (w.writeFailed i).map .ok
  | .close => some (.ok w.close)

def writeMachine : Machine Fault WriteSide WriteEvent := ⟨WriteSide.fresh, WriteSide.step⟩

end XRNetwork
