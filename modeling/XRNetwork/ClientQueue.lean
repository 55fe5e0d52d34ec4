import XRNetwork.Session
import XRNetwork.XRMessage

/-!
# The client's write queue

`write_byte` posts a handler that pushes the message on `deque_write_buffer_` and calls
`do_write_byte` if the deque was empty before. `do_write_byte` writes the front of the deque and
leaves it there; the completion handler pops it and goes on with the next, or closes the socket if
the write has failed. Messages are shared pointers, so each is told from any other of the same
contents.
-/

namespace XRNetwork

/-- An `XRMessage_ptr`: the message, and which one it is of those given to `write_byte`. -/
structure XRMessagePtr where
  number : ℕ
  message : XRMessage

/-- An `async_write` of the client that has not completed: the message that was at the front, how
many of its bytes are on the wire, and whether the socket was open when it was started. -/
structure ClientWrite where
  front : XRMessagePtr
  sent : ℕ
  onOpen : Bool

structure ClientQueue where
  isOpen : Bool
  /-- A write has failed. -/
  lost : Bool
  /-- Messages of the handlers `write_byte` has posted and that have not run. -/
  posted : List XRMessagePtr
  /-- `deque_write_buffer_`. -/
  deque : List XRMessagePtr
  writes : List ClientWrite
  wire : Bytes
  /-- All messages given to `write_byte`, and all given to `async_write`, so far. -/
  written : List XRMessagePtr
  started : List XRMessagePtr

namespace ClientQueue

def init : ClientQueue := ⟨true, false, [], [], [], [], [], []⟩

variable (q : ClientQueue)

def writeByte (message : XRMessage) : ClientQueue :=
  let msgPtr := ⟨q.written.length, message⟩
  { q with posted := q.posted ++ [msgPtr], written := q.written ++ [msgPtr] }

def doWriteByte : Outcome Fault ClientQueue :=
  match q.deque with
  | [] => .fault .frontOfEmpty q
  | front :: _ => .ok { q with
      writes := q.writes ++ [⟨front, 0, q.isOpen⟩]
      started := q.started ++ [front] }

/-- The handler `write_byte` posted runs. -/
def runPosted : Option (Outcome Fault ClientQueue) :=
  match q.posted with
  | [] => none
  | msgPtr :: rest =>
    let writeInProgress := !q.deque.isEmpty
    let q' := { q with posted := rest, deque := q.deque ++ [msgPtr] }
    some (if writeInProgress then .ok q' else q'.doWriteByte)

/-- The `i`-th outstanding write puts its next `k` bytes on the wire. -/
def writeSome (i k : ℕ) : Option ClientQueue :=
  match q.writes[i]? with
  | none => none
  | some x =>
    if q.isOpen && x.onOpen && !q.lost && decide (x.sent + k ≤ 65536) then
      some { q with
        writes := q.writes.set i { x with sent := x.sent + k }
        wire := q.wire ++ (x.front.message.data.drop x.sent).take k }
    else none

/-- The `i`-th outstanding write completes without error. -/
def writeDone (i : ℕ) : Option (Outcome Fault ClientQueue) :=
  match q.writes[i]? with
  | none => none
  | some x =>
    if x.onOpen && decide (x.sent = 65536) then
      let q := { q with writes := q.writes.eraseIdx i }
      some (match q.deque with
        | [] => .fault .frontOfEmpty q
        | _ :: rest =>
          let q := { q with deque := rest }
          if rest.isEmpty then .ok q else q.doWriteByte)
    else none

/-- The `i`-th outstanding write completes with an error. The call of `close` posts the closing of
the socket. -/
def writeFailed (i : ℕ) : Option ClientQueue :=
  match q.writes[i]? with
  | none => none
  | some _ => some { q with writes := q.writes.eraseIdx i, lost := true }

end ClientQueue

/-- What can happen to the queue: calls of `write_byte`, handlers, and the socket being closed. -/
inductive ClientEvent
  | writeByte (message : XRMessage)
  | posted
  | writeSome (i k : ℕ)
  | writeDone (i : ℕ)
  | writeFailed (i : ℕ)
  | close

def ClientQueue.step (q : ClientQueue) : ClientEvent → Option (Outcome Fault ClientQueue)
  | .writeByte message => some (.ok (q.writeByte message))
  | .posted => q.runPosted
  | .writeSome i k => (q.writeSome i k).map .ok
  | .writeDone i => q.writeDone i
  | .writeFailed i => (q.writeFailed i).map .ok
  | .close => some (.ok { q with isOpen := false })

def clientQueueMachine : Machine Fault ClientQueue ClientEvent :=
  ⟨ClientQueue.init, ClientQueue.step⟩

end XRNetwork
