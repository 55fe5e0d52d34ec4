import XRNetwork.ChatClient
import XRNetwork.ClientQueue
import XRNetwork.Server

/-!
# The chat client at work

`chat_client` with what its handlers share: the connection, the reads, the update timer and the write
queue. Its handlers run one at a time on the one thread of its `io_context`; `close` is also called
from outside.

`expires_after` cancels the wait that is pending, not one whose timer has expired already: the
handler of that one is still to run, and without error.

What the handlers print of a message is in `Prints` (`ChatClient.prints`), and what they read behind
the struct of an update is the `stack` of the event; the steps go on after either.
-/

namespace XRNetwork

/-- An `async_wait` on the timer whose handler has not run. -/
inductive Wait
  | pending
  | expired
  /-- The handler is given `operation_aborted`. -/
  | aborted
deriving DecidableEq, Repr

/-- The handler will run without error, sooner or later. -/
def Wait.live : Wait → Bool
  | aborted => false
  | _ => true

def Wait.cancel : Wait → Wait
  | pending => aborted
  | w => w

def Wait.expire : Wait → Wait
  | pending => expired
  | w => w

structure ChatLoop where
  client : ChatClient
  queue : ClientQueue
  /-- `async_connect` has not completed. -/
  connecting : Bool
  /-- The reads that have not completed, and whether the socket was open when each was started. -/
  reads : List Bool
  waits : List Wait
  /-- How many of the handlers `close` has posted have not run. -/
  closing : ℕ
  /-- The messages that have been read. -/
  received : List XRMessage

inductive ChatEvent
  | connected
  | connectFailed
  /-- The `i`-th read fills its buffer. -/
  | read (i : ℕ) (readBuffer : Buffer 65536) (timestamp : UInt64)
  | readFailed (i : ℕ)
  /-- The time of the pending wait has come. -/
  | expire
  /-- The handler of the `i`-th wait runs, with what the stack holds behind the update. -/
  | timer (i : ℕ) (timestamp : UInt64) (stack : Buffer 12)
  | timerAborted (i : ℕ)
  | posted
  | writeSome (i k : ℕ)
  | writeDone (i : ℕ)
  | writeFailed (i : ℕ)
  /-- The handler `close` has posted. -/
  | closePosted
  /-- The call of `close` from outside. -/
  | close

namespace ChatLoop

variable (c : ChatLoop)

def writeByte (m : XRMessage) : ChatLoop := { c with queue := c.queue.writeByte m }

def close : ChatLoop := { c with closing := c.closing + 1 }

def doReadByte : ChatLoop := { c with reads := c.reads ++ [c.queue.isOpen] }

def beginParticipantUpdate : ChatLoop := { c with waits := c.waits.map Wait.cancel ++ [.pending] }

/-- What is written in answer to a message. -/
def answer : Option XRMessage → ChatLoop
  | none => c
  | some m => c.writeByte m

/-- The completion handler of `do_read_byte`, without error, but for its prints. -/
def onRead (timestamp : UInt64) (m : XRMessage) : ChatLoop :=
  let x := c.client.onMessage timestamp m
  let c := { c with client := x.1, received := c.received ++ [m] }.answer x.2
  let c := if m.kind = some .participantJoin then c.beginParticipantUpdate else c
  c.doReadByte

/-- The handler of the timer, without error. -/
def onTimer (timestamp : UInt64) (stack : Buffer 12) : ChatLoop :=
  (c.writeByte (c.client.onTimer timestamp stack)).beginParticipantUpdate

/-- The end of a handler of the write queue. -/
def putQueue (o : Outcome Fault ClientQueue) : Outcome Fault ChatLoop :=
  o.map fun queue => { c with queue }

def step (c : ChatLoop) : ChatEvent → Option (Outcome Fault ChatLoop)
  | .connected => if c.connecting then some (.ok { c with connecting := false }.doReadByte) else none
  | .connectFailed => if c.connecting then some (.ok { c with connecting := false }.close) else none
  | .read i readBuffer timestamp =>
    if c.reads[i]? = some true then
      some (.ok ({ c with reads := c.reads.eraseIdx i }.onRead timestamp (receivedMessage readBuffer)))
    else none
  | .readFailed i =>
    if i < c.reads.length then some (.ok { c with reads := c.reads.eraseIdx i }.close) else none
  | .expire =>
    if .pending ∈ c.waits then
      some (.ok { c with waits := c.waits.map Wait.expire })
    else none
  | .timer i timestamp stack =>
    if c.waits[i]? = some .expired then
      some (.ok ({ c with waits := c.waits.eraseIdx i }.onTimer timestamp stack))
    else none
  | .timerAborted i =>
    if c.waits[i]? = some .aborted then some (.ok { c with waits := c.waits.eraseIdx i }) else none
  | .posted => (c.queue.step .posted).map c.putQueue
  | .writeSome i k => (c.queue.step (.writeSome i k)).map c.putQueue
  | .writeDone i => (c.queue.step (.writeDone i)).map c.putQueue
  | .writeFailed i => (c.queue.step (.writeFailed i)).map c.close.putQueue
  | .closePosted =>
    if 0 < c.closing then
      (c.queue.step .close).map { c with closing := c.closing - 1 }.putQueue
    else none
  | .close => some (.ok c.close)

/-- As the constructor leaves it; its members hold what they happen to. -/
def init (participantId serviceId : UInt64) : ChatLoop where
  client := ⟨participantId, serviceId, false⟩
  queue := .init
  connecting := true
  reads := []
  waits := []
  closing := 0
  received := []

/-- The `io_context` has no more work: `run` returns. -/
def Idle (c : ChatLoop) : Prop :=
  c.connecting = false ∧ c.reads = [] ∧ c.waits = [] ∧ c.closing = 0 ∧ c.queue.posted = []
    ∧ c.queue.writes = []

end ChatLoop

def chatMachine (participantId serviceId : UInt64) : Machine Fault ChatLoop ChatEvent :=
  ⟨.init participantId serviceId, ChatLoop.step⟩

end XRNetwork
