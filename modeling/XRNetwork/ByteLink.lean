import XRNetwork.Link
import XRNetwork.ChatLoop

/-!
# A chat client and its session over bytes

The same two parties as in `Link`, with the bytes between them: the client at work, with its reads and
its write queue, and the session with its write side. What either side has put on the wire the other
reads in order, each `async_read` when all of the 65536 bytes it asks for are there.
-/

namespace XRNetwork

/-- What the `n`-th read of a stream is filled with, the ones before it having taken theirs. -/
def streamBlock (n : ℕ) (wire : Bytes) : Option (Buffer 65536) :=
  let bytes := (wire.drop (65536 * n)).take 65536
  if h : bytes.length = 65536 then some ⟨bytes, h⟩ else none

def ChatEvent.isRead : ChatEvent → Bool
  | read .. => true
  | _ => false

structure ByteLink where
  server : Server
  loop : ChatLoop
  /-- How many reads of the client, and how many of the session, have been filled. -/
  down : ℕ
  up : ℕ

inductive ByteLinkEvent
  /-- Anything that happens to the server, but for reads from the session. -/
  | server (e : Event)
  /-- Anything that happens to the client, but for reads. -/
  | client (e : ChatEvent)
  /-- The `i`-th read of the session is filled. -/
  | sessionReads (i : ℕ) (c : Choice)
  /-- The `i`-th read of the client is filled. -/
  | clientReads (i : ℕ) (timestamp : UInt64)

namespace ByteLink

def step (E : Env) (s : ℕ) (l : ByteLink) : ByteLinkEvent → Option (Outcome Fault ByteLink)
  | .server e =>
    if e.reader = some s then none
    else (l.server.step E e).map fun o => o.map fun server => { l with server }
  | .client e =>
    if e.isRead then none else (l.loop.step e).map fun o => o.map fun loop => { l with loop }
  | .sessionReads i c =>
    match streamBlock l.up l.loop.queue.wire with
    | none => none
    | some readBuffer =>
      (l.server.step E (.read s i readBuffer c)).map fun o =>
        o.map fun server => { l with server, up := l.up + 1 }
  | .clientReads i timestamp =>
    match streamBlock l.down (l.server.sides s).wire with
    | none => none
    | some readBuffer =>
      (l.loop.step (.read i readBuffer timestamp)).map fun o =>
        o.map fun loop => { l with loop, down := l.down + 1 }

def init (participantId serviceId : UInt64) : ByteLink where
  server := .init
  loop := .init participantId serviceId
  down := 0
  up := 0

end ByteLink

/-- The client is the one the session `s` is made for. -/
def byteLinkMachine (E : Env) (s : ℕ) (participantId serviceId : UInt64) :
    Machine Fault ByteLink ByteLinkEvent := ⟨.init participantId serviceId, ByteLink.step E s⟩

end XRNetwork
