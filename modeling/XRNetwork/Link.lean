import XRNetwork.Proofs.Told
import XRNetwork.ChatClient

/-!
# A chat client and its session

The server, one `chat_client` and the connection between the client and its session. Both directions
are assumed to carry whole messages, in the order in which they were written: so it is with the
client's writes, and with the session's as long as it has one writer. What is handed to the session
goes on the wire when its write has been started, while the socket is open and until a write fails.
All that other sessions and callers from outside can do to the server is still possible, and so is
everything that can happen to the session, but that its reads are filled by what the client has
written.
-/

namespace XRNetwork

/-- The session that is read from. -/
def Event.reader : Event → Option ℕ
  | .read s _ _ _ => some s
  | _ => none

/-- The write with this number has been started and may go out: the socket is open and no write has
failed. -/
def WriteSide.sends (w : WriteSide) (n : ℕ) : Bool :=
  w.isOpen && !w.lost && decide (n < w.started.length)

structure Link where
  server : Server
  client : ChatClient
  /-- On the wire from the session to the client. -/
  down : List XRMessage
  /-- On the wire from the client to the session. -/
  up : List XRMessage
  /-- All messages the client has processed, and all it has written. -/
  processed : List XRMessage
  written : List XRMessage

inductive LinkEvent
  /-- Anything that happens to the server, but for reads from the session. -/
  | server (e : Event)
  /-- The session's `i`-th read is filled by the next message on the wire. -/
  | deliver (i : ℕ) (c : Choice)
  /-- The write of the next message handed to the session has put it on the wire. -/
  | transmit
  /-- The client's read completes. -/
  | receive (timestamp : UInt64)
  /-- The client's timer expires, with what the stack holds behind the update. -/
  | timer (timestamp : UInt64) (stack : Buffer 12)

namespace Link

def write (ms : List XRMessage) (l : Link) : Link :=
  { l with up := l.up ++ ms, written := l.written ++ ms }

/-- The messages handed to the session that have gone out on its socket. -/
def transmitted (l : Link) : List XRMessage := l.processed ++ l.down

def step (E : Env) (s : ℕ) (l : Link) : LinkEvent → Option (Outcome Fault Link)
  | .server e =>
    if e.reader = some s then none
    else (l.server.step E e).map fun o => o.map fun w => { l with server := w }
  | .deliver i c =>
    match l.up with
    | [] => none
    | m :: up =>
      (l.server.step E (.read s i m.frame c)).map fun o => o.map fun w => { l with server := w, up }
  | .transmit =>
    match (l.server.told s)[l.transmitted.length]? with
    | none => none
    | some m =>
      if (l.server.sides s).sends l.transmitted.length then
        some (.ok { l with down := l.down ++ [m] })
      else none
  | .receive timestamp =>
    match l.down with
    | [] => none
    | m :: down =>
      let (client, answer) := l.client.onMessage timestamp m
      some (.ok ({ l with client, down, processed := l.processed ++ [m] }.write answer.toList))
  | .timer timestamp stack =>
    if l.client.updating then some (.ok (l.write [l.client.onTimer timestamp stack])) else none

/-- Nobody has connected yet, and the client's members hold what they happen to. -/
def init (participantId serviceId : UInt64) : Link where
  server := .init
  client := ⟨participantId, serviceId, false⟩
  down := []
  up := []
  processed := []
  written := []

end Link

/-- The client is the one the session `s` is made for. -/
def linkMachine (E : Env) (s : ℕ) (participantId serviceId : UInt64) :
    Machine Fault Link LinkEvent := ⟨.init participantId serviceId, Link.step E s⟩

end XRNetwork
