import XRNetwork.Link

/-!
# A room of chat clients

The server with all sessions taken by chat clients, each on a connection of its own as in `Link`. A
session reads nothing but what its client has written. Connections may still be lost, callers from
outside may do what they can, and everything happens in any order.
-/

namespace XRNetwork

/-- A chat client, what is on the wires between it and its session, and what it has processed and
written. -/
structure ChatEnd where
  client : ChatClient
  down : List XRMessage
  up : List XRMessage
  processed : List XRMessage
  written : List XRMessage

structure ChatNet where
  server : Server
  /-- The client each session is made for. -/
  ends : ℕ → ChatEnd

inductive ChatNetEvent
  /-- What happens to the server, but for reads. -/
  | server (e : Event)
  /-- What happens on the connection of the session. -/
  | link (s : ℕ) (e : LinkEvent)

namespace ChatNet

/-- One client and its session. -/
def link (s : ℕ) (n : ChatNet) : Link where
  server := n.server
  client := (n.ends s).client
  down := (n.ends s).down
  up := (n.ends s).up
  processed := (n.ends s).processed
  written := (n.ends s).written

def putLink (s : ℕ) (n : ChatNet) (l : Link) : ChatNet where
  server := l.server
  ends := Function.update n.ends s ⟨l.client, l.down, l.up, l.processed, l.written⟩

def step (E : Env) (n : ChatNet) : ChatNetEvent → Option (Outcome Fault ChatNet)
  | .server e =>
    if e.reader = none then
      (n.server.step E e).map fun o => o.map fun server => { n with server }
    else none
  | .link _ (.server _) => none
  | .link s e => ((n.link s).step E s e).map fun o => o.map (n.putLink s)

/-- Nobody has connected yet, and the clients' members hold what they happen to. -/
def init (clients : ℕ → UInt64 × UInt64) : ChatNet where
  server := .init
  ends := fun s => ⟨⟨(clients s).1, (clients s).2, false⟩, [], [], [], []⟩

end ChatNet

def chatNetMachine (E : Env) (clients : ℕ → UInt64 × UInt64) :
    Machine Fault ChatNet ChatNetEvent := ⟨.init clients, ChatNet.step E⟩

end XRNetwork
