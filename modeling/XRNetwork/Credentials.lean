import XRNetwork.Server

/-!
# The credentials a server is given

`nr_server` keeps a login and a password, which `set_credentials` sets and `verify_credentials`
compares with others. No handler reads them, so they stand beside the server here.
-/

namespace XRNetwork

/-- `ST_CREDENTIALS`. -/
structure Credentials where
  login : Bytes
  password : Bytes
deriving DecidableEq, Repr

/-- The two C strings of an `ST_HANDSHAKE_CREDENTIALS_ACK`, with what the memory holds behind the
message. -/
def XRMessage.credentials (m : XRMessage) (behind : Bytes) : Credentials :=
  ⟨cString (m.loginBuffer ++ behind), cString (m.passwordBuffer ++ behind)⟩

structure NrServer where
  server : Server
  credentials : Credentials

inductive NrEvent
  | server (e : Event)
  /-- `set_credentials`, either of the two. -/
  | setCredentials (login password : Bytes)

namespace NrServer

def setCredentials (login password : Bytes) (n : NrServer) : NrServer :=
  { n with credentials := ⟨login, password⟩ }

def verifyCredentials (credentials : Credentials) (n : NrServer) : Bool :=
  n.credentials.login = credentials.login && n.credentials.password = credentials.password

def step (E : Env) (n : NrServer) : NrEvent → Option (Outcome Fault NrServer)
  | .server e => (n.server.step E e).map fun o => o.map fun w => { n with server := w }
  | .setCredentials login password => some (.ok (n.setCredentials login password))

def init : NrServer := ⟨Server.init, ⟨[], []⟩⟩

end NrServer

def nrMachine (E : Env) : Machine Fault NrServer NrEvent := ⟨NrServer.init, NrServer.step E⟩

end XRNetwork
