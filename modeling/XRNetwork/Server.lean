import XRNetwork.Room

/-!
# The server

The handlers of `handshake_session`, `nr_session` and `nr_server`, and the machine whose steps are
their runs. Handlers run one at a time on the one thread of the `io_context`; a handler is run by
the event that completes its operation, and calls from outside are taken between two handlers.

A read or write that was started on a closed socket completes with an error only. One that was
started before the socket was closed may still complete either way.

What the handlers print is not part of the steps here. What these prints read, and where that is too
much, is in `Prints`.
-/

namespace XRNetwork

namespace Server

def doReadHandshake (s : ℕ) (w : Server) : Server :=
  w.setSession s { w.sessions s with
    reads := (w.sessions s).reads ++ [⟨.handshake, (w.sides s).isOpen⟩] }

/-- `do_start_handshake`, but for the print of the hello (`prints`). -/
def doStartHandshake (E : Env) (timestamp : UInt64) (s : ℕ) (w : Server) : Outcome Fault Server :=
  let w := w.doReadHandshake s
  match buildHandshakeHello E.serviceId (w.sessions s).mId timestamp w.serviceName with
  | none => .fault .outOfBounds w
  | some hh => .ok (w.deliverByte s hh.toMessage)

/-- `check_handshake_hello_ack`. The configuration is appended to the descriptor. -/
def checkHandshakeHelloAck (s : ℕ) (m : XRMessage) (w : Server) : Outcome Fault Server :=
  match m.configuration with
  | none => .fault .outOfBounds w
  | some configuration =>
    let w := w.setSession s { w.sessions s with
      mDescriptor := (w.sessions s).mDescriptor ++ configuration }
    .ok (w.deliverByte s HandshakeCredentials.default.toMessage)

/-- The message a session is welcomed with. -/
def participantJoin (id : UInt64) : ParticipantJoin where
  participantId := id
  maxDataRate := 1
  allowAsynchronousMessages := 0xFFFF
  messageBuffersize := UInt32.ofNat (ascii "accepted in room").length
  messageBuffer := ⟨ascii "accepted in room" ++ List.replicate 10224 0,
    by rw [List.length_append, List.length_replicate]; rfl⟩

/-- The test of `check_handshake_credentials_ack`, negated. -/
def goodCredentials (m : XRMessage) : Prop :=
  cString m.loginBuffer = ascii "login" ∧ cString m.passwordBuffer = ascii "password"

instance (m : XRMessage) : Decidable (goodCredentials m) := instDecidableAnd

/-- `check_handshake_credentials_ack`. After `disconnect` it goes on as for good credentials. -/
def checkHandshakeCredentialsAck (E : Env) (c : Choice) (s : ℕ) (m : XRMessage) (w : Server) :
    Outcome Fault Server :=
  let w := if goodCredentials m then w else w.disconnect s
  let w := w.doReadByte s
  (w.join E c s).andThen fun w =>
    .ok (w.deliverByte s (participantJoin (w.sessions s).mId).toMessage)

/-- The completion handler of `do_read_handshake`, without error, but for what it prints of the
message (`printsHandshake`). -/
def onReadHandshake (E : Env) (c : Choice) (s : ℕ) (m : XRMessage) (w : Server) :
    Outcome Fault Server :=
  match m.kind with
  | some .handshakeHelloAck =>
    (w.checkHandshakeHelloAck s m).andThen fun w => .ok (w.doReadHandshake s)
  | some .handshakeCredentialsAck => w.checkHandshakeCredentialsAck E c s m
  | _ => .ok (w.doReadHandshake s)

/-- The branches of the `switch` in `do_read_byte`'s completion handler. -/
def onRoomFrame (c : Choice) (s : ℕ) (m : XRMessage) (w : Server) : Outcome Fault Server :=
  match m.kind with
  | some .participantJoinAck =>
    match m.json with
    | none => .fault .outOfBounds w
    | some json =>
      let w := w.setSession s { w.sessions s with mDescriptor := json }
      (w.log (.initNewParticipant s m.participantId)).initNewParticipant c m.participantId
  | some .participantNewAck => .ok w
  | some .participantUpdateAck =>
    .ok ((w.log (.relayed s)).deliverToAllExceptToOne m (w.sessions s).mId)
  | some .participantLeaveAck =>
    (w.log (.disconnectParticipant s)).disconnectParticipant (w.sessions s).mId
  | _ => .ok (w.disconnect s)

/-- The completion handler of `do_read_byte`, without error. -/
def onReadRoom (c : Choice) (s : ℕ) (m : XRMessage) (w : Server) : Outcome Fault Server :=
  (w.onRoomFrame c s m).andThen fun w => .ok (w.doReadByte s)

def onRead (E : Env) (c : Choice) (s : ℕ) (loop : ReadLoop) (m : XRMessage) (w : Server) :
    Outcome Fault Server :=
  let w := w.log (.received s loop m)
  match loop with
  | .handshake => w.onReadHandshake E c s m
  | .room => w.onReadRoom c s m

def onReadError (c : Choice) (s : ℕ) (loop : ReadLoop) (w : Server) : Outcome Fault Server :=
  match loop with
  | .handshake => .ok (w.disconnect s)
  | .room => w.leave c s

/-- `async_accept` completed: a session is made and started, then the next accept is. -/
def onAccept (E : Env) (ip : Option Bytes) (timestamp : UInt64) (w : Server) :
    Outcome Fault Server :=
  let s := w.made
  let w := { w with accepts := w.accepts - 1 }
  match ip with
  -- `remote_endpoint()` throws when the peer is gone
  | none => .fault .exception w
  | some ip =>
    let w := { (w.setSession s (.fresh ip)).setSide s .fresh with made := w.made + 1 }
    (w.doStartHandshake E timestamp s).andThen fun w => .ok { w with accepts := w.accepts + 1 }

/-- The end of a completion or posted handler that only touches a session's write side. -/
def putSide (s : ℕ) (o : Outcome Fault WriteSide) (w : Server) : Outcome Fault Server :=
  match o with
  | .ok x => .ok (w.setSide s x)
  | .fault f x => .fault f (w.setSide s x)

end Server

inductive Event
  | accept (ip : Option Bytes) (timestamp : UInt64)
  | acceptFailed
  /-- The `i`-th outstanding read of the session fills its buffer. -/
  | read (s i : ℕ) (readBuffer : Buffer 65536) (c : Choice)
  | readFailed (s i : ℕ) (c : Choice)
  | posted (s : ℕ)
  | writeSome (s i k : ℕ)
  | writeDone (s i : ℕ)
  | writeFailed (s i : ℕ) (c : Choice)
  /-- Calls on the `nr_server` from outside. -/
  | disconnectParticipant (id : UInt64)
  | disconnectAllParticipants
  | setParticipantDeaf (id : UInt64) (deaf : Bool)
  | setMaxParticipants (n : UInt16)
  | setKeepAlive (b : Bool)
  | setServiceName (name : Bytes)
  | stop

/-- What the event's handler finds undetermined, if anything. -/
def Event.choice : Event → Option Choice
  | .read _ _ _ c | .readFailed _ _ c | .writeFailed _ _ c => some c
  | _ => none

/-- `XRMessage(read_buffer_.data(), bytes_transferred, false)` for a full buffer. -/
def receivedMessage (readBuffer : Buffer 65536) : XRMessage :=
  .ofBuffer readBuffer.toList (by simp)

namespace Server

theorem receivedMessage_data (buf : Buffer 65536) : (receivedMessage buf).data = buf.toList := by
  simp [receivedMessage, XRMessage.ofBuffer]

/-- The read completes: it is outstanding no more. -/
def dropRead (s i : ℕ) (w : Server) : Server :=
  w.setSession s { w.sessions s with reads := (w.sessions s).reads.eraseIdx i }

/-- A handler's run begins. -/
def tick (w : Server) : Server := { w with clock := w.clock + 1 }

def step (E : Env) (w : Server) : Event → Option (Outcome Fault Server)
  | .accept ip timestamp =>
    if 0 < w.accepts ∧ w.acceptorOpen then some (w.tick.onAccept E ip timestamp) else none
  | .acceptFailed =>
    if 0 < w.accepts then some (.ok { w.tick with accepts := w.accepts - 1 }) else none
  | .read s i readBuffer c =>
    match (w.sessions s).reads[i]? with
    | some ⟨loop, true⟩ =>
      some ((w.tick.dropRead s i).onRead E c s loop (receivedMessage readBuffer))
    | _ => none
  | .readFailed s i c =>
    match (w.sessions s).reads[i]? with
    | some ⟨loop, _⟩ => some ((w.tick.dropRead s i).onReadError c s loop)
    | none => none
  | .posted s => (w.sides s).runPosted.map fun o => w.tick.putSide s o
  | .writeSome s i k => ((w.sides s).writeSome i k).map fun x => .ok (w.tick.setSide s x)
  | .writeDone s i => ((w.sides s).writeDone i).map fun o => w.tick.putSide s o
  | .writeFailed s i c => ((w.sides s).writeFailed i).map fun x => (w.tick.setSide s x).leave c s
  | .disconnectParticipant id => some (w.tick.disconnectParticipant id)
  | .disconnectAllParticipants => some (.ok w.tick.disconnectAllParticipants)
  | .setParticipantDeaf id deaf => some (.ok (w.tick.setParticipantDeaf id deaf))
  | .setMaxParticipants n => some (.ok { w.tick with maxParticipants := n })
  | .setKeepAlive b => some (.ok { w.tick with keepAlive := b })
  | .setServiceName name => some (.ok { w.tick with serviceName := name })
  | .stop => some (.ok { w.tick.disconnectAllParticipants with acceptorOpen := false })

/-- `nr_server::participants_count`, which narrows the size of the set. -/
def participantsCount (w : Server) : UInt16 := UInt16.ofNat w.participants.length

/-- The server as its constructor leaves it, `DEFAULT_MAX_PARTICIPANTS` in force and one accept
outstanding. -/
def init : Server where
  sessions := fun _ => .fresh []
  sides := fun _ => .fresh
  made := 0
  participants := []
  maxParticipants := 10
  keepAlive := false
  drawn := 0
  serviceName := []
  accepts := 1
  acceptorOpen := true
  clock := 0
  trace := []

end Server

def serverMachine (E : Env) : Machine Fault Server Event := ⟨Server.init, Server.step E⟩

end XRNetwork
