import XRNetwork.ChatClient
import XRNetwork.Server

/-!
# What the handlers print

Both programs log what they send and receive. Numbers are read from their fields, but a buffer is
printed as a C string, up to its first zero byte wherever that is. `operator<<` takes some structs by
reference and reads them where they lie, so it may go on to the end of the message and past it; it
takes others by value, and then it may go past the copy. The server's steps and the client's go on
after a print whatever it has read; in `loggedMachine` a print that goes too far is a fault.
-/

namespace XRNetwork

/-- A C string that starts with these bytes, all that its object holds from there on, ends among
them. -/
def Terminated (b : Bytes) : Prop := 0 ∈ b

instance (b : Bytes) : Decidable (Terminated b) := inferInstanceAs (Decidable (0 ∈ b))

namespace XRMessage

variable (m : XRMessage)

/-- The message from `ST_HANDSHAKE_HELLO_ACK::configuration_buffer` on. -/
def configurationBuffer : Bytes := m.payload.drop 20

/-- The message from `ST_HANDSHAKE_CREDENTIALS_ACK::participant_certificate_buffer` on. -/
def participantCertificateBuffer : Bytes := m.payload.drop 2062

end XRMessage

namespace Server

/-- What the completion handler of `do_read_handshake` prints of a message, before it does anything
else with it. The `PARTICIPANT_JOIN` it prints later has zeros behind its text. -/
def printsHandshake (m : XRMessage) : List Bytes :=
  match m.kind with
  | some .handshakeHelloAck => [m.configurationBuffer]
  | some .handshakeCredentialsAck =>
    [m.loginBuffer, m.passwordBuffer, m.participantCertificateBuffer]
  | _ => []

/-- The room's loop prints no message. -/
def printsRead : ReadLoop → XRMessage → List Bytes
  | .handshake, m => printsHandshake m
  | .room, _ => []

/-- What the event's handler prints. `do_start_handshake` prints the hello it has built. -/
def prints (E : Env) (w : Server) : Event → List Bytes
  | .accept (some ip) timestamp =>
    match buildHandshakeHello E.serviceId (Session.fresh ip).mId timestamp w.serviceName with
    | none => []
    | some hh => [hh.servernameBuffer.toList]
  | .read s i readBuffer _ =>
    match (w.sessions s).reads[i]? with
    | none => []
    | some read => printsRead read.loop (receivedMessage readBuffer)
  | _ => []

/-- The event's handler prints past the end of an object. -/
def Overreads (E : Env) (w : Server) (e : Event) : Prop := ∃ b ∈ w.prints E e, ¬ Terminated b

instance (E : Env) (w : Server) (e : Event) : Decidable (w.Overreads E e) :=
  List.decidableBEx _ _

def loggedStep (E : Env) (w : Server) (e : Event) : Option (Outcome Fault Server) :=
  (w.step E e).map fun o => if w.Overreads E e then .fault .outOfBounds w.tick else o

end Server

/-- The server with its log. -/
def loggedMachine (E : Env) : Machine Fault Server Event := ⟨Server.init, Server.loggedStep E⟩

/-- What the client's completion handler of `do_read_byte` prints of a message: a hello and the
request for credentials where they lie, the others from a copy. What it sends it prints as well, from
buffers that it has cleared. -/
def ChatClient.prints (m : XRMessage) : List Bytes :=
  match m.kind with
  | some .handshakeHello => [m.payload.drop 28]
  | some .handshakeCredentials => [m.payload.drop 4]
  | some .participantJoin => [(m.payload.drop 16).take 10240]
  | some .participantNew => [(m.payload.drop 12).take 20480]
  | some .participantUpdateAck => [(m.payload.drop 20).take 20480]
  | _ => []

end XRNetwork
