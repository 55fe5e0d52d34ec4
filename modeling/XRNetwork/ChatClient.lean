import XRNetwork.Protocol

/-!
# The chat client

`chat_client` answers the server's handshake, starts its update timer when it is told that it has
joined, and sends an update each time the timer expires. It never sends a `PARTICIPANT_JOIN_ACK`.

Two of its three messages are encoded with the size of another struct than the one sent: what is
cut off or read from beyond the struct is as the code has it.
-/

namespace XRNetwork

open LittleEndian

structure HandshakeHelloAck where
  participantId : UInt64
  clientTimestamp : UInt64
  configurationBuffersize : UInt32
  configurationBuffer : Buffer 20480

def HandshakeHelloAck.toBytes (s : HandshakeHelloAck) : Bytes :=
  encode 8 s.participantId.toNat ++ (encode 8 s.clientTimestamp.toNat
    ++ (encode 4 s.configurationBuffersize.toNat ++ s.configurationBuffer.toList))

structure HandshakeCredentialsAck where
  participantId : UInt64
  loginBuffersize : UInt16
  loginBuffer : Buffer 1024
  passwordBuffersize : UInt16
  passwordBuffer : Buffer 1024
  participantCertificateBuffersize : UInt16
  participantCertificateBuffer : Buffer 20480

def HandshakeCredentialsAck.toBytes (s : HandshakeCredentialsAck) : Bytes :=
  encode 8 s.participantId.toNat ++ (encode 2 s.loginBuffersize.toNat ++ (s.loginBuffer.toList
    ++ (encode 2 s.passwordBuffersize.toNat ++ (s.passwordBuffer.toList
      ++ (encode 2 s.participantCertificateBuffersize.toNat
        ++ s.participantCertificateBuffer.toList)))))

structure ParticipantUpdateAck where
  participantId : UInt64
  originTimestamp : UInt64
  buffersize : UInt32
  buffer : Buffer 20480

def ParticipantUpdateAck.toBytes (s : ParticipantUpdateAck) : Bytes :=
  encode 8 s.participantId.toNat ++ (encode 8 s.originTimestamp.toNat
    ++ (encode 4 s.buffersize.toNat ++ s.buffer.toList))

@[simp] theorem HandshakeHelloAck.length_toBytes (s : HandshakeHelloAck) :
    s.toBytes.length = 20500 := by simp [toBytes]

@[simp] theorem HandshakeCredentialsAck.length_toBytes (s : HandshakeCredentialsAck) :
    s.toBytes.length = 22542 := by simp [toBytes]

@[simp] theorem ParticipantUpdateAck.length_toBytes (s : ParticipantUpdateAck) :
    s.toBytes.length = 20500 := by simp [toBytes]

/-- A buffer that starts with a text and is zero after it. -/
def Buffer.ofText (n : ℕ) (text : String) : Buffer n :=
  ⟨(ascii text).take n ++ List.replicate (n - (ascii text).length) 0, by simp; omega⟩

structure ChatClient where
  participantId : UInt64
  serviceId : UInt64
  /-- The update timer is running. -/
  updating : Bool

namespace ChatClient

def helloAck (participantId timestamp : UInt64) : XRMessage :=
  .ofPayload MessageHead.handshakeHelloAck.code (HandshakeHelloAck.toBytes
    ⟨participantId, timestamp, UInt32.ofNat (ascii "ABCDEFGHIJKLMNOPQRST").length,
      .ofText 20480 "ABCDEFGHIJKLMNOPQRST"⟩) (by simp)

/-- Encoded with `sizeof(ST_HANDSHAKE_CREDENTIALS)`. -/
def credentialsAck : XRMessage :=
  .ofPayload MessageHead.handshakeCredentialsAck.code ((HandshakeCredentialsAck.toBytes
    ⟨0, UInt16.ofNat (ascii "login").length, .ofText 1024 "login",
      UInt16.ofNat (ascii "password").length, .ofText 1024 "password",
      0, .zero 20480⟩).take 20484) (by simp)

/-- What the update says of the participant. -/
def updateText : String :=
  "\x7b\"m_position\":\x7b\"x\":0.0,\"y\":0.0,\"z\":0.0\x7d,"
    ++ "\"m_rotation\":\x7b\"x\":0.0,\"y\":0.0,\"z\":0.0,\"w\":0.0\x7d,"
    ++ "\"m_name\":\"Pedro Urdemales\",\"m_id\":14514284786278117030,"
    ++ "\"m_id_hex\":\"C96D191CF6F6AEA6\","
    ++ "\"m_prefab_path\":\"Assets/Resources/XRNetwork/Characters/MarkerMan.fbx\","
    ++ "\"m_auto_update\":false,\"objectType\":4,\"m_devices\":[],"
    ++ "\"m_prefab\":\x7b\"instanceID\":13558\x7d\x7d"

/-- Encoded with `sizeof(ST_PARTICIPANT_UPDATE)`, which is 12 bytes more than the struct has. -/
def updateAck (participantId timestamp : UInt64) (stack : Buffer 12) : XRMessage :=
  .ofPayload MessageHead.participantUpdateAck.code (ParticipantUpdateAck.toBytes
    ⟨participantId, timestamp, UInt32.ofNat (ascii updateText).length, .ofText 20480 updateText⟩
      ++ stack.toList) (by simp)

/-- The completion handler of `do_read_byte`, without error: the client after a message and the
message it writes, if any. -/
def onMessage (timestamp : UInt64) (m : XRMessage) (c : ChatClient) :
    ChatClient × Option XRMessage :=
  match m.kind with
  | some .handshakeHello =>
    -- both ids are taken from the first field, the service's
    let id := UInt64.ofNat (field 0 8 m.payload)
    ({ c with participantId := id, serviceId := id }, some (helloAck id timestamp))
  | some .handshakeCredentials => (c, some credentialsAck)
  | some .participantJoin => ({ c with participantId := m.participantId, updating := true }, none)
  | _ => (c, none)

/-- The handler of `begin_participant_update`'s timer, which starts it again. -/
def onTimer (timestamp : UInt64) (stack : Buffer 12) (c : ChatClient) : XRMessage :=
  updateAck c.participantId timestamp stack

end ChatClient

end XRNetwork
