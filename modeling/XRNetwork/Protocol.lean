import XRNetwork.XRMessage

/-!
# Message heads and structs

The packed structs of `protocol.hpp` that the server builds, as records with their bytes, and the
fields it reads by casting a payload to a struct, as numbers at the struct's offsets. A cast looks
at the payload where it lies, so a field is read from whatever bytes the client put there.
-/

namespace XRNetwork

open LittleEndian

/-- `EN_RAW_MESSAGE_HEAD`. -/
inductive MessageHead
  | none
  | handshakeHello
  | handshakeHelloAck
  | handshakeCredentials
  | handshakeCredentialsAck
  | handshakeStatisticsRequest
  | handshakeStatisticsRequestAck
  | handshakeParticipantUpdate
  | handshakeParticipantUpdateAck
  | participantJoin
  | participantJoinAck
  | message
  | messageAck
  | participantNew
  | participantNewAck
  | participantLeave
  | participantLeaveAck
  | participantInfoRequest
  | participantInfoRequestAck
  | participantUpdate
  | participantUpdateAck
  | participantEvent
  | participantEventAck
  | avarMessage
  | chatMessage
  | control
deriving DecidableEq, Repr

namespace MessageHead

/-- The heads in the order of the enumeration, which numbers them from 0. -/
def all : List MessageHead :=
  [none, handshakeHello, handshakeHelloAck, handshakeCredentials, handshakeCredentialsAck,
    handshakeStatisticsRequest, handshakeStatisticsRequestAck, handshakeParticipantUpdate,
    handshakeParticipantUpdateAck, participantJoin, participantJoinAck, message, messageAck,
    participantNew, participantNewAck, participantLeave, participantLeaveAck,
    participantInfoRequest, participantInfoRequestAck, participantUpdate, participantUpdateAck,
    participantEvent, participantEventAck, avarMessage, chatMessage, control]

def code (h : MessageHead) : UInt16 := UInt16.ofNat (all.idxOf h)

/-- The head a `switch` on a 16-bit value takes, if any. -/
def ofCode (c : UInt16) : Option MessageHead := all[c.toNat]?

end MessageHead

/-- The message's head as the `switch` of a read handler sees it. -/
def XRMessage.kind (m : XRMessage) : Option MessageHead := MessageHead.ofCode m.head

/-! ## Structs the server sends -/

structure ParticipantLeave where
  participantId : UInt64

def ParticipantLeave.toBytes (s : ParticipantLeave) : Bytes := encode 8 s.participantId.toNat

structure ParticipantNew where
  participantId : UInt64
  descriptorBuffersize : UInt32
  descriptorBuffer : Buffer 20480

namespace ParticipantNew

/-- The default constructor on uninitialised memory: it clears the first 1024 bytes only. -/
def default (id : UInt64) (stack : Buffer 20480) : ParticipantNew where
  participantId := id
  descriptorBuffersize := 0
  descriptorBuffer := stack.clear 1024 (by norm_num)

def toBytes (s : ParticipantNew) : Bytes :=
  encode 8 s.participantId.toNat ++ (encode 4 s.descriptorBuffersize.toNat
    ++ s.descriptorBuffer.toList)

/-- The three assignments that describe a participant: id, size (narrowed to 32 bits) and the
`memcpy` of that many descriptor bytes over what the buffer held. -/
def describe (newp : ParticipantNew) (id : UInt64) (descriptor : Bytes) : Option ParticipantNew :=
  let size := UInt32.ofNat descriptor.length
  (newp.descriptorBuffer.memcpy (descriptor.take size.toNat)).map fun buffer =>
    { participantId := id, descriptorBuffersize := size, descriptorBuffer := buffer }

end ParticipantNew

structure ParticipantJoin where
  participantId : UInt64
  maxDataRate : UInt16
  allowAsynchronousMessages : UInt16
  messageBuffersize : UInt32
  messageBuffer : Buffer 10240

def ParticipantJoin.toBytes (s : ParticipantJoin) : Bytes :=
  encode 8 s.participantId.toNat ++ (encode 2 s.maxDataRate.toNat
    ++ (encode 2 s.allowAsynchronousMessages.toNat ++ (encode 4 s.messageBuffersize.toNat
      ++ s.messageBuffer.toList)))

structure HandshakeHello where
  serviceId : UInt64
  participantId : UInt64
  serverTimestamp : UInt64
  servernameBuffersize : UInt32
  servernameBuffer : Buffer 1024

def HandshakeHello.toBytes (s : HandshakeHello) : Bytes :=
  encode 8 s.serviceId.toNat ++ (encode 8 s.participantId.toNat ++ (encode 8 s.serverTimestamp.toNat
    ++ (encode 4 s.servernameBuffersize.toNat ++ s.servernameBuffer.toList)))

/-- `build_handshake_hello`; `none` when the name is copied past the buffer. -/
def buildHandshakeHello (serviceId participantId serverTimestamp : UInt64) (servername : Bytes) :
    Option HandshakeHello :=
  ((Buffer.zero 1024).memcpy servername).map fun buffer =>
    { serviceId, participantId, serverTimestamp,
      servernameBuffersize := UInt32.ofNat servername.length, servernameBuffer := buffer }

structure HandshakeCredentials where
  serverCertificateBuffersize : UInt32
  serverCertificateBuffer : Buffer 20480

namespace HandshakeCredentials

def default : HandshakeCredentials := ⟨0, Buffer.zero 20480⟩

def toBytes (s : HandshakeCredentials) : Bytes :=
  encode 4 s.serverCertificateBuffersize.toNat ++ s.serverCertificateBuffer.toList

end HandshakeCredentials

@[simp] theorem ParticipantLeave.length_toBytes (s : ParticipantLeave) :
    s.toBytes.length = 8 := by simp [toBytes]

@[simp] theorem ParticipantNew.length_toBytes (s : ParticipantNew) :
    s.toBytes.length = 20492 := by simp [toBytes]

@[simp] theorem ParticipantJoin.length_toBytes (s : ParticipantJoin) :
    s.toBytes.length = 10256 := by simp [toBytes]

@[simp] theorem HandshakeHello.length_toBytes (s : HandshakeHello) :
    s.toBytes.length = 1052 := by simp [toBytes]

@[simp] theorem HandshakeCredentials.length_toBytes (s : HandshakeCredentials) :
    s.toBytes.length = 20484 := by simp [toBytes]

def ParticipantLeave.toMessage (s : ParticipantLeave) : XRMessage :=
  .ofPayload MessageHead.participantLeave.code s.toBytes (by simp)

def ParticipantNew.toMessage (s : ParticipantNew) : XRMessage :=
  .ofPayload MessageHead.participantNew.code s.toBytes (by simp)

def ParticipantJoin.toMessage (s : ParticipantJoin) : XRMessage :=
  .ofPayload MessageHead.participantJoin.code s.toBytes (by simp)

def HandshakeHello.toMessage (s : HandshakeHello) : XRMessage :=
  .ofPayload MessageHead.handshakeHello.code s.toBytes (by simp)

def HandshakeCredentials.toMessage (s : HandshakeCredentials) : XRMessage :=
  .ofPayload MessageHead.handshakeCredentials.code s.toBytes (by simp)

/-! ## Fields of what the server receives -/

namespace XRMessage

variable (m : XRMessage)

/-- `participant_id`, the first field of every struct that has one and is read or relayed. -/
def participantId : UInt64 := UInt64.ofNat (field 0 8 m.payload)

/-- `configuration_buffer` and `configuration_buffersize` of `ST_HANDSHAKE_HELLO_ACK`, copied. -/
def configuration : Option Bytes := m.copy 20 (UInt32.ofNat (field 16 4 m.payload))

/-- `json_buffer` and `json_buffersize` of `ST_PARTICIPANT_JOIN_ACK`, copied. -/
def json : Option Bytes := m.copy 12 (UInt32.ofNat (field 8 4 m.payload))

/-- `descriptor_buffer` and `descriptor_buffersize` of `ST_PARTICIPANT_NEW`, as its receiver reads
them. -/
def descriptor : Option Bytes := m.copy 12 (UInt32.ofNat (field 8 4 m.payload))

/-- The message from `ST_HANDSHAKE_CREDENTIALS_ACK::login_buffer` on. -/
def loginBuffer : Bytes := m.payload.drop 10

/-- The message from `ST_HANDSHAKE_CREDENTIALS_ACK::password_buffer` on. -/
def passwordBuffer : Bytes := m.payload.drop 1036

end XRMessage

/-- The C string at a pointer. -/
def cString (b : Bytes) : Bytes := b.takeWhile (· ≠ 0)

/-- The bytes of an ASCII literal. -/
def ascii (s : String) : Bytes := s.toList.map fun c => UInt8.ofNat c.toNat

end XRNetwork
