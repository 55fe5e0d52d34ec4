import XRNetwork.Protocol
import XRNetwork.Lib.Packed

/-!
# The structs of both sides

`protocol.hpp` and `XRNetworkProtocol.cs` each define a struct for six of the messages. All of them
are integers followed by buffers with a length field before each, laid out without gaps: the C++
ones packed, or aligned as they stand, and the C# ones with `Pack = 1`. `Marshal` and a cast of the
payload both read a struct by its layout, so a struct is given by its layout here.

Of the two sides of the conflict in `XRNetworkProtocol.cs`, the lower one is taken.
-/

namespace XRNetwork

open Packed

inductive SharedMessage
  | handshakeHello
  | handshakeHelloAck
  | handshakeCredentials
  | handshakeCredentialsAck
  | participantJoin
  | participantUpdate
deriving DecidableEq, Repr

namespace SharedMessage

def head : SharedMessage → MessageHead
  | handshakeHello => .handshakeHello
  | handshakeHelloAck => .handshakeHelloAck
  | handshakeCredentials => .handshakeCredentials
  | handshakeCredentialsAck => .handshakeCredentialsAck
  | participantJoin => .participantJoin
  | participantUpdate => .participantUpdate

/-- The struct of `protocol.hpp`. -/
def cpp : SharedMessage → Layout
  | handshakeHello => ⟨[8, 8, 8], [(4, 1024)]⟩
  | handshakeHelloAck => ⟨[8, 8], [(4, 20480)]⟩
  | handshakeCredentials => ⟨[], [(4, 20480)]⟩
  | handshakeCredentialsAck => ⟨[8], [(2, 1024), (2, 1024), (2, 20480)]⟩
  | participantJoin => ⟨[8, 2, 2], [(4, 10240)]⟩
  | participantUpdate => ⟨[8, 8, 8], [(4, 20480)]⟩

/-- The bytes of the C++ struct behind its last field, as the chat client is compiled:
`ST_PARTICIPANT_UPDATE` is not packed there. In the server it is, by a `#pragma pack` of
`participant.hpp` that is still in force, and has none. -/
def padding : SharedMessage → ℕ
  | participantUpdate => 4
  | _ => 0

/-- The struct of `XRNetworkProtocol.cs`. -/
def unity : SharedMessage → Layout
  | handshakeHello => ⟨[8, 8, 8], [(4, 1024)]⟩
  | handshakeHelloAck => ⟨[8, 8], [(2, 1024)]⟩
  | handshakeCredentials => ⟨[], [(4, 20480)]⟩
  | handshakeCredentialsAck => ⟨[8], [(2, 1024), (2, 1024), (2, 20480)]⟩
  | participantJoin => ⟨[8, 2, 2], [(2, 10240)]⟩
  | participantUpdate => ⟨[8, 8, 8], [(2, 20480)]⟩

/-- The server sends it. `PARTICIPANT_UPDATE` is sent by neither side, and counts for both. -/
def fromServer : SharedMessage → Bool
  | handshakeHelloAck | handshakeCredentialsAck => false
  | _ => true

def fromUnity : SharedMessage → Bool
  | handshakeHelloAck | handshakeCredentialsAck | participantUpdate => true
  | _ => false

theorem cpp_size_le (k : SharedMessage) : k.cpp.size + k.padding ≤ 65528 := by
  cases k <;> decide

theorem unity_size_le (k : SharedMessage) : k.unity.size ≤ 65528 := by
  cases k <;> decide

end SharedMessage

/-- A struct one side sends: its fields, and what its padding holds. -/
inductive Sent
  | server (k : SharedMessage) (h : k.fromServer) (v : Value k.cpp) (padding : Buffer k.padding)
  | unity (k : SharedMessage) (h : k.fromUnity) (v : Value k.unity)

theorem length_rawData (head : UInt16) {buffer : Bytes} (h : buffer.length ≤ 65528) :
    (XRMessageHeader.toBytes ⟨head, UInt32.ofNat buffer.length, 0x0000⟩
      ++ (buffer ++ List.replicate (65528 - buffer.length) 0)).length = 65536 := by
  simp only [XRMessageHeader.toBytes, List.length_append, LittleEndian.length_encode,
    List.length_replicate]
  omega

/-- `GetBytes` of an `ST_RAW_MESSAGE`, as `ProcessMessage` fills it. -/
def rawMessage (head : UInt16) (buffer : Bytes) (h : buffer.length ≤ 65528) : XRMessage where
  data := XRMessageHeader.toBytes ⟨head, UInt32.ofNat buffer.length, 0x0000⟩
    ++ (buffer ++ List.replicate (65528 - buffer.length) 0)
  size_eq := length_rawData head h

namespace Sent

def message : Sent → XRMessage
  | server k _ v padding => .ofPayload k.head.code (v.write ++ padding.toList) (by
      have := k.cpp_size_le
      simpa [v.length_write])
  | unity k _ v => rawMessage k.head.code v.write (by
      have := k.unity_size_le
      simpa [v.length_write])

/-- What the other side reads the struct from: `ProcessMessage` is given as many bytes as the header
says, and the server's handlers the rest of the message. -/
def payload : Sent → Bytes
  | x@(server ..) => x.message.payload.take x.message.payloadSize.toNat
  | x@(unity ..) => x.message.payload

def record : Sent → Record
  | server _ _ v _ => v.toRecord
  | unity _ _ v => v.toRecord

/-- The struct the other side reads it as. -/
def received : Sent → Layout
  | server k .. => k.unity
  | unity k .. => k.cpp

end Sent

end XRNetwork
