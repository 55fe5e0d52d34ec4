import XRNetwork.XRMessage
import XRNetwork.Lib.Machine

/-!
# The Unity client's receiving side

`asyncReceiveCallback` collects what the socket gives until nothing is left there, and hands it
to `OnReceive`, which collects again until it has a message and hands that to `ProcessMessage`.
What `OnReceive` raises ends in a `catch` of the callback, behind the call that would start the next
receive: the client receives no more.

Of `ProcessMessage`, which unmarshals the payload and answers, only whether it raises is seen here;
it touches neither buffer.
-/

namespace XRNetwork

/-- The arguments `ProcessMessage` is called with. -/
structure ProcessCall where
  header : UInt16
  buffersize : UInt32
  payload : Bytes

/-- What ends receiving. -/
inductive ReceiveError
  /-- `BitConverter` was asked for bytes past the end of the buffer. -/
  | header
  | processMessage

structure UnityClient where
  /-- `m_rxBuffer`, of `XRAsyncTCPClient`. -/
  mRxBuffer : Bytes
  /-- `m_tcp_buffer`, of `XRNetworkParticipant`. -/
  mTcpBuffer : Bytes
  /-- How many bytes have been taken out of `m_tcp_buffer`. -/
  taken : ℕ
  /-- The calls of `ProcessMessage`, each with the position in the stream of the bytes it was made
  from. -/
  calls : List (ℕ × ProcessCall)

/-- One completion of `BeginReceive`: the bytes read, what `Available` says after that, and whether
`ProcessMessage` raises if it is called. -/
structure Receive where
  bytes : Bytes
  available : ℕ
  raises : Bool

/-- The callback hands over what it has. -/
def Receive.handsOver (r : Receive) : Bool := r.bytes.length = 0 || r.available = 0

namespace UnityClient

def init : UnityClient := ⟨[], [], 0, []⟩

variable (c : UnityClient)

/-- `OnReceive`. -/
def onReceive (raises : Bool) (buffer : Bytes) : Outcome ReceiveError UnityClient :=
  let mTcpBuffer := if c.mTcpBuffer.length ≠ 0 then c.mTcpBuffer ++ buffer else buffer
  let c := { c with mTcpBuffer }
  if mTcpBuffer.length < 8 then .fault .header c
  else
    let h := XRMessageHeader.ofBytes mTcpBuffer
    if h.buffersize.toNat + 8 ≤ mTcpBuffer.length then
      if h.head = 0 then .ok c
      else
        let payload := (mTcpBuffer.drop 8).take h.buffersize.toNat
        let c := { c with calls := c.calls ++ [(c.taken, ⟨h.head, h.buffersize, payload⟩)] }
        if raises then .fault .processMessage c
        else .ok { c with mTcpBuffer := [], taken := c.taken + mTcpBuffer.length }
    else .ok c

/-- `asyncReceiveCallback`. -/
def asyncReceiveCallback (r : Receive) : Outcome ReceiveError UnityClient :=
  let c := if 0 < r.bytes.length then { c with mRxBuffer := c.mRxBuffer ++ r.bytes } else c
  if r.handsOver then
    (c.onReceive r.raises c.mRxBuffer).andThen fun c => .ok { c with mRxBuffer := [] }
  else .ok c

end UnityClient

/-- The client as it receives; `StateObject.BufferSize` bounds what one receive reads. -/
def unityMachine : Machine ReceiveError UnityClient Receive :=
  ⟨UnityClient.init, fun c r =>
    if r.bytes.length ≤ 65536 then some (c.asyncReceiveCallback r) else none⟩

end XRNetwork
