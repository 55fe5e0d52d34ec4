import XRNetwork.UnityClient

/-!
# The buffers of the Unity client's socket

`XRAsyncTCPClient` has one static `StateObject`. Every receive is made into its `buffer`, which the
callback copies from and clears, and every send from its `tx_buffer`, which `AsyncSend` clears and
fills. `BeginSend` keeps the array, not what is in it: the bytes of a send that has not completed
are read when they go on the wire.

`ConcatByteArrays` is on the lower side of the conflict in `XRNetworkProtocol.cs`.
-/

namespace XRNetwork

/-! ## Receiving -/

/-- What `OnReceive` does is not seen here but for an exception of its own. -/
inductive RxError
  | onReceive

structure RxSide where
  /-- `state.buffer`. -/
  buffer : Buffer 65536
  mRxBuffer : Bytes
  /-- The buffers the callback has been called with. -/
  passed : List Bytes

/-- A completed receive: the bytes it has read, what `Available` says then, and whether the callback
throws if it is called. -/
structure ReceiveDone where
  bytes : Bytes
  available : ℕ
  throws : Bool

/-- `ConcatByteArrays`: copies of both, in a new array. -/
def concatByteArrays (arr1 arr2 : Bytes) : Bytes :=
  if arr1.length + arr2.length = 0 then [] else arr1 ++ arr2

namespace RxSide

/-- `AsyncReceive`, before the first receive. -/
def init : RxSide := ⟨.zero 65536, [], []⟩

variable (x : RxSide)

/-- `SplitByteArray` of `state.buffer`: a copy. -/
def splitByteArray (index count : ℕ) : Bytes := (x.buffer.toList.drop index).take count

/-- The socket reads into the front of the buffer. -/
def fill (bytes : Bytes) : Option RxSide :=
  (x.buffer.memcpy bytes).map fun buffer => { x with buffer }

/-- `asyncReceiveCallback`, for a receive of so many bytes. -/
def asyncReceiveCallback (bytesRead available : ℕ) (throws : Bool) : Outcome RxError RxSide :=
  let x := if 0 < bytesRead then
      { x with
        mRxBuffer := concatByteArrays x.mRxBuffer (x.splitByteArray 0 bytesRead)
        buffer := .zero 65536 }
    else x
  if bytesRead = 0 || available = 0 then
    let x := { x with passed := x.passed ++ [x.mRxBuffer] }
    if throws then .fault .onReceive x
    else .ok { x with buffer := .zero 65536, mRxBuffer := [] }
  else .ok x

end RxSide

def rxMachine : Machine RxError RxSide ReceiveDone :=
  ⟨RxSide.init, fun x r =>
    (x.fill r.bytes).map fun x => x.asyncReceiveCallback r.bytes.length r.available r.throws⟩

/-! ## Sending -/

/-- An `AsyncSend` that has begun a send: its message, the bytes of it that are on the wire, and
whether it has not completed. -/
structure TxSend where
  message : Bytes
  sent : Bytes
  outstanding : Bool
deriving DecidableEq

structure TxSide where
  connected : Bool
  /-- `state.tx_buffer`. -/
  txBuffer : Buffer 65536
  /-- The sends that have been begun, in the order of the calls. -/
  sends : List TxSend

inductive TxEvent
  /-- `AsyncSend(message, message.Length)`. -/
  | asyncSend (message : Bytes)
  /-- The `i`-th send puts its next `k` bytes on the wire. -/
  | transmit (i k : ℕ)
  /-- It completes: `EndSend` returns, or raises. -/
  | sendDone (i : ℕ)
  | sendFailed (i : ℕ)
  | disconnect

namespace TxSide

def init : TxSide := ⟨true, .zero 65536, []⟩

variable (t : TxSide)

def asyncSend (message : Bytes) : TxSide :=
  if t.connected then
    let txBuffer := Buffer.zero 65536
    match txBuffer.memcpy message with
    -- `BlockCopy` throws, and the exception is caught
    | none => { t with txBuffer }
    | some txBuffer => { t with txBuffer, sends := t.sends ++ [⟨message, [], true⟩] }
  else t

def transmit (i k : ℕ) : Option TxSide :=
  match t.sends[i]? with
  | none => none
  | some x =>
    if t.connected && x.outstanding && decide (x.sent.length + k ≤ 65536) then
      some { t with
        sends := t.sends.set i
          { x with sent := x.sent ++ (t.txBuffer.toList.drop x.sent.length).take k } }
    else none

/-- `asyncSendCallback`, when all the bytes have been sent. -/
def sendDone (i : ℕ) : Option TxSide :=
  match t.sends[i]? with
  | none => none
  | some x =>
    if x.outstanding && decide (x.sent.length = 65536) then
      some { t with sends := t.sends.set i { x with outstanding := false } }
    else none

/-- `asyncSendCallback`, when the send has failed. -/
def sendFailed (i : ℕ) : Option TxSide :=
  match t.sends[i]? with
  | none => none
  | some x =>
    if x.outstanding then some { t with sends := t.sends.set i { x with outstanding := false } }
    else none

def step (t : TxSide) : TxEvent → Option (Outcome Empty TxSide)
  | .asyncSend message => some (.ok (t.asyncSend message))
  | .transmit i k => (t.transmit i k).map .ok
  | .sendDone i => (t.sendDone i).map .ok
  | .sendFailed i => (t.sendFailed i).map .ok
  | .disconnect => some (.ok { t with connected := false })

end TxSide

end XRNetwork
