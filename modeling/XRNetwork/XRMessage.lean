import XRNetwork.Lib.LittleEndian
import XRNetwork.Lib.Blocks

/-!
# Messages on the wire

An `XRMessage` is 65536 bytes: a packed header of 8 bytes (head, payload size, endianness flag, all
little-endian on the hosts the code runs on), the payload, and zeros. Both constructors the code
uses resize the vector to 65536, so the length is a field here and the size tests of the accessors
always succeed.
-/

namespace XRNetwork

open LittleEndian

abbrev Bytes := List UInt8

/-- A byte array of fixed size, such as a buffer inside a struct. -/
abbrev Buffer (n : ℕ) := List.Vector UInt8 n

namespace Buffer

def zero (n : ℕ) : Buffer n := List.Vector.replicate n 0

/-- `memset` of the first `k` bytes to zero. -/
def clear {n : ℕ} (k : ℕ) (h : k ≤ n) (dst : Buffer n) : Buffer n :=
  ⟨List.replicate k 0 ++ dst.toList.drop k, by simp [Nat.add_sub_cancel' h]⟩

/-- `memcpy` to the start of the buffer: `none` when it would write past its end. -/
def memcpy {n : ℕ} (dst : Buffer n) (src : Bytes) : Option (Buffer n) :=
  if h : src.length ≤ n then
    some ⟨src ++ dst.toList.drop src.length, by simp [Nat.add_sub_cancel' h]⟩
  else none

end Buffer

/-- `xr_message_header`. -/
structure XRMessageHeader where
  head : UInt16
  buffersize : UInt32
  payloadIsBigEndian : UInt16
deriving DecidableEq, Repr

namespace XRMessageHeader

def toBytes (h : XRMessageHeader) : Bytes :=
  encode 2 h.head.toNat ++ (encode 4 h.buffersize.toNat ++ encode 2 h.payloadIsBigEndian.toNat)

def ofBytes (b : Bytes) : XRMessageHeader where
  head := UInt16.ofNat (field 0 2 b)
  buffersize := UInt32.ofNat (field 2 4 b)
  payloadIsBigEndian := UInt16.ofNat (field 6 2 b)

end XRMessageHeader

/-- `swap_endian` of a value whose type has `w` bytes. -/
def swapEndian (w n : ℕ) : ℕ := decode (encode w n).reverse

/-- `swap_xr_message_header`, which swaps both fields as `uint64_t`. -/
def swapXRMessageHeader (msg : XRMessageHeader) : XRMessageHeader :=
  { msg with
    head := UInt16.ofNat (swapEndian 8 msg.head.toNat)
    buffersize := UInt32.ofNat (swapEndian 8 msg.buffersize.toNat) }

/-- The vector of an `XRMessage`. -/
structure XRMessage where
  data : Bytes
  size_eq : data.length = 65536
deriving DecidableEq

namespace XRMessage

/-- `XRMessage(buffer, _buffersize, check_endianess)`: the bytes copied over 65536 zeros. -/
def ofBuffer (buffer : Bytes) (h : buffer.length ≤ 65536) : XRMessage where
  data := buffer ++ List.replicate (65536 - buffer.length) 0
  size_eq := by simp [Nat.add_sub_cancel' h]

theorem nil_fits : ([] : Bytes).length ≤ 65528 := Nat.zero_le _

/-- `XRMessage(_head, buffer, _buffersize)`: header and bytes copied over 65536 zeros. -/
def ofPayload (head : UInt16) (buffer : Bytes) (h : buffer.length ≤ 65528) : XRMessage where
  data := XRMessageHeader.toBytes ⟨head, UInt32.ofNat buffer.length, 0xFFFF⟩
    ++ (buffer ++ List.replicate (65528 - buffer.length) 0)
  size_eq := by
    simp only [XRMessageHeader.toBytes, List.length_append, length_encode, List.length_replicate]
    omega

variable (m : XRMessage)

def head : UInt16 := UInt16.ofNat (field 0 2 m.data)

def getHeader : XRMessageHeader := XRMessageHeader.ofBytes m.data

def payloadSize : UInt32 := m.getHeader.buffersize

/-- What `payload()` points at. -/
def payload : Bytes := m.data.drop 8

/-- The buffer a peer that reads the message fills. -/
def frame : Buffer 65536 := ⟨m.data, m.size_eq⟩

/-- `std::copy(p, p + n, …)` with `p` at `off` in the payload: `none` when it would read past the
end of the message. -/
def copy (off : ℕ) (n : UInt32) : Option Bytes :=
  if 8 + off + n.toNat ≤ 65536 then some ((m.payload.drop off).take n.toNat) else none

end XRMessage

/-- Reading a stream with `async_read` into 65536 bytes at a time, as `do_read_byte` does on both
sides, and copying each full buffer to a message. -/
def readStream (stream : Bytes) : List XRMessage :=
  (Blocks.read 65536 stream).filterMap fun b =>
    if h : b.length ≤ 65536 then some (XRMessage.ofBuffer b h) else none

end XRNetwork
