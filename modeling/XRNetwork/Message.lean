import XRNetwork.Session
import XRNetwork.Lib.Decimal

/-!
# The message with a decimal header

`nr_message`: a buffer whose first two bytes are to hold the length of the body in decimal. What
`encode_header` writes past its own buffer is undefined behaviour; its fault carries the message as
it is when nothing else has been hit, and runs go on from there.
-/

namespace XRNetwork

open Decimal

/-- `isspace`. -/
def isSpace (c : UInt8) : Bool := c = 32 || (9 ≤ c && c ≤ 13)

/-- `atoi` of a C string whose number fits an `int`. -/
def atoi (s : Bytes) : ℤ :=
  match s.dropWhile isSpace with
  | 45 :: s => -value (s.takeWhile isDigit)
  | 43 :: s => value (s.takeWhile isDigit)
  | s => value (s.takeWhile isDigit)

/-- What `sprintf` writes for `"%4d"`, but for the terminating zero. -/
def sprintf4d (n : ℤ) : Bytes :=
  let text := if 0 ≤ n then digits n.toNat else 45 :: digits (-n).toNat
  List.replicate (4 - text.length) 32 ++ text

/-- `nr_message`, with `header_length + max_body_length` bytes. -/
structure NrMessage where
  data : Buffer 65536
  bodyLength : UInt64

namespace NrMessage

def maxBodyLength : UInt64 := 65534

/-- As the constructor leaves it. -/
def init : NrMessage := ⟨Buffer.zero 65536, 65536⟩

variable (m : NrMessage)

def length : UInt64 := 2 + m.bodyLength

/-- `body_length(new_length)`. -/
def setBodyLength (newLength : UInt64) : NrMessage :=
  { m with bodyLength := if maxBodyLength < newLength then maxBodyLength else newLength }

/-- The message afterwards, and what `decode_header` returns. -/
def decodeHeader : NrMessage × Bool :=
  let header := cString (m.data.toList.take 2)
  let bodyLength := UInt64.ofInt (atoi header)
  if maxBodyLength < bodyLength then ({ m with bodyLength := 0 }, false)
  else ({ m with bodyLength }, true)

/-- What `encode_header` prints, the length as an `int`. -/
def headerText : Bytes := sprintf4d m.bodyLength.toUInt32.toInt32.toInt

def encodeHeader : Outcome Fault NrMessage :=
  let header := (m.headerText ++ List.replicate 3 0).take 3
  let m' := { m with data := ⟨header.take 2 ++ m.data.toList.drop 2, by simp [header]⟩ }
  -- the text and its terminating zero go into three bytes
  if m.headerText.length + 1 ≤ 3 then .ok m' else .fault .outOfBounds m'

end NrMessage

/-- The calls on a message. -/
inductive MessageCall
  | bodyLength (n : UInt64)
  | encodeHeader
  | decodeHeader
  /-- Bytes are written through `data()` or `body()`. -/
  | write (data : Buffer 65536)

namespace NrMessage

def call (m : NrMessage) : MessageCall → NrMessage
  | .bodyLength n => m.setBodyLength n
  | .encodeHeader => m.encodeHeader.state
  | .decodeHeader => m.decodeHeader.1
  | .write data => { m with data }

/-- The message after a row of calls. -/
def after (calls : List MessageCall) : NrMessage := calls.foldl call init

end NrMessage

end XRNetwork
