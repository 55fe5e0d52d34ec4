import XRNetwork.Lib.Machine

/-!
# When the Unity participant updates

`PARTICIPANT_JOIN` carries the number of messages a second the client may send, from which
`ProcessMessage` makes a period in milliseconds. `Update`, called once a frame, calls
`ParticipantUpdateFunction` when that period has passed since the last time.
-/

namespace XRNetwork

structure UnityParticipant where
  mMaxDataRate : UInt16
  mDtMs : ℕ
  mLastTimestamp : ℤ
  canUpdateToTheServer : Bool
  /-- The times at which `ParticipantUpdateFunction` has been called. -/
  updates : List ℤ

inductive UnityError
  | divideByZero

namespace UnityParticipant

def init : UnityParticipant := ⟨0, 0, 0, false, []⟩

variable (p : UnityParticipant)

/-- `ProcessMessage` of a `PARTICIPANT_JOIN`. Both operands of the division are integers. -/
def onParticipantJoin (maxDataRate : UInt16) : Outcome UnityError UnityParticipant :=
  let p := { p with mMaxDataRate := maxDataRate }
  if maxDataRate = 0 then .fault .divideByZero p
  else .ok { p with mDtMs := 1 / maxDataRate.toNat, canUpdateToTheServer := true }

/-- `Update`, while connected. -/
def update (timestamp : ℤ) : UnityParticipant :=
  if 0 < p.mDtMs ∧ (p.mDtMs : ℤ) ≤ timestamp - p.mLastTimestamp ∧ p.canUpdateToTheServer then
    { p with updates := p.updates ++ [timestamp], mLastTimestamp := timestamp }
  else p

/-- The frames of a while. -/
def frames (timestamps : List ℤ) : UnityParticipant := timestamps.foldl update p

end UnityParticipant

end XRNetwork
