import XRNetwork.Server
import XRNetwork.Lib.Audience

/-!
# The room and its audience

What the room is for, handlers, sockets and frames aside: sessions enter and leave it, and it tells
those who are in it who has arrived, who has left, and what the others send. `deeds` says what each
event does to them, by what the server finds when its handler runs and returns.
-/

namespace XRNetwork

/-- What a member is told. -/
inductive News
  | arrived (id : UInt64) (descriptor : Bytes)
  | left (id : UInt64)
  | update (m : XRMessage)

/-- The news a message brings, if it brings any. -/
def XRMessage.news (m : XRMessage) : Option News :=
  match m.kind with
  | some .participantNew => some (.arrived m.participantId (m.descriptor.getD []))
  | some .participantLeave => some (.left m.participantId)
  | some .participantUpdateAck => some (.update m)
  | _ => none

namespace Server

variable (w : Server)

/-- The arrival of the session, with as much of its descriptor as its size has in 32 bits. -/
def arrival (p : ℕ) : News :=
  .arrived (w.sessions p).mId
    ((w.sessions p).mDescriptor.take ((w.sessions p).mDescriptor.length % 2 ^ 32))

/-- The participant with the id leaves, if there is one, and the rest are told, whether or not. -/
def farewell (id : UInt64) : List (AudienceEvent ℕ News) :=
  ((w.getParticipantPtr id).map AudienceEvent.leave).toList ++ [.cast ∅ (.left id)]

/-- The others are told of the participant, and it is told of them in the order of their ids. -/
def introduction (p : ℕ) : List (AudienceEvent ℕ News) :=
  [.cast {p} (w.arrival p), .send p ((w.participants.filter fun q => q ≠ p).map w.arrival)]

/-- What the event does to the audience if its handler returns. -/
def deeds : Event → List (AudienceEvent ℕ News)
  | .read s i buf _ =>
    let m := receivedMessage buf
    match ((w.sessions s).reads[i]?).map PendingRead.loop, m.kind with
    | some .handshake, some .handshakeCredentialsAck =>
      if w.participants.length < w.maxParticipants.toNat then [.enter s] else []
    | some .room, some .participantJoinAck =>
      match m.json, w.getParticipantPtr m.participantId with
      | some json, some p =>
        (w.setSession s { w.sessions s with mDescriptor := json }).introduction p
      | _, _ => []
    | some .room, some .participantUpdateAck => [.cast {s} (.update m)]
    | some .room, some .participantLeaveAck => w.farewell (w.sessions s).mId
    | _, _ => []
  | .readFailed s i c =>
    match ((w.sessions s).reads[i]?).map PendingRead.loop with
    | some .room => if c.callback = .returns then w.farewell (w.sessions s).mId else []
    | _ => []
  | .writeFailed s _ c => if c.callback = .returns then w.farewell (w.sessions s).mId else []
  | .disconnectParticipant id => w.farewell id
  | _ => []

end Server

end XRNetwork
