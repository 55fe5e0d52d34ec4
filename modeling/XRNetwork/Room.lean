import XRNetwork.Session
import XRNetwork.Lib.KeyedSet

/-!
# The room

`network_room` with the sessions it holds pointers to. A session is named by its number, as a
pointer would name it; the set `participants_` is the list of those numbers in the order of the
sessions' `m_id`, the key its comparator reads through the pointer.

The trace is what an observer sees: the frames read, the calls of `deliver_byte`, the signals, and
what happens to the set. Each entry carries the number of the handler run it belongs to.
-/

namespace XRNetwork

/-- Which of a session's two read loops a read belongs to. -/
inductive ReadLoop
  /-- `handshake_session::do_read_handshake`. -/
  | handshake
  /-- `nr_session::do_read_byte`. -/
  | room
deriving DecidableEq, Repr

/-- An `async_read` that has not completed, and whether the socket was open when it was started:
one started on a closed socket can only fail. -/
structure PendingRead where
  loop : ReadLoop
  onOpen : Bool
deriving DecidableEq, Repr

/-- `nr_participant_info`, as far as `join` fills it. -/
structure ParticipantInfo where
  mId : UInt64
  ipv4Ip : Bytes

/-- A session, but for its write side. -/
structure Session where
  ip : Bytes
  mId : UInt64
  mDescriptor : Bytes
  infoPtr : Option ParticipantInfo
  deaf : Bool
  reads : List PendingRead

def Session.fresh (ip : Bytes) : Session := ⟨ip, 0, [], none, false, []⟩

inductive Act
  /-- A full frame of the session was read by one of its loops. -/
  | received (s : ℕ) (loop : ReadLoop) (m : XRMessage)
  /-- `deliver_byte` was called; `member` says whether `participants_` held the session then. -/
  | handed (dst : ℕ) (m : XRMessage) (member : Bool)
  | joinCalled (s : ℕ)
  | drew (s : ℕ) (id : UInt64)
  | inserted (s : ℕ)
  | erased (s : ℕ)
  | signalNew (s : ℕ) (id : UInt64)
  | signalLeave (s : ℕ) (id : UInt64)
  /-- `PARTICIPANT_LEAVE` about the session was given to `deliver_to_all`. -/
  | leaveBroadcast (s : ℕ) (id : UInt64)
  /-- A frame of the session made the read loop call the room. -/
  | initNewParticipant (s : ℕ) (id : UInt64)
  | relayed (s : ℕ)
  | disconnectParticipant (s : ℕ)

structure Server where
  sessions : ℕ → Session
  sides : ℕ → WriteSide
  /-- How many sessions have been made. -/
  made : ℕ
  participants : List ℕ
  maxParticipants : UInt16
  keepAlive : Bool
  /-- How many ids the room's `rng` has produced. -/
  drawn : ℕ
  serviceName : Bytes
  /-- Outstanding `async_accept`s. -/
  accepts : ℕ
  acceptorOpen : Bool
  /-- How many handlers and calls have been run. -/
  clock : ℕ
  trace : List (ℕ × Act)

/-- What the room's code takes from outside: the values its `rng` yields and the service id. -/
structure Env where
  rng : ℕ → UInt64
  serviceId : UInt64

/-- How the subscribers of a signal end. -/
inductive Callback
  | returns
  /-- They throw a `std::exception`. -/
  | throws
  /-- They throw something else. -/
  | throwsOther
deriving DecidableEq, Repr

/-- What a handler run finds undetermined: how the subscribers end, and what the stack holds where
`new_paticipant_to_all` and `send_list_of_players` put an `ST_PARTICIPANT_NEW`. -/
structure Choice where
  callback : Callback
  stackNew : Buffer 20480
  stackList : Buffer 20480

namespace Server

def log (a : Act) (w : Server) : Server := { w with trace := w.trace ++ [(w.clock, a)] }

def setSession (s : ℕ) (x : Session) (w : Server) : Server :=
  { w with sessions := Function.update w.sessions s x }

def setSide (s : ℕ) (x : WriteSide) (w : Server) : Server :=
  { w with sides := Function.update w.sides s x }

/-- `nr_session::deliver_byte` of a message's bytes. -/
def deliverByte (s : ℕ) (m : XRMessage) (w : Server) : Server :=
  (w.setSide s ((w.sides s).deliverByte m.data)).log (.handed s m (decide (s ∈ w.participants)))

/-- `nr_session::disconnect`. -/
def disconnect (s : ℕ) (w : Server) : Server := w.setSide s (w.sides s).close

def doReadByte (s : ℕ) (w : Server) : Server :=
  w.setSession s { w.sessions s with
    reads := (w.sessions s).reads ++ [⟨.room, (w.sides s).isOpen⟩] }

/-- The key `participants_` is ordered by. -/
def key (w : Server) (s : ℕ) : ℕ := (w.sessions s).mId.toNat

def getParticipantPtr (id : UInt64) (w : Server) : Option ℕ :=
  KeyedSet.find w.key id.toNat w.participants

def deliverToAll (m : XRMessage) (w : Server) : Server :=
  w.participants.foldl (fun w p => w.deliverByte p m) w

def deliverToAllExceptToOne (m : XRMessage) (exceptionId : UInt64) (w : Server) : Server :=
  w.participants.foldl
    (fun w p => if (w.sessions p).mId = exceptionId then w else w.deliverByte p m) w

/-- `participants_.erase(participant)`: it goes by the key. -/
def eraseParticipant (s : ℕ) (w : Server) : Server :=
  { w with
    participants := KeyedSet.erase w.key (w.key s) w.participants
    trace := w.trace ++
      (w.participants.filter fun p => w.key p = w.key s).map fun p => (w.clock, .erased p) }

/-- `participants_.insert(participant)`. -/
def insertParticipant (s : ℕ) (w : Server) : Server :=
  let participants := KeyedSet.insert w.key s w.participants
  { w with
    participants
    trace := w.trace ++
      if w.participants.length < participants.length then [(w.clock, .inserted s)] else [] }

/-- `participant->m_id = rng()`. -/
def drawId (E : Env) (s : ℕ) (w : Server) : Server :=
  { (w.setSession s { w.sessions s with mId := E.rng w.drawn }).log (.drew s (E.rng w.drawn)) with
    drawn := w.drawn + 1 }

def fillInfo (s : ℕ) (w : Server) : Server :=
  w.setSession s { w.sessions s with
    infoPtr := some ⟨(w.sessions s).mId, (w.sessions s).ip⟩ }

/-- `network_room::join`. Setting an option of a closed socket throws. -/
def join (E : Env) (c : Choice) (s : ℕ) (w : Server) : Outcome Fault Server :=
  let w := w.log (.joinCalled s)
  if w.maxParticipants.toNat ≤ w.participants.length then
    .ok (w.disconnect s)
  else
    let w := w.drawId E s
    if (w.sides s).isOpen then
      let w := (w.fillInfo s).insertParticipant s
      let w := w.log (.signalNew s (w.sessions s).mId)
      if c.callback = .returns then .ok w else .fault .exception w
    else .fault .exception w

/-- `new_paticipant_to_all`. -/
def newPaticipantToAll (c : Choice) (np : UInt64) (w : Server) : Outcome Fault Server :=
  match w.getParticipantPtr np with
  | none => .fault .nullDereference w
  | some nptr =>
    match (ParticipantNew.default 0 c.stackNew).describe np (w.sessions nptr).mDescriptor with
    | none => .fault .outOfBounds w
    | some newp => .ok (w.deliverToAllExceptToOne newp.toMessage np)

/-- The vector `send_list_of_players` builds. One `ST_PARTICIPANT_NEW` is reused for all, so its
buffer keeps what earlier descriptors left in it. -/
def playerList (w : Server) (self : UInt64) (newp : ParticipantNew) :
    List ℕ → Option (List ParticipantNew)
  | [] => some []
  | p :: ps =>
    if self = (w.sessions p).mId then playerList w self newp ps
    else
      match newp.describe (w.sessions p).mId (w.sessions p).mDescriptor with
      | none => none
      | some newp => (playerList w self newp ps).map (newp :: ·)

/-- `send_list_of_players`. -/
def sendListOfPlayers (c : Choice) (ptr : Option ℕ) (w : Server) : Outcome Fault Server :=
  match ptr with
  | none => if w.participants = [] then .ok w else .fault .nullDereference w
  | some s =>
    match w.playerList (w.sessions s).mId (ParticipantNew.default 0 c.stackList)
        w.participants with
    | none => .fault .outOfBounds w
    | some idVector => .ok (idVector.foldl (fun w newp => w.deliverByte s newp.toMessage) w)

/-- `init_new_participant`. -/
def initNewParticipant (c : Choice) (participantId : UInt64) (w : Server) :
    Outcome Fault Server :=
  let np := w.getParticipantPtr participantId
  (w.newPaticipantToAll c participantId).andThen fun w => w.sendListOfPlayers c np

/-- `PARTICIPANT_LEAVE` about a session, to all. -/
def broadcastLeave (s : ℕ) (id : UInt64) (w : Server) : Server :=
  (w.log (.leaveBroadcast s id)).deliverToAll (ParticipantLeave.mk id).toMessage

/-- `disconnect_participant(nr_participant_ptr)`: the id is read through the pointer whether or
not it is null. -/
def disconnectParticipantPtr (participant : Option ℕ) (w : Server) : Outcome Fault Server :=
  let w := match participant with
    | none => w
    | some p => w.eraseParticipant p
  match participant with
  | none => .fault .nullDereference w
  | some p => .ok (w.broadcastLeave p (w.sessions p).mId)

/-- `disconnect_participant(uint64_t)`. -/
def disconnectParticipant (participantId : UInt64) (w : Server) : Outcome Fault Server :=
  w.disconnectParticipantPtr (w.getParticipantPtr participantId)

def disconnectAllParticipants (w : Server) : Server :=
  w.participants.foldl (fun w p => w.disconnect p) w

/-- `network_room::leave`. An exception of a subscriber is caught here when it is a
`std::exception`. -/
def leave (c : Choice) (s : ℕ) (w : Server) : Outcome Fault Server :=
  let id := (w.sessions s).mId
  let w := w.log (.signalLeave s id)
  match c.callback with
  | .throws => .ok w
  | .throwsOther => .fault .exception w
  | .returns => .ok ((w.eraseParticipant s).broadcastLeave s id)

def setParticipantDeaf (participantId : UInt64) (deaf : Bool) (w : Server) : Server :=
  match w.getParticipantPtr participantId with
  | none => w
  | some p => w.setSession p { w.sessions p with deaf := deaf }

def getParticipantDeaf (participantId : UInt64) (w : Server) : Bool :=
  match w.getParticipantPtr participantId with
  | none => false
  | some p => (w.sessions p).deaf

/-- `get_participant_info`, which writes what it finds to the caller's struct. -/
def getParticipantInfo (participantId : UInt64) (nptr : ParticipantInfo) (w : Server) :
    Outcome Fault ParticipantInfo :=
  match w.getParticipantPtr participantId with
  | none => .ok nptr
  | some p =>
    match (w.sessions p).infoPtr with
    | none => .fault .nullDereference nptr
    | some infoPtr => .ok { nptr with mId := infoPtr.mId, ipv4Ip := infoPtr.ipv4Ip }

def participantExist (participantId : UInt64) (w : Server) : Bool :=
  (w.getParticipantPtr participantId).isSome

end Server

end XRNetwork
