import XRNetwork.Proofs.RoomCalls
import XRNetwork.Proofs.Codec

/-!
# What a step can do

Every step of the server changes the record of at most one session, perhaps the set, and appends
its acts to the trace under its own number: `Change`. `Case` lists the changes there are, each with
the event and what must hold for it, and `step_cases` says there are no others. What follows is
proved from the list; the handlers are not unfolded again.
-/

namespace XRNetwork

/-- What a step leaves, write sides apart, and whether its handler returns. -/
structure Change where
  session : ℕ
  record : Session
  participants : List ℕ
  made : ℕ
  drawn : ℕ
  acts : List Act
  returns : Bool

namespace Server

variable (w : Server)

/-- No change, written as one of the session `s`. -/
def same (s : ℕ) : Change := ⟨s, w.sessions s, w.participants, w.made, w.drawn, [], true⟩

@[simp] theorem same_session (s : ℕ) : (w.same s).session = s := rfl
@[simp] theorem same_record (s : ℕ) : (w.same s).record = w.sessions s := rfl
@[simp] theorem same_participants (s : ℕ) : (w.same s).participants = w.participants := rfl
@[simp] theorem same_made (s : ℕ) : (w.same s).made = w.made := rfl
@[simp] theorem same_drawn (s : ℕ) : (w.same s).drawn = w.drawn := rfl
@[simp] theorem same_acts (s : ℕ) : (w.same s).acts = [] := rfl
@[simp] theorem same_returns (s : ℕ) : (w.same s).returns = true := rfl

end Server

/-- The outcome of a step of `w` is that of the change. -/
structure Change.Gives (ch : Change) (w : Server) (o : Outcome Fault Server) : Prop where
  sessions : o.state.sessions = Function.update w.sessions ch.session ch.record
  participants : o.state.participants = ch.participants
  made : o.state.made = ch.made
  drawn : o.state.drawn = ch.drawn
  clock : o.state.clock = w.clock + 1
  trace : o.state.trace = w.trace ++ ch.acts.map fun a => (w.clock + 1, a)
  returns : ch.returns = true ↔ o = .ok o.state

/-- The act of inserting a session, when the set has grown by it. -/
def insertActs (ps ps' : List ℕ) (s : ℕ) : List Act :=
  if ps.length < ps'.length then [.inserted s] else []

theorem insertActs_map (t : ℕ) (ps ps' : List ℕ) (s : ℕ) :
    (if ps.length < ps'.length then [(t, Act.inserted s)] else []) =
      (insertActs ps ps' s).map fun a => (t, a) := by
  unfold insertActs
  split_ifs <;> rfl

/-- Events whose handlers change neither the set nor the trace. -/
def Event.quiet : Event → Bool
  | .accept none _ | .acceptFailed | .posted _ | .writeSome _ _ _ | .writeDone _ _
  | .disconnectAllParticipants | .setParticipantDeaf _ _ | .setMaxParticipants _
  | .setKeepAlive _ | .setServiceName _ | .stop => true
  | _ => false

namespace Server

variable (w : Server)

/-- The members left when the members with the id of `s` are erased. -/
def remaining (s : ℕ) : List ℕ := KeyedSet.erase w.key (w.key s) w.participants

/-- Erasing the members with the id of `s`, and announcing it to the members left. -/
def departureActs (s : ℕ) : List Act :=
  ((w.participants.filter fun p => w.key p = w.key s).map Act.erased) ++
    .leaveBroadcast s (w.sessions s).mId :: handedActs (w.remaining s)
      ((w.remaining s).map fun p => (p, (ParticipantLeave.mk (w.sessions s).mId).toMessage))

/-- The session's record when its `i`-th read is over and the reads `rs` are started. -/
def readOver (s i : ℕ) (rs : List PendingRead) : Session :=
  { w.sessions s with reads := (w.sessions s).reads.eraseIdx i ++ rs }

/-- The server as `init_new_participant` finds it: the session's descriptor is the one it sent. -/
def described (s : ℕ) (json : Bytes) : Server :=
  w.setSession s { w.sessions s with mDescriptor := json }

/-- What the handshake loop appends to the session's descriptor when it reads the message. -/
def configured (m : XRMessage) : Bytes :=
  if m.kind = some .handshakeHelloAck then m.configuration.getD [] else []

/-- What `init_new_participant` hands out when it returns. -/
def Introduces (c : Choice) (id : UInt64) (l : List (ℕ × XRMessage)) : Prop :=
  ∃ p newp list, w.getParticipantPtr id = some p
    ∧ (ParticipantNew.default 0 c.stackNew).describe id (w.sessions p).mDescriptor = some newp
    ∧ w.playerList (w.sessions p).mId (.default 0 c.stackList) w.participants = some list
    ∧ l = ((w.others id).map fun q => (q, newp.toMessage)) ++ list.map fun np => (p, np.toMessage)

/-- What `new_paticipant_to_all` hands out. -/
def announcements (c : Choice) (id : UInt64) : List (ℕ × XRMessage) :=
  match w.getParticipantPtr id with
  | none => []
  | some p =>
    match (ParticipantNew.default 0 c.stackNew).describe id (w.sessions p).mDescriptor with
    | none => []
    | some newp => (w.others id).map fun q => (q, newp.toMessage)

/-- The event is one whose handler calls `leave` with the session, and `x` the session's record
when it does. -/
inductive Leaves (c : Choice) (s : ℕ) : Event → Session → Prop
  | readFailed {i : ℕ} {b : Bool} (h : (w.sessions s).reads[i]? = some ⟨.room, b⟩) :
      Leaves c s (.readFailed s i c) (w.readOver s i [])
  | writeFailed {i : ℕ} : Leaves c s (.writeFailed s i c) (w.sessions s)

/-- The changes a step can make. -/
inductive Case (E : Env) : Event → Change → Prop
  | quiet {e : Event} (s : ℕ) (d b : Bool) (he : e.quiet) :
      Case E e { w.same s with record := { w.sessions s with deaf := d }, returns := b }
  | accepted (ip : Bytes) (t : UInt64) (ms : List XRMessage) (b : Bool)
      (hms : ∀ m ∈ ms, m.kind = some .handshakeHello) :
      Case E (.accept (some ip) t) { w.same w.made with
        record := { Session.fresh ip with reads := [⟨.handshake, true⟩] }
        made := w.made + 1
        acts := handedActs w.participants (ms.map fun m => (w.made, m))
        returns := b }
  | handshake {s i : ℕ} {buf : Buffer 65536} {c : Choice} (rs : List PendingRead) (d : Bytes)
      (ms : List XRMessage) (b : Bool)
      (hr : (w.sessions s).reads[i]? = some ⟨.handshake, true⟩)
      (hk : (receivedMessage buf).kind ≠ some .handshakeCredentialsAck)
      (hrs : rs = [] ∨ rs = [⟨.handshake, (w.sides s).isOpen⟩])
      (hms : ∀ m ∈ ms, m.kind = some .handshakeCredentials)
      (hd : d = (w.sessions s).mDescriptor ++ configured (receivedMessage buf)) :
      Case E (.read s i buf c) { w.same s with
        record := { w.readOver s i rs with mDescriptor := d }
        acts := .received s .handshake (receivedMessage buf)
          :: handedActs w.participants (ms.map fun m => (s, m))
        returns := b }
  | refused {s i : ℕ} {buf : Buffer 65536} {c : Choice} (o : Bool)
      (hr : (w.sessions s).reads[i]? = some ⟨.handshake, true⟩)
      (hk : (receivedMessage buf).kind = some .handshakeCredentialsAck)
      (hfull : w.maxParticipants.toNat ≤ w.participants.length)
      (hgood : o = true → goodCredentials (receivedMessage buf)) :
      Case E (.read s i buf c) { w.same s with
        record := w.readOver s i [⟨.room, o⟩]
        acts := .received s .handshake (receivedMessage buf) :: .joinCalled s
          :: handedActs w.participants [(s, (participantJoin (w.sessions s).mId).toMessage)] }
  | joinFailed {s i : ℕ} {buf : Buffer 65536} {c : Choice}
      (hr : (w.sessions s).reads[i]? = some ⟨.handshake, true⟩)
      (hk : (receivedMessage buf).kind = some .handshakeCredentialsAck)
      (hroom : w.participants.length < w.maxParticipants.toNat) :
      Case E (.read s i buf c) { w.same s with
        record := { w.readOver s i [⟨.room, false⟩] with mId := E.rng w.drawn }
        drawn := w.drawn + 1
        acts := [.received s .handshake (receivedMessage buf), .joinCalled s,
          .drew s (E.rng w.drawn)]
        returns := false }
  | joined {s i : ℕ} {buf : Buffer 65536} {c : Choice} (x : Session) (ps : List ℕ)
      (hr : (w.sessions s).reads[i]? = some ⟨.handshake, true⟩)
      (hk : (receivedMessage buf).kind = some .handshakeCredentialsAck)
      (hgood : goodCredentials (receivedMessage buf))
      (hroom : w.participants.length < w.maxParticipants.toNat)
      (hx : x = { w.readOver s i [⟨.room, true⟩] with
        mId := E.rng w.drawn, infoPtr := some ⟨E.rng w.drawn, (w.sessions s).ip⟩ })
      (hps : ps = KeyedSet.insert (fun p => (Function.update w.sessions s x p).mId.toNat) s
        w.participants) :
      Case E (.read s i buf c) { w.same s with
        record := x
        participants := ps
        drawn := w.drawn + 1
        acts := [.received s .handshake (receivedMessage buf), .joinCalled s,
            .drew s (E.rng w.drawn)]
          ++ (insertActs w.participants ps s ++ (.signalNew s (E.rng w.drawn) :: if c.callback = .returns then
            handedActs ps [(s, (participantJoin (E.rng w.drawn)).toMessage)] else []))
        returns := decide (c.callback = .returns) }
  | joinAckCut {s i : ℕ} {buf : Buffer 65536} {c : Choice}
      (hr : (w.sessions s).reads[i]? = some ⟨.room, true⟩)
      (hk : (receivedMessage buf).kind = some .participantJoinAck)
      (hj : (receivedMessage buf).json = none) :
      Case E (.read s i buf c) { w.same s with
        record := w.readOver s i []
        acts := [.received s .room (receivedMessage buf)]
        returns := false }
  | joinAckFault {s i : ℕ} {buf : Buffer 65536} {c : Choice} (json : Bytes)
      (l : List (ℕ × XRMessage))
      (hr : (w.sessions s).reads[i]? = some ⟨.room, true⟩)
      (hk : (receivedMessage buf).kind = some .participantJoinAck)
      (hj : (receivedMessage buf).json = some json)
      (hl : ∀ x ∈ l, x.1 ∈ w.participants ∧ x.2.kind = some .participantNew)
      (hno : ∀ l, ¬ (w.described s json).Introduces c (receivedMessage buf).participantId l)
      (hto : l = (w.described s json).announcements c (receivedMessage buf).participantId) :
      Case E (.read s i buf c) { w.same s with
        record := { w.readOver s i [] with mDescriptor := json }
        acts := .received s .room (receivedMessage buf)
          :: .initNewParticipant s (receivedMessage buf).participantId
          :: handedActs w.participants l
        returns := false }
  | joinAck {s i : ℕ} {buf : Buffer 65536} {c : Choice} (json : Bytes) (l : List (ℕ × XRMessage))
      (hr : (w.sessions s).reads[i]? = some ⟨.room, true⟩)
      (hk : (receivedMessage buf).kind = some .participantJoinAck)
      (hj : (receivedMessage buf).json = some json)
      (hl : (w.described s json).Introduces c (receivedMessage buf).participantId l) :
      Case E (.read s i buf c) { w.same s with
        record := { w.readOver s i [⟨.room, (w.sides s).isOpen⟩] with mDescriptor := json }
        acts := .received s .room (receivedMessage buf)
          :: .initNewParticipant s (receivedMessage buf).participantId
          :: handedActs w.participants l }
  | ignored {s i : ℕ} {buf : Buffer 65536} {c : Choice} (o : Bool)
      (hr : (w.sessions s).reads[i]? = some ⟨.room, true⟩)
      (hj : (receivedMessage buf).kind ≠ some .participantJoinAck)
      (hu : (receivedMessage buf).kind ≠ some .participantUpdateAck)
      (hl : (receivedMessage buf).kind ≠ some .participantLeaveAck) :
      Case E (.read s i buf c) { w.same s with
        record := w.readOver s i [⟨.room, o⟩]
        acts := [.received s .room (receivedMessage buf)] }
  | relay {s i : ℕ} {buf : Buffer 65536} {c : Choice}
      (hr : (w.sessions s).reads[i]? = some ⟨.room, true⟩)
      (hk : (receivedMessage buf).kind = some .participantUpdateAck) :
      Case E (.read s i buf c) { w.same s with
        record := w.readOver s i [⟨.room, (w.sides s).isOpen⟩]
        acts := .received s .room (receivedMessage buf) :: .relayed s
          :: handedActs w.participants
            ((w.others (w.sessions s).mId).map fun p => (p, receivedMessage buf)) }
  | leaveAckFault {s i : ℕ} {buf : Buffer 65536} {c : Choice}
      (hr : (w.sessions s).reads[i]? = some ⟨.room, true⟩)
      (hk : (receivedMessage buf).kind = some .participantLeaveAck)
      (hp : w.getParticipantPtr (w.sessions s).mId = none) :
      Case E (.read s i buf c) { w.same s with
        record := w.readOver s i []
        acts := [.received s .room (receivedMessage buf), .disconnectParticipant s]
        returns := false }
  | leaveAck {s i : ℕ} {buf : Buffer 65536} {c : Choice} (p : ℕ) (o : Bool)
      (hr : (w.sessions s).reads[i]? = some ⟨.room, true⟩)
      (hk : (receivedMessage buf).kind = some .participantLeaveAck)
      (hp : w.getParticipantPtr (w.sessions s).mId = some p) :
      Case E (.read s i buf c) { w.same s with
        record := w.readOver s i [⟨.room, o⟩]
        participants := w.remaining p
        acts := .received s .room (receivedMessage buf) :: .disconnectParticipant s
          :: w.departureActs p }
  | handshakeFailed {s i : ℕ} {c : Choice} (b : Bool)
      (hr : (w.sessions s).reads[i]? = some ⟨.handshake, b⟩) :
      Case E (.readFailed s i c) { w.same s with record := w.readOver s i [] }
  | leaveCut {e : Event} {s : ℕ} {c : Choice} {x : Session} (he : w.Leaves c s e x)
      (hc : c.callback ≠ .returns) :
      Case E e { w.same s with
        record := x
        acts := [.signalLeave s (w.sessions s).mId]
        returns := decide (c.callback = .throws) }
  | leave {e : Event} {s : ℕ} {c : Choice} {x : Session} (he : w.Leaves c s e x)
      (hc : c.callback = .returns) :
      Case E e { w.same s with
        record := x
        participants := w.remaining s
        acts := .signalLeave s (w.sessions s).mId :: w.departureActs s }
  | removeFault {id : UInt64} (s : ℕ) (hp : w.getParticipantPtr id = none) :
      Case E (.disconnectParticipant id) { w.same s with returns := false }
  | remove {id : UInt64} (p : ℕ) (hp : w.getParticipantPtr id = some p) :
      Case E (.disconnectParticipant id) { w.same p with
        participants := w.remaining p
        acts := w.departureActs p }

/-! ## There are no others -/

theorem key_def : w.key = fun s => (w.sessions s).mId.toNat := rfl

variable {w} {E : Env} {e : Event} {o : Outcome Fault Server}

/-- What `step_cases` says of one event. -/
def Explained (w : Server) (E : Env) (e : Event) (o : Outcome Fault Server) : Prop :=
  ∃ ch, w.Case E e ch ∧ ch.Gives w o

theorem quiet_cases (he : e.quiet) (hs : w.step E e = some o) : w.Explained E e o := by
  -- nothing that counts changes, except that a session may be deaf now
  have key : ∀ (s : ℕ) (d : Bool) (o : Outcome Fault Server) (b : Bool),
      o.state.sessions = Function.update w.sessions s { w.sessions s with deaf := d } →
      o.state.participants = w.participants → o.state.made = w.made → o.state.drawn = w.drawn →
      o.state.clock = w.clock + 1 → o.state.trace = w.trace → (b = true ↔ o = .ok o.state) →
      w.Explained E e o := fun s d o b h1 h2 h3 h4 h5 h6 h7 =>
    ⟨_, .quiet s d b he, ⟨h1, h2, h3, h4, h5, by simpa using h6, h7⟩⟩
  have hsame : w.sessions
      = Function.update w.sessions 0 { w.sessions 0 with deaf := (w.sessions 0).deaf } := by simp
  have hput : ∀ (s : ℕ) (x : Outcome Fault WriteSide),
      w.Explained E e (w.tick.putSide s x) := by
    intro s x
    cases x with
    | ok x => exact key 0 _ _ true hsame rfl rfl rfl rfl rfl (by simp [putSide])
    | fault f x => exact key 0 _ _ false hsame rfl rfl rfl rfl rfl (by simp [putSide])
  cases e with
  | accept ip t =>
    cases ip with
    | some ip => cases he
    | none =>
      simp only [step, onAccept] at hs
      split_ifs at hs
      cases hs
      exact key 0 _ _ false hsame rfl rfl rfl rfl rfl (by simp)
  | acceptFailed =>
    simp only [step] at hs
    split_ifs at hs
    cases hs
    exact key 0 _ _ true hsame rfl rfl rfl rfl rfl (by simp)
  | posted s =>
    simp only [step, Option.map_eq_some_iff] at hs
    obtain ⟨x, -, rfl⟩ := hs
    exact hput s x
  | writeSome s i k =>
    simp only [step, Option.map_eq_some_iff] at hs
    obtain ⟨x, -, rfl⟩ := hs
    exact hput s (.ok x)
  | writeDone s i =>
    simp only [step, Option.map_eq_some_iff] at hs
    obtain ⟨x, -, rfl⟩ := hs
    exact hput s x
  | disconnectAllParticipants =>
    cases hs
    rw [disconnectAllParticipants_eq]
    exact key 0 _ _ true hsame rfl rfl rfl rfl rfl (by simp)
  | stop =>
    cases hs
    rw [disconnectAllParticipants_eq]
    exact key 0 _ _ true hsame rfl rfl rfl rfl rfl (by simp)
  | setParticipantDeaf id deaf =>
    cases hs
    unfold setParticipantDeaf
    rcases hp : w.tick.getParticipantPtr id with _ | p
    · exact key 0 _ _ true hsame rfl rfl rfl rfl rfl (by simp)
    · exact key p deaf _ true rfl rfl rfl rfl rfl rfl (by simp)
  | setMaxParticipants n | setKeepAlive b | setServiceName name =>
    cases hs
    exact key 0 _ _ true hsame rfl rfl rfl rfl rfl (by simp)
  | read | readFailed | writeFailed | disconnectParticipant => cases he

theorem credentials_cases {s i : ℕ} {buf : Buffer 65536} {c : Choice}
    (hr : (w.sessions s).reads[i]? = some ⟨.handshake, true⟩)
    (hk : (receivedMessage buf).kind = some .handshakeCredentialsAck) :
    w.Explained E (.read s i buf c)
      ((w.tick.dropRead s i).onRead E c s .handshake (receivedMessage buf)) := by
  unfold onRead onReadHandshake
  simp only [hk, checkHandshakeCredentialsAck, join]
  by_cases hgood : goodCredentials (receivedMessage buf)
  · simp only [if_pos hgood]
    split_ifs with hfull hopen hc
    · refine ⟨_, .refused (w.sides s).isOpen hr hk hfull fun _ => hgood, ?_⟩
      constructor <;> simp [readOver, tick, dropRead, setSession, setSide, doReadByte,
        disconnect, deliverByte_eq, deliverList_trace]
    · refine ⟨_, .joined _ _ hr hk hgood (not_le.1 hfull) rfl rfl, ?_⟩
      have hopen : (w.sides s).isOpen = true := hopen
      constructor <;> simp [readOver, tick, dropRead, setSession, doReadByte,
        deliverByte_eq, deliverList_trace, drawId, fillInfo, insertParticipant, key_def,
        insertActs_map, hc, hopen]
    · refine ⟨_, .joined _ _ hr hk hgood (not_le.1 hfull) rfl rfl, ?_⟩
      have hopen : (w.sides s).isOpen = true := hopen
      constructor <;> simp [readOver, tick, dropRead, setSession, doReadByte, drawId,
        fillInfo, insertParticipant, key_def, insertActs_map, hc, hopen]
    · have hopen : ¬ (w.sides s).isOpen = true := hopen
      refine ⟨_, .joinFailed hr hk (not_le.1 hfull), ?_⟩
      constructor <;> simp [readOver, tick, dropRead, setSession, doReadByte, drawId, hopen]
  · simp only [if_neg hgood]
    split_ifs with hfull hopen hc
    · refine ⟨_, .refused false hr hk hfull (by simp), ?_⟩
      constructor <;> simp [readOver, tick, dropRead, setSession, setSide, doReadByte,
        disconnect, deliverByte_eq, deliverList_trace, WriteSide.close]
    -- the socket has just been closed, so setting its option throws
    · simp [doReadByte, drawId, disconnect, setSide, setSession, WriteSide.close] at hopen
    · simp [doReadByte, drawId, disconnect, setSide, setSession, WriteSide.close] at hopen
    · refine ⟨_, .joinFailed hr hk (not_le.1 hfull), ?_⟩
      constructor <;> simp [readOver, tick, dropRead, setSession, setSide, doReadByte, drawId,
        disconnect, WriteSide.close]

theorem handshake_cases {s i : ℕ} {buf : Buffer 65536} {c : Choice}
    (hr : (w.sessions s).reads[i]? = some ⟨.handshake, true⟩) :
    w.Explained E (.read s i buf c)
      ((w.tick.dropRead s i).onRead E c s .handshake (receivedMessage buf)) := by
  by_cases hk : (receivedMessage buf).kind = some .handshakeCredentialsAck
  · exact credentials_cases hr hk
  by_cases hk' : (receivedMessage buf).kind = some .handshakeHelloAck
  · unfold onRead onReadHandshake
    simp only [hk', checkHandshakeHelloAck]
    rcases hc : (receivedMessage buf).configuration with _ | d
    · refine ⟨_, .handshake [] (w.sessions s).mDescriptor [] false hr hk (.inl rfl) (by simp)
        (by simp [configured, hc]), ?_⟩
      constructor <;> simp [readOver, tick, dropRead, setSession, handedActs]
    · refine ⟨_, .handshake _ ((w.sessions s).mDescriptor ++ d)
        [HandshakeCredentials.default.toMessage] true hr hk (.inr rfl) (by simp)
        (by simp [configured, hk', hc]), ?_⟩
      constructor <;> simp [readOver, tick, dropRead, setSession, doReadHandshake,
        deliverByte_eq, deliverList_trace]
  · have ho : (w.tick.dropRead s i).onRead E c s .handshake (receivedMessage buf)
        = .ok (((w.tick.dropRead s i).log (.received s .handshake (receivedMessage buf))
          ).doReadHandshake s) := by
      unfold onRead onReadHandshake
      simp only []
    rw [ho]
    refine ⟨_, .handshake _ (w.sessions s).mDescriptor [] true hr hk (.inr rfl) (by simp)
      (by simp [configured, hk']), ?_⟩
    constructor <;> simp [readOver, tick, dropRead, setSession, doReadHandshake]

theorem SameRoom.introduces {w w' : Server} (h : SameRoom w w') {c : Choice} {id : UInt64}
    {l : List (ℕ × XRMessage)} : w'.Introduces c id l ↔ w.Introduces c id l := by
  unfold Introduces
  simp only [h.getParticipantPtr, h.mId, h.mDescriptor, h.playerList, h.participants, h.others]

theorem SameRoom.announcements {w w' : Server} (h : SameRoom w w') (c : Choice) (id : UInt64) :
    w'.announcements c id = w.announcements c id := by
  unfold Server.announcements
  simp only [h.getParticipantPtr, h.mDescriptor, h.others]

theorem introduces_cases (w : Server) (c : Choice) (id : UInt64) :
    (∃ l f, w.initNewParticipant c id = .fault f (w.deliverList l) ∧
      (∀ x ∈ l, x.1 ∈ w.participants ∧ x.2.kind = some .participantNew) ∧
      (∀ l, ¬ w.Introduces c id l) ∧ l = w.announcements c id)
    ∨ ∃ l, w.Introduces c id l ∧ w.initNewParticipant c id = .ok (w.deliverList l) := by
  rcases w.initNewParticipant_cases c id with
    ⟨hno, h⟩ | ⟨p, hp, ⟨hno, h⟩ | ⟨newp, hn, ⟨hno, h⟩ | ⟨list, hl, h⟩⟩⟩
  · refine .inl ⟨[], _, h, by simp, ?_, by simp [announcements, hno]⟩
    rintro l ⟨p, newp, list, hp, -⟩
    simp [hno] at hp
  · refine .inl ⟨[], _, h, by simp, ?_, by simp [announcements, hp, hno]⟩
    rintro l ⟨p', newp, list, hp', hd, -⟩
    obtain rfl : p = p' := by simpa [hp] using hp'
    simp [hno] at hd
  · refine .inl ⟨_, _, h, fun x hx => ?_, ?_, by simp [announcements, hp, hn]⟩
    · obtain ⟨q, hq, rfl⟩ := List.mem_map.1 hx
      exact ⟨(mem_others.1 hq).1, kind_participantNew _⟩
    · rintro l ⟨p', newp', list, hp', -, hl, -⟩
      obtain rfl : p = p' := by simpa [hp] using hp'
      simp [hno] at hl
  · exact .inr ⟨_, ⟨p, newp, list, hp, hn, hl, rfl⟩, h⟩

theorem SameRoom.remaining {w w' : Server} (h : SameRoom w w') (p : ℕ) :
    w'.remaining p = w.remaining p := by
  unfold Server.remaining
  rw [h.key, h.participants]

theorem SameRoom.departureActs {w w' : Server} (h : SameRoom w w') (p : ℕ) :
    w'.departureActs p = w.departureActs p := by
  unfold Server.departureActs
  rw [h.key, h.participants, h.mId, h.remaining]

theorem depart_eq (w : Server) (p : ℕ) : ∃ sides,
    (w.eraseParticipant p).broadcastLeave p (w.sessions p).mId = { w with
      sides
      participants := w.remaining p
      trace := w.trace ++ (w.departureActs p).map fun a => (w.clock, a) } := by
  refine ⟨((w.eraseParticipant p).broadcastLeave p (w.sessions p).mId).sides, ?_⟩
  rw [broadcastLeave_eq, deliverList_eq]
  simp only [eraseParticipant, departureActs, log, handedActs, leaveFrames, remaining, key_def,
    List.map_append, List.map_map, List.map_cons, List.append_assoc, List.cons_append,
    List.nil_append]
  rfl

theorem sameRoom_dropRead (w : Server) (s i : ℕ) : SameRoom w (w.tick.dropRead s i) :=
  have h := w.tick.sameRoom_setSession (s := s) (x := { w.sessions s with
    reads := (w.sessions s).reads.eraseIdx i }) rfl rfl
  ⟨h.participants, h.mId, h.mDescriptor⟩

theorem onRoomFrame_joinAck (w : Server) {c : Choice} {s : ℕ} {m : XRMessage} {json : Bytes}
    (hk : m.kind = some .participantJoinAck) (hj : m.json = some json) :
    w.onRoomFrame c s m = ((w.described s json).log
      (.initNewParticipant s m.participantId)).initNewParticipant c m.participantId := by
  unfold onRoomFrame
  rw [hk, hj]
  rfl

theorem room_cases {s i : ℕ} {buf : Buffer 65536} {c : Choice}
    (hr : (w.sessions s).reads[i]? = some ⟨.room, true⟩) :
    w.Explained E (.read s i buf c)
      ((w.tick.dropRead s i).onRead E c s .room (receivedMessage buf)) := by
  unfold onRead onReadRoom
  simp only []
  by_cases hja : (receivedMessage buf).kind = some .participantJoinAck
  · rcases hj : (receivedMessage buf).json with _ | json
    · simp only [onRoomFrame, hja, hj]
      refine ⟨_, .joinAckCut hr hja hj, ?_⟩
      constructor <;> simp [readOver, tick, dropRead, setSession]
    · rw [onRoomFrame_joinAck _ hja hj]
      have hsame : SameRoom (w.described s json) ((((w.tick.dropRead s i).log
          (.received s .room (receivedMessage buf))).described s json).log
            (.initNewParticipant s (receivedMessage buf).participantId)) := by
        refine ⟨rfl, fun p => ?_, fun p => ?_⟩ <;> rcases eq_or_ne p s with rfl | h <;>
          simp [described, setSession, tick, dropRead, *]
      rcases introduces_cases _ c (receivedMessage buf).participantId with
        ⟨l, f, h, hl, hno, hto⟩ | ⟨l, hl, h⟩
      · rw [h]
        refine ⟨_, .joinAckFault json l hr hja hj hl (fun l hl => hno l (hsame.introduces.2 hl))
          (hto.trans (hsame.announcements c _)), ?_⟩
        constructor <;> simp [readOver, described, tick, dropRead, setSession, deliverList_trace]
      · rw [h]
        refine ⟨_, .joinAck json l hr hja hj (hsame.introduces.1 hl), ?_⟩
        constructor <;> simp [readOver, described, tick, dropRead, setSession, doReadByte,
          deliverList_trace]
  have hsame : ∀ a, SameRoom w (((w.tick.dropRead s i).log
      (.received s .room (receivedMessage buf))).log a) := fun a =>
    let h := w.sameRoom_dropRead s i
    ⟨rfl, h.mId, h.mDescriptor⟩
  by_cases hu : (receivedMessage buf).kind = some .participantUpdateAck
  · simp only [onRoomFrame, hu, deliverToAllExceptToOne_eq, (hsame _).others]
    refine ⟨_, .relay hr hu, ?_⟩
    constructor <;> simp [readOver, tick, dropRead, setSession, doReadByte, deliverList_trace]
  by_cases hl : (receivedMessage buf).kind = some .participantLeaveAck
  · simp only [onRoomFrame, hl]
    have hid : ((w.tick.dropRead s i).sessions s).mId = (w.sessions s).mId :=
      (w.sameRoom_dropRead s i).mId s
    rcases hp : w.getParticipantPtr (w.sessions s).mId with _ | p
    · rw [disconnectParticipant_of_none _ ((hsame _).getParticipantPtr _ ▸ hid ▸ hp)]
      refine ⟨_, .leaveAckFault hr hl hp, ?_⟩
      constructor <;> simp [readOver, tick, dropRead, setSession]
    · rw [disconnectParticipant_of_some _ ((hsame _).getParticipantPtr _ ▸ hid ▸ hp)]
      obtain ⟨sides, h⟩ := depart_eq (((w.tick.dropRead s i).log
        (.received s .room (receivedMessage buf))).log (.disconnectParticipant s)) p
      rw [h, (hsame _).remaining, (hsame _).departureActs]
      refine ⟨_, .leaveAck p (sides s).isOpen hr hl hp, ?_⟩
      constructor <;> simp [readOver, tick, dropRead, setSession, doReadByte]
  · have ho : ∀ w' : Server, w'.onRoomFrame c s (receivedMessage buf) = .ok w'
        ∨ w'.onRoomFrame c s (receivedMessage buf) = .ok (w'.disconnect s) := by
      intro w'
      unfold onRoomFrame
      split
      · contradiction
      · exact .inl rfl
      · contradiction
      · contradiction
      · exact .inr rfl
    rcases ho ((w.tick.dropRead s i).log (.received s .room (receivedMessage buf))) with h | h
    · rw [h]
      refine ⟨_, .ignored (w.sides s).isOpen hr hja hu hl, ?_⟩
      constructor <;> simp [readOver, tick, dropRead, setSession, doReadByte]
    · rw [h]
      refine ⟨_, .ignored false hr hja hu hl, ?_⟩
      constructor <;> simp [readOver, tick, dropRead, setSession, setSide, disconnect, doReadByte,
        WriteSide.close]

theorem leave_cases {s : ℕ} {c : Choice} {x : Session} {w' : Server} (he : w.Leaves c s e x)
    (h : w' = { w with
      sessions := Function.update w.sessions s x
      clock := w.clock + 1
      sides := w'.sides }) :
    w.Explained E e (w'.leave c s) := by
  have hid : (w'.sessions s).mId = (w.sessions s).mId := by
    rw [h]
    cases he <;> simp [readOver]
  have hsame : ∀ a, SameRoom w (w'.log a) := by
    intro a
    have hx := w.sameRoom_setSession (s := s) (x := x) (by cases he <;> rfl) (by cases he <;> rfl)
    rw [h]
    exact ⟨hx.participants, hx.mId, hx.mDescriptor⟩
  unfold leave
  simp only [hid]
  rcases hc : c.callback
  · refine ⟨_, .leave he hc, ?_⟩
    obtain ⟨sides, hd⟩ := depart_eq (w'.log (.signalLeave s (w.sessions s).mId)) s
    rw [log_sessions, hid, (hsame _).remaining, (hsame _).departureActs] at hd
    simp only []
    rw [hd, h]
    constructor <;> simp
  · refine ⟨_, .leaveCut he (by simp [hc]), ?_⟩
    constructor <;> rw [h] <;> simp [hc]
  · refine ⟨_, .leaveCut he (by simp [hc]), ?_⟩
    constructor <;> rw [h] <;> simp [hc]

/-- Every step is one of the cases. -/
theorem step_cases (hs : w.step E e = some o) : ∃ ch, w.Case E e ch ∧ ch.Gives w o := by
  by_cases he : e.quiet
  · exact quiet_cases he hs
  cases e with
  | accept ip t =>
    rcases ip with _ | ip
    · simp [Event.quiet] at he
    simp only [step] at hs
    split_ifs at hs
    cases hs
    unfold onAccept doStartHandshake
    simp only [doReadHandshake, setSession, setSide, Function.update_self, tick]
    rcases hb : buildHandshakeHello E.serviceId (Session.fresh ip).mId t w.serviceName with _ | hh
    · refine ⟨_, .accepted ip t [] false (by simp), ?_⟩
      constructor <;> simp [Session.fresh, WriteSide.fresh]
    · refine ⟨_, .accepted ip t [hh.toMessage] true (by simp), ?_⟩
      constructor <;> simp [Session.fresh, WriteSide.fresh, deliverByte_eq, deliverList_trace]
  | read s i buf c =>
    simp only [step] at hs
    split at hs
    · cases hs
      rename_i loop hr
      cases loop with
      | handshake => exact handshake_cases hr
      | room => exact room_cases hr
    · cases hs
  | readFailed s i c =>
    simp only [step] at hs
    split at hs
    · cases hs
      rename_i loop b hr
      cases loop with
      | handshake =>
        refine ⟨_, .handshakeFailed b hr, ?_⟩
        constructor <;> simp [onReadError, readOver, tick, dropRead, setSession, disconnect, setSide]
      | room =>
        refine leave_cases (.readFailed hr) ?_
        simp [readOver, dropRead, setSession, tick]
    · cases hs
  | writeFailed s i c =>
    simp only [step, Option.map_eq_some_iff] at hs
    obtain ⟨x, -, rfl⟩ := hs
    refine leave_cases .writeFailed ?_
    simp [setSide, tick]
  | disconnectParticipant id =>
    cases hs
    have hsame : SameRoom w w.tick := ⟨rfl, fun _ => rfl, fun _ => rfl⟩
    rcases hp : w.getParticipantPtr id with _ | p
    · rw [disconnectParticipant_of_none _ (hsame.getParticipantPtr _ ▸ hp)]
      refine ⟨_, .removeFault 0 hp, ?_⟩
      constructor <;> simp [tick]
    · rw [disconnectParticipant_of_some _ (hsame.getParticipantPtr _ ▸ hp)]
      obtain ⟨sides, h⟩ := depart_eq w.tick p
      rw [h, hsame.remaining, hsame.departureActs]
      refine ⟨_, .remove p hp, ?_⟩
      constructor <;> simp [tick]
  | _ => simp [Event.quiet] at he

end Server

end XRNetwork
