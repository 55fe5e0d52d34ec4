import XRNetwork.Proofs.RoomCalls

/-!
# What the sessions leave alone

The limit of the room, its keep-alive flag and the acceptor are the server's own: no handler of a
session touches them (`config_step`). The limit and the flag change when they are set, the acceptor
when it is stopped, and the outstanding accepts when one completes.
-/

namespace XRNetwork

namespace Server

variable {E : Env} {w : Server} {e : Event} {o : Outcome Fault Server}

/-- The limit of the room, the outstanding accepts and whether the acceptor is open. -/
def outside (w : Server) : UInt16 × ℕ × Bool := (w.maxParticipants, w.accepts, w.acceptorOpen)

/-- All of the server that no session touches. -/
def config (w : Server) : Bool × UInt16 × ℕ × Bool := (w.keepAlive, w.outside)

@[simp] theorem config_log (a : Act) : (w.log a).config = w.config := rfl
@[simp] theorem config_tick : w.tick.config = w.config := rfl
@[simp] theorem config_setSession (s : ℕ) (x : Session) :
    (w.setSession s x).config = w.config := rfl
@[simp] theorem config_setSide (s : ℕ) (x : WriteSide) :
    (w.setSide s x).config = w.config := rfl
@[simp] theorem config_doReadByte (s : ℕ) : (w.doReadByte s).config = w.config := rfl
@[simp] theorem config_doReadHandshake (s : ℕ) :
    (w.doReadHandshake s).config = w.config := rfl
@[simp] theorem config_disconnect (s : ℕ) : (w.disconnect s).config = w.config := rfl
@[simp] theorem config_dropRead (s i : ℕ) : (w.dropRead s i).config = w.config := rfl
@[simp] theorem config_deliverByte (s : ℕ) (m : XRMessage) :
    (w.deliverByte s m).config = w.config := rfl
@[simp] theorem config_eraseParticipant (s : ℕ) :
    (w.eraseParticipant s).config = w.config := rfl

@[simp] theorem config_deliverList (l : List (ℕ × XRMessage)) :
    (w.deliverList l).config = w.config := by
  rw [deliverList_eq]
  rfl

@[simp] theorem config_disconnectAllParticipants :
    w.disconnectAllParticipants.config = w.config := by
  rw [disconnectAllParticipants_eq]
  rfl

@[simp] theorem config_broadcastLeave (s : ℕ) (id : UInt64) :
    (w.broadcastLeave s id).config = w.config := by
  simp [broadcastLeave_eq]

theorem config_leave (c : Choice) (s : ℕ) : (w.leave c s).state.config = w.config := by
  unfold leave
  cases c.callback <;> simp

theorem config_disconnectParticipant (id : UInt64) :
    (w.disconnectParticipant id).state.config = w.config := by
  rcases hp : w.getParticipantPtr id with _ | p
  · rw [disconnectParticipant_of_none _ hp]
    rfl
  · simp [disconnectParticipant_of_some _ hp]

theorem config_initNewParticipant (c : Choice) (id : UInt64) :
    (w.initNewParticipant c id).state.config = w.config := by
  rcases w.initNewParticipant_cases c id with
    ⟨-, h⟩ | ⟨p, -, ⟨-, h⟩ | ⟨newp, -, ⟨-, h⟩ | ⟨list, -, h⟩⟩⟩ <;> simp [h]

theorem config_join (c : Choice) (s : ℕ) : (w.join E c s).state.config = w.config := by
  unfold join
  simp only []
  split_ifs <;> rfl

theorem config_onRead (c : Choice) (s : ℕ) (loop : ReadLoop) (m : XRMessage) :
    (w.onRead E c s loop m).state.config = w.config := by
  have hand {x : Outcome Fault Server} {f : Server → Outcome Fault Server}
      (hx : x.state.config = w.config) (hf : ∀ w, (f w).state.config = w.config) :
      (x.andThen f).state.config = w.config :=
    Outcome.state_andThen (P := fun w' => w'.config = w.config) hx fun w h => (hf w).trans h
  unfold onRead
  cases loop with
  | handshake =>
    simp only [onReadHandshake]
    split
    · refine hand ?_ fun w => rfl
      unfold checkHandshakeHelloAck
      split <;> simp
    · unfold checkHandshakeCredentialsAck
      refine hand (f := fun w => .ok (w.deliverByte s _)) ?_ fun w => rfl
      rw [config_join]
      split_ifs <;> simp
    · simp
  | room =>
    refine hand ?_ fun w => rfl
    unfold onRoomFrame
    split
    · split
      · simp
      · simp [config_initNewParticipant]
    · simp
    · simp [deliverToAllExceptToOne_eq]
    · simp [config_disconnectParticipant]
    · simp

theorem config_onReadError (c : Choice) (s : ℕ) (loop : ReadLoop) :
    (w.onReadError c s loop).state.config = w.config := by
  cases loop with
  | handshake => rfl
  | room => exact config_leave c s

theorem config_onAccept_some (ip : Bytes) (t : UInt64) :
    (w.onAccept E (some ip) t).state.config = (w.keepAlive, w.maxParticipants,
      if (w.onAccept E (some ip) t).okAnd (fun _ => true) then w.accepts - 1 + 1
        else w.accepts - 1, w.acceptorOpen) := by
  unfold onAccept doStartHandshake
  simp only [doReadHandshake, setSession, setSide, Function.update_self]
  rcases buildHandshakeHello E.serviceId (Session.fresh ip).mId t w.serviceName with _ | hh <;> rfl

/-- What the event leaves of it; `returns` says whether its handler does. -/
def outsideAfter (w : Server) (returns : Bool) : Event → UInt16 × ℕ × Bool
  | .accept none _ | .acceptFailed => (w.maxParticipants, w.accepts - 1, w.acceptorOpen)
  | .accept (some _) _ =>
    (w.maxParticipants, if returns then w.accepts else w.accepts - 1, w.acceptorOpen)
  | .setMaxParticipants n => (n, w.accepts, w.acceptorOpen)
  | .stop => (w.maxParticipants, w.accepts, false)
  | _ => w.outside

theorem config_putSide (s : ℕ) (x : Outcome Fault WriteSide) :
    (w.putSide s x).state.config = w.config := by
  cases x <;> rfl

/-- What it leaves of the keep-alive flag. -/
def keepAliveAfter (w : Server) : Event → Bool
  | .setKeepAlive b => b
  | _ => w.keepAlive

theorem config_step (hs : w.step E e = some o) :
    o.state.config = (w.keepAliveAfter e, w.outsideAfter (o.okAnd fun _ => true) e) := by
  cases e with
  | accept ip t =>
    simp only [step] at hs
    split_ifs at hs with hopen
    cases hs
    cases ip with
    | none => rfl
    | some ip =>
      rw [config_onAccept_some, outsideAfter]
      have hpos : w.tick.accepts - 1 + 1 = w.accepts := by
        show w.accepts - 1 + 1 = w.accepts
        omega
      rw [hpos]
      rfl
  | acceptFailed =>
    simp only [step] at hs
    split_ifs at hs
    cases hs
    rfl
  | read s i buf c =>
    simp only [step] at hs
    split at hs
    · cases hs
      exact config_onRead c s _ _
    · cases hs
  | readFailed s i c =>
    simp only [step] at hs
    split at hs
    · cases hs
      exact config_onReadError c s _
    · cases hs
  | posted s | writeDone s i =>
    obtain ⟨x, -, rfl⟩ := Option.map_eq_some_iff.1 hs
    exact config_putSide s x
  | writeSome s i k =>
    obtain ⟨x, -, rfl⟩ := Option.map_eq_some_iff.1 hs
    rfl
  | writeFailed s i c =>
    obtain ⟨x, -, rfl⟩ := Option.map_eq_some_iff.1 hs
    exact config_leave c s
  | disconnectParticipant id =>
    cases hs
    exact config_disconnectParticipant id
  | setParticipantDeaf id deaf =>
    cases hs
    simp only [Outcome.state_ok, setParticipantDeaf]
    split <;> rfl
  | disconnectAllParticipants | stop =>
    cases hs
    rw [Outcome.state_ok, disconnectAllParticipants_eq]
    rfl
  | setMaxParticipants n | setKeepAlive b | setServiceName name =>
    cases hs
    rfl

theorem outside_step (hs : w.step E e = some o) :
    o.state.outside = w.outsideAfter (o.okAnd fun _ => true) e :=
  congrArg Prod.snd (config_step hs)

/-- The keep-alive flag of the room, and its limit. -/
def roomSettings (w : Server) : Bool × UInt16 := (w.keepAlive, w.maxParticipants)

end Server

end XRNetwork
