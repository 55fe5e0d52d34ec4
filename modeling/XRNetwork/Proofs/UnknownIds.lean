import XRNetwork.Proofs.Identity

/-!
# Ids nobody has

Six operations of the room look a participant up by its id. Four test the pointer they get. Two
do not: `init_new_participant` and `disconnect_participant` go on with a null pointer. The frames of
a client reach both, one with an id the client chooses and one with its own, which the room forgets
at the first `PARTICIPANT_LEAVE_ACK` while the session goes on reading.
-/

namespace Outcome

open XRNetwork

variable {σ : Type*} {x : Outcome Fault σ} {s : σ}

/-- The call dereferences a null pointer. -/
def isNull : Outcome Fault σ → Bool
  | fault .nullDereference _ => true
  | _ => false

@[simp] theorem isNull_ok : (ok s : Outcome Fault σ).isNull = false := rfl

@[simp] theorem isNull_null : (fault .nullDereference s : Outcome Fault σ).isNull = true := rfl

@[simp] theorem isNull_outOfBounds : (fault .outOfBounds s : Outcome Fault σ).isNull = false := rfl

theorem isNull_iff : x.isNull = true ↔ ∃ s, x = fault .nullDereference s := by
  rcases x with s | ⟨_ | _ | _ | _, s⟩ <;> simp [isNull]

theorem isNull_andThen {f : σ → Outcome Fault σ} (hx : x.isNull = false)
    (hf : ∀ s, (f s).isNull = false) : (x.andThen f).isNull = false := by
  cases x with
  | ok s => exact hf s
  | fault e s => exact hx

end Outcome

namespace XRNetwork

/-- The operations of the room that take an id. -/
inductive IdCall
  | disconnectParticipant
  | initNewParticipant (c : Choice)
  | setParticipantDeaf (deaf : Bool)
  | getParticipantDeaf
  | getParticipantInfo (nptr : ParticipantInfo)
  | participantExist

namespace IdCall

/-- What the call leaves the room in, as the three that ask do once they have their answer. -/
def run (id : UInt64) (w : Server) : IdCall → Outcome Fault Server
  | disconnectParticipant => w.disconnectParticipant id
  | initNewParticipant c => w.initNewParticipant c id
  | setParticipantDeaf deaf => .ok (w.setParticipantDeaf id deaf)
  | getParticipantDeaf => (Outcome.ok (w.getParticipantDeaf id)).map fun _ => w
  | getParticipantInfo nptr => (w.getParticipantInfo id nptr).map fun _ => w
  | participantExist => (Outcome.ok (w.participantExist id)).map fun _ => w

/-- The operation tests the pointer it has looked up. -/
def guarded : IdCall → Bool
  | disconnectParticipant | initNewParticipant _ => false
  | _ => true

end IdCall

namespace Server

variable {w : Server} {E : Env}

theorem run_of_none (call : IdCall) {id : UInt64} (h : w.getParticipantPtr id = none) :
    call.run id w = if call.guarded then .ok w else .fault .nullDereference w := by
  cases call with
  | disconnectParticipant => exact disconnectParticipant_of_none _ h
  | initNewParticipant c => simp [IdCall.run, IdCall.guarded, initNewParticipant,
      newPaticipantToAll, h]
  | setParticipantDeaf deaf => simp [IdCall.run, IdCall.guarded, setParticipantDeaf, h]
  | getParticipantInfo nptr =>
    simp [IdCall.run, IdCall.guarded, getParticipantInfo, Outcome.map, h]
  | getParticipantDeaf | participantExist => rfl

/-- The id a frame makes the room loop hand to an operation that does not test the pointer. -/
def frameId (w : Server) (s : ℕ) (m : XRMessage) : Option UInt64 :=
  if m.kind = some .participantJoinAck ∧ m.json.isSome then some m.participantId
  else if m.kind = some .participantLeaveAck then some (w.sessions s).mId
  else none

def untestedId (w : Server) : Event → Option UInt64
  | .read s i buf _ =>
    if (w.sessions s).reads[i]? = some ⟨.room, true⟩ then w.frameId s (receivedMessage buf) else none
  | .disconnectParticipant id => some id
  | _ => none

/-- A step names no id but that of a member to them. -/
def NamesMember (w : Server) (e : Event) : Prop :=
  ∀ id, w.untestedId e = some id → ∃ p ∈ w.participants, (w.sessions p).mId = id

/-! ## Which calls dereference null -/

theorem isNull_join (c : Choice) (s : ℕ) (w : Server) : (w.join E c s).isNull = false := by
  unfold join
  simp only []
  split_ifs <;> rfl

theorem isNull_leave (c : Choice) (s : ℕ) (w : Server) : (w.leave c s).isNull = false := by
  unfold leave
  simp only []
  split <;> rfl

theorem isNull_onReadHandshake (c : Choice) (s : ℕ) (m : XRMessage) (w : Server) :
    (w.onReadHandshake E c s m).isNull = false := by
  unfold onReadHandshake
  split
  · refine Outcome.isNull_andThen ?_ fun _ => rfl
    unfold checkHandshakeHelloAck
    split <;> rfl
  · exact Outcome.isNull_andThen (isNull_join _ _ _) fun _ => rfl
  · rfl

theorem isNull_onAccept (ip : Option Bytes) (t : UInt64) (w : Server) :
    (w.onAccept E ip t).isNull = false := by
  unfold onAccept
  cases ip with
  | none => rfl
  | some ip =>
    refine Outcome.isNull_andThen ?_ fun _ => rfl
    unfold doStartHandshake
    simp only []
    split <;> rfl

theorem isNull_doWriteByte (x : WriteSide) : x.doWriteByte.isNull = false := by
  unfold WriteSide.doWriteByte
  split <;> rfl

theorem isNull_runPosted {x : WriteSide} {o : Outcome Fault WriteSide}
    (h : x.runPosted = some o) : o.isNull = false := by
  unfold WriteSide.runPosted at h
  split at h
  · cases h
  · obtain rfl := Option.some.inj h
    split_ifs
    · rfl
    · exact isNull_doWriteByte _

theorem isNull_writeDone {x : WriteSide} {i : ℕ} {o : Outcome Fault WriteSide}
    (h : x.writeDone i = some o) : o.isNull = false := by
  unfold WriteSide.writeDone at h
  split at h
  · cases h
  · split_ifs at h
    obtain rfl := Option.some.inj h
    split_ifs
    · rfl
    · exact isNull_doWriteByte _

theorem isNull_putSide (s : ℕ) (o : Outcome Fault WriteSide) (w : Server) :
    (w.putSide s o).isNull = o.isNull := by
  rcases o with x | ⟨_ | _ | _ | _, x⟩ <;> rfl

theorem isNull_initNewParticipant (c : Choice) (id : UInt64) (w : Server) :
    (w.initNewParticipant c id).isNull = (w.getParticipantPtr id).isNone := by
  rcases w.initNewParticipant_cases c id with
    ⟨hp, h⟩ | ⟨p, hp, ⟨-, h⟩ | ⟨newp, -, ⟨-, h⟩ | ⟨list, -, h⟩⟩⟩ <;> simp [hp, h]

theorem isNull_disconnectParticipant (id : UInt64) (w : Server) :
    (w.disconnectParticipant id).isNull = (w.getParticipantPtr id).isNone := by
  rcases hp : w.getParticipantPtr id with _ | p
  · rw [disconnectParticipant_of_none _ hp]
    rfl
  · rw [disconnectParticipant_of_some _ hp]
    rfl

theorem getParticipantPtr_described {s : ℕ} {json : Bytes} {id : UInt64} :
    (w.described s json).getParticipantPtr id = none ↔ w.getParticipantPtr id = none := by
  rw [getParticipantPtr_eq_none, getParticipantPtr_eq_none]
  simp only [described_mId]
  rfl

theorem isNull_onRoomFrame (c : Choice) (s : ℕ) (m : XRMessage) (w : Server) :
    (w.onRoomFrame c s m).isNull = true ↔
      ∃ id, w.frameId s m = some id ∧ w.getParticipantPtr id = none := by
  unfold frameId
  by_cases hja : m.kind = some .participantJoinAck
  · rcases hj : m.json with _ | json
    · simp [onRoomFrame, hja, hj]
    · rw [onRoomFrame_joinAck w hja hj, isNull_initNewParticipant, getParticipantPtr_log,
        Option.isNone_iff_eq_none, getParticipantPtr_described]
      simp [hja]
  rw [if_neg fun h => hja h.1]
  by_cases hla : m.kind = some .participantLeaveAck
  · have ho : w.onRoomFrame c s m
        = (w.log (.disconnectParticipant s)).disconnectParticipant (w.sessions s).mId := by
      simp [onRoomFrame, hla]
    rw [ho, isNull_disconnectParticipant, getParticipantPtr_log, Option.isNone_iff_eq_none,
      if_pos hla]
    simp
  · rw [if_neg hla]
    unfold onRoomFrame
    split <;> simp_all

theorem isNull_read {s i : ℕ} {buf : Buffer 65536} {c : Choice} {o : Outcome Fault Server}
    (hs : w.step E (.read s i buf c) = some o) :
    o.isNull = true ↔
      ∃ id, w.untestedId (.read s i buf c) = some id ∧ w.getParticipantPtr id = none := by
  unfold step at hs
  simp only [] at hs
  split at hs
  · rename_i loop hr
    obtain rfl := Option.some.inj hs
    cases loop with
    | handshake =>
      have hnull := isNull_onReadHandshake (E := E) c s (receivedMessage buf)
        ((w.tick.dropRead s i).log (.received s .handshake (receivedMessage buf)))
      simp [untestedId, hr, onRead, hnull]
    | room =>
      have hsame := sameRoom_dropRead w s i
      have hreturns : ∀ o : Outcome Fault Server,
          (o.andThen fun w => .ok (w.doReadByte s)).isNull = o.isNull := by
        rintro (w | ⟨_ | _ | _ | _, w⟩) <;> rfl
      simp only [untestedId, hr, onRead, onReadRoom, if_true]
      rw [hreturns, isNull_onRoomFrame]
      simp only [frameId, log_sessions, getParticipantPtr_log, hsame.mId, hsame.getParticipantPtr]
  · cases hs

/-- A step dereferences null when it names an id nobody has, and then only. -/
theorem isNull_step {e : Event} {o : Outcome Fault Server} (hs : w.step E e = some o) :
    o.isNull = true ↔ ∃ id, w.untestedId e = some id ∧ w.getParticipantPtr id = none := by
  have hother : w.untestedId e = none → o.isNull = false →
      (o.isNull = true ↔ ∃ id, w.untestedId e = some id ∧ w.getParticipantPtr id = none) := by
    intro h h'
    simp [h, h']
  cases e with
  | read s i buf c => exact isNull_read hs
  | disconnectParticipant id =>
    obtain rfl := Option.some.inj hs
    rw [isNull_disconnectParticipant, Option.isNone_iff_eq_none]
    simp only [untestedId, Option.some.injEq, exists_eq_left']
    rfl
  | readFailed s i c =>
    refine hother rfl ?_
    unfold step at hs
    simp only [] at hs
    split at hs
    · rename_i loop _ _
      obtain rfl := Option.some.inj hs
      cases loop with
      | handshake => rfl
      | room => exact isNull_leave _ _ _
    · cases hs
  | accept ip timestamp =>
    refine hother rfl ?_
    simp only [step] at hs
    split_ifs at hs
    obtain rfl := Option.some.inj hs
    exact isNull_onAccept _ _ _
  | acceptFailed =>
    refine hother rfl ?_
    simp only [step] at hs
    split_ifs at hs
    obtain rfl := Option.some.inj hs
    rfl
  | posted s =>
    obtain ⟨x, hx, rfl⟩ := Option.map_eq_some_iff.1 hs
    exact hother rfl ((isNull_putSide _ _ _).trans (isNull_runPosted hx))
  | writeSome s i k =>
    obtain ⟨x, -, rfl⟩ := Option.map_eq_some_iff.1 hs
    exact hother rfl rfl
  | writeDone s i =>
    obtain ⟨x, hx, rfl⟩ := Option.map_eq_some_iff.1 hs
    exact hother rfl ((isNull_putSide _ _ _).trans (isNull_writeDone hx))
  | writeFailed s i c =>
    obtain ⟨x, -, rfl⟩ := Option.map_eq_some_iff.1 hs
    exact hother rfl (isNull_leave _ _ _)
  | _ =>
    obtain rfl := Option.some.inj hs
    exact hother rfl rfl

theorem namesMember_iff {e : Event} : w.NamesMember e ↔
    ¬ ∃ id, w.untestedId e = some id ∧ w.getParticipantPtr id = none := by
  unfold NamesMember
  simp only [getParticipantPtr_eq_none]
  push Not
  rfl

/-- A run that has named members only has not dereferenced null, and the other way round. -/
theorem isNull_run {r : List (Server × Event)} {o : Outcome Fault Server}
    (hr : (serverMachine E).Run r o) : o.isNull = false ↔ Machine.Steps NamesMember r := by
  induction hr with
  | nil => simp [Machine.Steps]
  | @snoc r w e o _ hs ih =>
    have hw : Machine.Steps NamesMember r := ih.1 rfl
    rw [Machine.steps_snoc, and_iff_right hw, namesMember_iff, ← isNull_step hs,
      Bool.not_eq_true]

end Server

open Server

/-- For an id nobody has, the four operations that test the pointer, and no others, leave the room
as it was, hand out nothing and return; and a run dereferences the null pointer exactly when one of
its steps hands such an id to one of the others. -/
theorem unknown_ids_iff {E : Env} {r : List (Server × Event)} {o : Outcome Fault Server}
    (hr : (serverMachine E).Run r o) :
    (∀ (w : Server) (id : UInt64), (∀ p ∈ w.participants, (w.sessions p).mId ≠ id) →
      ∀ call : IdCall, call.run id w = .ok w ↔ call.guarded = true)
    ∧ ((¬ ∃ w, o = .fault .nullDereference w) ↔ Machine.Steps NamesMember r) := by
  constructor
  · intro w id hid call
    rw [run_of_none call (getParticipantPtr_eq_none.2 hid)]
    cases call.guarded <;> simp
  · rw [← isNull_run hr, ← Outcome.isNull_iff, Bool.not_eq_true]

/-- Two clients log in and one says that it leaves. -/
theorem unknown_ids_left : ∃ r w, (serverMachine .counting).Run r (.ok w)
    ∧ r.map Prod.snd = joins 2 ++ [.read 0 0 leaveAckMessage.frame .plain]
    ∧ Machine.Steps NamesMember r ∧ w.participants = [1]
    ∧ IdCall.participantExist.run 7 w = .ok w := by
  have hrun : ((serverMachine .counting).exec Server.init
      (joins 2 ++ [.read 0 0 leaveAckMessage.frame .plain])).any
        (Outcome.okAnd fun w => w.participants = [1] ∧ (w.sessions 1).mId = 2) = true := by
    decide +kernel
  obtain ⟨r, w, hr, hes, hw⟩ := Machine.exec_okAnd hrun
  obtain ⟨hps, hid⟩ := of_decide_eq_true hw
  have h := unknown_ids_iff hr
  refine ⟨r, w, hr, hes, h.2.1 ?_, hps, ?_⟩
  · rintro ⟨_, h⟩
    cases h
  · exact (h.1 w 7 (by simp [hps, hid]) .participantExist).2 rfl

/-- A client says twice that it leaves: the second time the room has no participant with its id. -/
theorem leaves_twice : ∃ r w, (serverMachine .counting).Run r (.fault .nullDereference w)
    ∧ r.map Prod.snd = joins 1
      ++ [.read 0 0 leaveAckMessage.frame .plain, .read 0 0 leaveAckMessage.frame .plain] := by
  have hrun : ((serverMachine .counting).exec Server.init (joins 1
      ++ [.read 0 0 leaveAckMessage.frame .plain, .read 0 0 leaveAckMessage.frame .plain])).any
        Outcome.isNull = true := by
    decide +kernel
  obtain ⟨o, ho, hnull⟩ := (Option.any_eq_true _ _).1 hrun
  obtain ⟨w, rfl⟩ := Outcome.isNull_iff.1 hnull
  exact ⟨_, w, Machine.exec_run ho, Machine.map_trail ho⟩

end XRNetwork
