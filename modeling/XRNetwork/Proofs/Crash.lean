import XRNetwork.Proofs.Delivery
import XRNetwork.Proofs.ServiceName
import XRNetwork.Proofs.Sides
import XRNetwork.Lib.Simulation

/-!
# What crashes the server

A step of the server faults exactly when the state and the event are of one of the kinds that
`stepCrash` lists, and then it ends as listed (`error_step`); what its handlers print goes past the
end of an object exactly in those of `PrintsPast` (`overreads_iff`). Nothing that happens to the write
sides is among them. Memory that is used after it was freed is no matter of these kinds: that is
`Ownership`'s.
-/

namespace XRNetwork

namespace Server

variable {E : Env} {w w' : Server} {e : Event} {o : Outcome Fault Server} {s i : ℕ} {c : Choice}
  {m : XRMessage}

/-- How `init_new_participant` fails: nobody has the id, or a member's descriptor does not fit. -/
def introduceCrash (w : Server) (id : UInt64) : Option Fault :=
  match w.getParticipantPtr id with
  | none => some .nullDereference
  | some _ =>
    if ∀ q ∈ w.participants, (w.sessions q).mDescriptor.length % 2 ^ 32 ≤ 20480 then none
    else some .outOfBounds

/-- How the handshake loop's handler fails on a message. -/
def handshakeCrash (w : Server) (s : ℕ) (c : Choice) (m : XRMessage) : Option Fault :=
  match m.kind with
  | some .handshakeHelloAck => if m.configuration.isNone then some .outOfBounds else none
  | some .handshakeCredentialsAck =>
    -- where there is room, an option of a socket that is closed, or has just been, is set
    if w.participants.length < w.maxParticipants.toNat
        ∧ ¬ (goodCredentials m ∧ (w.sides s).isOpen = true ∧ c.callback = .returns) then
      some .exception
    else none
  | _ => none

/-- How the room loop's handler fails on a message. -/
def roomCrash (w : Server) (s : ℕ) (m : XRMessage) : Option Fault :=
  match m.kind with
  | some .participantJoinAck =>
    match m.json with
    | none => some .outOfBounds
    | some json => (w.described s json).introduceCrash m.participantId
  | some .participantLeaveAck =>
    if (w.getParticipantPtr (w.sessions s).mId).isNone then some .nullDereference else none
  | _ => none

/-- How the event's handler fails, if it does, its prints aside. -/
def stepCrash (w : Server) : Event → Option Fault
  | .accept none _ => some .exception
  | .accept (some _) _ => if 1024 < w.serviceName.length then some .outOfBounds else none
  | .read s i readBuffer c =>
    match (w.sessions s).reads[i]? with
    | none => none
    | some ⟨.handshake, _⟩ => w.handshakeCrash s c (receivedMessage readBuffer)
    | some ⟨.room, _⟩ => w.roomCrash s (receivedMessage readBuffer)
  | .readFailed s i c =>
    match (w.sessions s).reads[i]? with
    | some ⟨.room, _⟩ => if c.callback = .throwsOther then some .exception else none
    | _ => none
  | .writeFailed _ _ c => if c.callback = .throwsOther then some .exception else none
  | .disconnectParticipant id =>
    if (w.getParticipantPtr id).isNone then some .nullDereference else none
  | _ => none

/-- The handshake loop's handler prints a buffer of the message that does not end in it. -/
def PrintsPastMessage (m : XRMessage) : Prop :=
  m.kind = some .handshakeHelloAck ∧ 0 ∉ m.configurationBuffer
    ∨ m.kind = some .handshakeCredentialsAck ∧ 0 ∉ m.participantCertificateBuffer

instance (m : XRMessage) : Decidable (PrintsPastMessage m) := instDecidableOr

/-- The event's handler prints the hello with a name that fills its buffer, or such a message. -/
def PrintsPast (w : Server) : Event → Prop
  | .accept (some _) _ => w.serviceName.length = 1024 ∧ 0 ∉ w.serviceName
  | .read s i readBuffer _ =>
    (w.sessions s).reads[i]?.map PendingRead.loop = some .handshake
      ∧ PrintsPastMessage (receivedMessage readBuffer)
  | _ => False

instance (w : Server) (e : Event) : Decidable (w.PrintsPast e) := by
  unfold PrintsPast
  split <;> infer_instance

/-- How the event's handler fails, if it does. What it prints it prints first. -/
def crash (w : Server) (e : Event) : Option Fault :=
  if w.PrintsPast e then some .outOfBounds else w.stepCrash e

/-! ## The prints -/

/-- Of the three buffers that lie behind each other it is the last one that has to end. -/
theorem printsHandshake_terminated :
    (∃ b ∈ printsHandshake m, ¬ Terminated b) ↔ PrintsPastMessage m := by
  have hsuffix : ∀ {n : ℕ}, n ≤ 2062 → 0 ∉ m.payload.drop n →
      0 ∉ m.participantCertificateBuffer := by
    intro n hn hno hmem
    refine hno (List.mem_of_mem_drop (i := 2062 - n) ?_)
    rwa [List.drop_drop, Nat.add_sub_cancel' hn]
  unfold printsHandshake PrintsPastMessage
  by_cases hhello : m.kind = some .handshakeHelloAck
  · simp [hhello, Terminated]
  by_cases hcred : m.kind = some .handshakeCredentialsAck
  · simp only [hcred, List.mem_cons, List.not_mem_nil, or_false, exists_eq_or_imp, exists_eq_left,
      Terminated]
    constructor
    · rintro (h | h | h)
      · exact .inr ⟨trivial, hsuffix (by norm_num) h⟩
      · exact .inr ⟨trivial, hsuffix (by norm_num) h⟩
      · exact .inr ⟨trivial, h⟩
    · rintro (⟨h, -⟩ | ⟨-, h⟩)
      · cases h
      · exact .inr (.inr h)
  · simp [hhello, hcred]

theorem overreads_iff : w.Overreads E e ↔ w.PrintsPast e := by
  cases e with
  | accept ip t =>
    cases ip with
    | none => simp [Overreads, prints, PrintsPast]
    | some ip => exact overreads_accept
  | read s i buf c =>
    unfold Overreads prints PrintsPast
    rcases hr : (w.sessions s).reads[i]? with _ | ⟨loop, onOpen⟩
    · simp [hr]
    · cases loop with
      | handshake => simpa [hr, printsRead] using printsHandshake_terminated
      | room => simp [hr, printsRead]
  | _ => simp [Overreads, prints, PrintsPast]

/-! ## The calls of the room -/

theorem playerList_eq_none {self : UInt64} {newp : ParticipantNew} {ps : List ℕ} :
    w.playerList self newp ps = none ↔ ∃ q ∈ ps, (w.sessions q).mId ≠ self
      ∧ 20480 < (w.sessions q).mDescriptor.length % 2 ^ 32 := by
  constructor
  · intro hnone
    by_contra hno
    push Not at hno
    obtain ⟨list, hl⟩ := playerList_isSome self newp hno
    rw [hnone] at hl
    cases hl
  · rintro ⟨q, hq, hne, hlt⟩
    refine Option.eq_none_iff_forall_ne_some.2 fun list hl => ?_
    obtain ⟨hlen, hall⟩ := List.forall₂_iff_get.1 (playerList_forall₂ self hl)
    have hmem : q ∈ ps.filter fun q => (w.sessions q).mId ≠ self := by simp [hq, hne]
    obtain ⟨k, hk⟩ := List.get_of_mem hmem
    have hk' : k.val < (list.map ParticipantNew.toMessage).length := by
      rw [hlen]
      exact k.isLt
    have hfits := (hall k hk' k.isLt).2
    rw [hk] at hfits
    exact absurd hfits hlt.not_ge

theorem error_initNewParticipant (hS : KeyedSet.Sorted w.key w.participants) (c : Choice)
    (id : UInt64) :
    (w.initNewParticipant c id).error = w.introduceCrash id := by
  unfold introduceCrash
  rcases w.initNewParticipant_cases c id with ⟨hp, h⟩ | ⟨p, hp, hcases⟩
  · rw [h, hp]
    rfl
  obtain ⟨hmem, hid⟩ := mem_of_getParticipantPtr hp
  simp only [hp]
  rcases hcases with ⟨hd, h⟩ | ⟨newp, hd, ⟨hl, h⟩ | ⟨list, hl, h⟩⟩
  · rw [h, if_neg fun hall => absurd (hall p hmem) (describe_eq_none.1 hd).not_ge]
    rfl
  · obtain ⟨q, hq, -, hlt⟩ := playerList_eq_none.1 hl
    rw [h, if_neg fun hall => absurd (hall q hq) hlt.not_ge]
    rfl
  · rw [h, if_pos fun q hq => ?_]
    · rfl
    · by_contra hlt
      rcases eq_or_ne q p with rfl | hne
      · rw [describe_eq_none.2 (not_le.1 hlt)] at hd
        cases hd
      · have hne' : (w.sessions q).mId ≠ (w.sessions p).mId := fun heq =>
          hne (hS.eq_of_key_eq hq hmem (congrArg UInt64.toNat heq))
        rw [playerList_eq_none.2 ⟨q, hq, hne', not_le.1 hlt⟩] at hl
        cases hl

theorem error_join (c : Choice) (s : ℕ) (w : Server) : (w.join E c s).error =
    if w.participants.length < w.maxParticipants.toNat
        ∧ ¬ ((w.sides s).isOpen = true ∧ c.callback = .returns) then some .exception
    else none := by
  unfold join
  simp only []
  by_cases hroom : w.maxParticipants.toNat ≤ w.participants.length
  · rw [if_pos (by exact hroom), if_neg fun h => absurd hroom h.1.not_ge]
    rfl
  rw [if_neg (by exact hroom)]
  by_cases hopen : (w.sides s).isOpen = true
  · rw [if_pos (by exact hopen)]
    by_cases hcb : c.callback = .returns
    · rw [if_pos hcb, if_neg fun h => h.2 ⟨hopen, hcb⟩]
      rfl
    · rw [if_neg hcb, if_pos ⟨not_le.1 hroom, fun h => hcb h.2⟩]
      rfl
  · rw [if_neg (by exact hopen), if_pos ⟨not_le.1 hroom, fun h => hopen h.1⟩]
    rfl

theorem error_disconnectParticipant (id : UInt64) (w : Server) :
    (w.disconnectParticipant id).error =
      if (w.getParticipantPtr id).isNone then some .nullDereference else none := by
  rcases hp : w.getParticipantPtr id with _ | p
  · rw [disconnectParticipant_of_none _ hp]
    rfl
  · rw [disconnectParticipant_of_some _ hp]
    rfl

theorem error_leave (c : Choice) (s : ℕ) (w : Server) : (w.leave c s).error =
    if c.callback = .throwsOther then some .exception else none := by
  unfold leave
  cases c.callback <;> rfl

/-! ## The two loops -/

theorem error_onReadHandshake (c : Choice) (s : ℕ) (m : XRMessage) (w : Server) :
    (w.onReadHandshake E c s m).error = w.handshakeCrash s c m := by
  by_cases hhello : m.kind = some .handshakeHelloAck
  · simp only [onReadHandshake, handshakeCrash, hhello, Outcome.error_andThen_ok,
      checkHandshakeHelloAck]
    cases m.configuration <;> rfl
  by_cases hcred : m.kind = some .handshakeCredentialsAck
  · simp only [onReadHandshake, handshakeCrash, hcred, checkHandshakeCredentialsAck]
    rw [Outcome.error_andThen_ok, error_join]
    by_cases hgood : goodCredentials m
    · rw [if_pos hgood]
      simp only [hgood, true_and]
      rfl
    · have hclosed : (((w.disconnect s).doReadByte s).sides s).isOpen = false := by
        simp [disconnect, doReadByte, setSide, setSession, WriteSide.close]
      rw [if_neg hgood]
      simp only [hgood, false_and, hclosed, Bool.false_eq_true]
      rfl
  · have hread : w.onReadHandshake E c s m = .ok (w.doReadHandshake s) := by
      unfold onReadHandshake
      split
      · contradiction
      · contradiction
      · rfl
    have hcrash : w.handshakeCrash s c m = none := by
      unfold handshakeCrash
      split
      · contradiction
      · contradiction
      · rfl
    rw [hread, hcrash]
    rfl

theorem error_onRoomFrame (hS : KeyedSet.Sorted w.key w.participants) (c : Choice) (s : ℕ)
    (m : XRMessage) :
    (w.onRoomFrame c s m).error = w.roomCrash s m := by
  by_cases hjoin : m.kind = some .participantJoinAck
  · simp only [onRoomFrame, roomCrash, hjoin]
    rcases m.json with _ | json
    · rfl
    · have hkey : (w.described s json).key = w.key := by
        funext p
        exact congrArg UInt64.toNat (described_mId s p json)
      exact error_initNewParticipant
        (w := (w.described s json).log (.initNewParticipant s m.participantId)) (hkey ▸ hS) c _
  by_cases hleave : m.kind = some .participantLeaveAck
  · simp only [onRoomFrame, roomCrash, hleave]
    exact error_disconnectParticipant _ _
  · have hframe : ∃ w', w.onRoomFrame c s m = .ok w' := by
      unfold onRoomFrame
      split
      · contradiction
      · exact ⟨_, rfl⟩
      · exact ⟨_, rfl⟩
      · contradiction
      · exact ⟨_, rfl⟩
    have hcrash : w.roomCrash s m = none := by
      unfold roomCrash
      split
      · contradiction
      · contradiction
      · rfl
    rw [hcrash]
    exact Outcome.error_eq_none.2 hframe

theorem SameRoom.roomCrash {w w' : Server} (h : SameRoom w w') (s : ℕ) (m : XRMessage) :
    w'.roomCrash s m = w.roomCrash s m := by
  have hdescribed : ∀ json, SameRoom (w.described s json) (w'.described s json) := by
    refine fun json => ⟨h.participants, fun p => ?_, fun p => ?_⟩
    · rw [described_mId, described_mId, h.mId]
    · rcases eq_or_ne p s with rfl | hne
      · rw [described_self, described_self]
      · rw [described_of_ne _ hne, described_of_ne _ hne, h.mDescriptor]
  have hintroduce : ∀ json id, (w'.described s json).introduceCrash id
      = (w.described s json).introduceCrash id := by
    intro json id
    unfold introduceCrash
    simp only [(hdescribed json).getParticipantPtr, (hdescribed json).participants,
      (hdescribed json).mDescriptor]
  unfold Server.roomCrash
  simp only [hintroduce, h.getParticipantPtr, h.mId]

/-- How a step ends is as listed. -/
theorem error_step (hw : (serverMachine E).Reachable (.ok w)) (hs : w.step E e = some o) :
    o.error = w.stepCrash e := by
  have hside : ∀ {s : ℕ} (we : WriteEvent) {x : Outcome Fault WriteSide},
      (w.sides s).step we = some x → (w.tick.putSide s x).error = none := by
    intro s we x hx
    obtain ⟨x', rfl, -⟩ := WriteSide.step_cases (WriteSide.deque_nil (side_reachable hw s)) hx
    rfl
  cases e with
  | accept ip t =>
    simp only [step] at hs
    split_ifs at hs
    cases hs
    cases ip with
    | none => rfl
    | some ip =>
      simp only [stepCrash, onAccept]
      rw [Outcome.error_andThen_ok, doStartHandshake]
      simp only [buildHandshakeHello, Buffer.memcpy]
      by_cases hfits : w.serviceName.length ≤ 1024
      · rw [dif_pos (by exact hfits), if_neg hfits.not_gt]
        rfl
      · rw [dif_neg (by exact hfits), if_pos (not_le.1 hfits)]
        rfl
  | read s i buf c =>
    simp only [step] at hs
    split at hs
    · rename_i loop hr
      cases hs
      cases loop with
      | handshake =>
        simp only [stepCrash, hr]
        exact error_onReadHandshake _ _ _ _
      | room =>
        have hsame : SameRoom w
            ((w.tick.dropRead s i).log (.received s .room (receivedMessage buf))) :=
          let h := w.sameRoom_dropRead s i
          ⟨rfl, h.mId, h.mDescriptor⟩
        simp only [stepCrash, hr]
        rw [onRead, onReadRoom]
        rw [Outcome.error_andThen_ok, error_onRoomFrame, hsame.roomCrash]
        rw [hsame.key]
        have hM : Members w := members hw
        exact hM.sorted
    · cases hs
  | readFailed s i c =>
    simp only [step] at hs
    split at hs
    · rename_i loop b hr
      cases hs
      simp only [stepCrash, hr]
      cases loop with
      | handshake => rfl
      | room => exact error_leave _ _ _
    · cases hs
  | writeFailed s i c =>
    obtain ⟨x, -, rfl⟩ := Option.map_eq_some_iff.1 hs
    exact error_leave _ _ _
  | posted s =>
    obtain ⟨x, hx, rfl⟩ := Option.map_eq_some_iff.1 hs
    exact hside .posted hx
  | writeDone s i =>
    obtain ⟨x, hx, rfl⟩ := Option.map_eq_some_iff.1 hs
    exact hside (.writeDone i) hx
  | writeSome s i k =>
    obtain ⟨x, -, rfl⟩ := Option.map_eq_some_iff.1 hs
    rfl
  | disconnectParticipant id =>
    cases hs
    exact error_disconnectParticipant _ _
  | acceptFailed =>
    simp only [step] at hs
    split_ifs at hs
    cases hs
    rfl
  | disconnectAllParticipants | setParticipantDeaf | setMaxParticipants | setKeepAlive
  | setServiceName | stop =>
    cases hs
    rfl

theorem error_loggedStep (hw : (serverMachine E).Reachable (.ok w))
    (hs : w.loggedStep E e = some o) : o.error = w.crash e := by
  obtain ⟨o', ho', rfl⟩ := Option.map_eq_some_iff.1 hs
  simp only [crash, ← overreads_iff (E := E)]
  split_ifs with hover
  · rfl
  · exact error_step hw ho'

/-- Handlers that return do so whether or not it is seen what they print. -/
theorem follows_server : (loggedMachine E).Follows (serverMachine E) (fun _ _ => True)
    (fun _ => True) id fun _ e => [e] where
  holds := trivial
  init := rfl
  step := by
    intro w e w' _ _ _ hs
    refine ⟨trivial, Machine.exec_singleton.2 ?_⟩
    obtain ⟨o, ho, hw'⟩ := Option.map_eq_some_iff.1 (show w.loggedStep E e = some (.ok w') from hs)
    split_ifs at hw'
    exact hw' ▸ ho

end Server

open Server

/-- A run of the server with its log ends in a fault exactly when its last event finds a state of the
kinds that `crash` lists, and then in the fault listed; and no event before the last one has found
one. -/
theorem crashes_exactly {E : Env} {r : List (Server × Event)} {o : Outcome Fault Server}
    (hr : (loggedMachine E).Run r o) :
    o.error = r.getLast?.bind (fun x => x.1.crash x.2)
      ∧ ∀ x ∈ r.dropLast, x.1.crash x.2 = none := by
  have hreach : ∀ {r : List (Server × Event)} {w : Server}, (loggedMachine E).Run r (.ok w) →
      (serverMachine E).Reachable (.ok w) := fun hr =>
    follows_server.reachable hr fun _ _ => trivial
  cases hr with
  | nil => exact ⟨rfl, by simp⟩
  | @snoc r w e o hr hs =>
    refine ⟨?_, fun x hx => ?_⟩
    · rw [List.getLast?_concat]
      exact error_loggedStep (hreach hr) hs
    · rw [List.dropLast_concat] at hx
      obtain ⟨hx', w', hs'⟩ := hr.returned hx
      obtain ⟨r₁, hr₁⟩ := hx'
      rw [← error_loggedStep (hreach hr₁) hs']
      rfl

/-- A client that has left sends `PARTICIPANT_LEAVE_ACK` again. -/
def leavesTwice : List Event :=
  [.accept (some []) 0, .read 0 0 ChatClient.credentialsAck.frame .plain,
    .read 0 0 leaveAckMessage.frame .plain, .read 0 0 leaveAckMessage.frame .plain]

theorem crashes_exactly_null : ∃ r w, (loggedMachine .counting).Run r (.fault .nullDereference w)
    ∧ r.map Prod.snd = leavesTwice
    ∧ r.getLast?.bind (fun x => x.1.crash x.2) = some .nullDereference := by
  have hrun : ((loggedMachine .counting).exec Server.init leavesTwice).any
      (Outcome.faultIs .nullDereference) = true := by
    decide +kernel
  obtain ⟨r, w, hr, hes⟩ := Machine.exec_faultIs hrun
  exact ⟨r, w, hr, hes, (crashes_exactly hr).1.symm⟩

end XRNetwork
