import XRNetwork.Proofs.Phase
import XRNetwork.Proofs.Sides

/-!
# Who gets in

A session is in the room, and its frames are acted on, only after it has sent good credentials
(`authentication_gate`): what stops the others is not the test of the credentials but the closed
socket, on which the option cannot be set and a read cannot succeed. The code goes on after a
failed login, so it is never without effect (`failed_login_not_local`).
-/

namespace XRNetwork

namespace Server

variable {E : Env} {w : Server} {e : Event} {ch : Change} {o : Outcome Fault Server}

/-- The act shows that the session has sent good credentials. -/
def Act.ShowsCredentials (s : ℕ) (a : Act) : Prop :=
  ∃ m, a = .received s .handshake m ∧ m.kind = some .handshakeCredentialsAck ∧ goodCredentials m

/-- The act is the room being called for a frame of the session. -/
inductive Act.CallsRoom (s : ℕ) : Act → Prop
  | initNewParticipant (id : UInt64) : CallsRoom s (.initNewParticipant s id)
  | relayed : CallsRoom s (.relayed s)
  | disconnectParticipant : CallsRoom s (.disconnectParticipant s)

/-- A frame that is for members only. -/
def RoomFrame (m : XRMessage) : Prop :=
  m.kind = some .participantNew ∨ m.kind = some .participantLeave
    ∨ m.kind = some .participantUpdateAck

theorem Case.credentials_reads (hc : w.Case E e ch) (h : ⟨.room, true⟩ ∈ ch.record.reads) :
    ⟨.room, true⟩ ∈ (w.sessions ch.session).reads
      ∨ ∃ a ∈ ch.acts, Act.ShowsCredentials ch.session a := by
  have hold : ∀ {s i : ℕ} {b : Bool}, (w.sessions s).reads[i]? = some ⟨.room, true⟩ →
      ⟨.room, true⟩ ∈ (w.sessions s).reads := fun h => List.mem_of_getElem? h
  have hrest : ∀ {s i : ℕ} {rs : List PendingRead}, ⟨.room, true⟩ ∈ (w.readOver s i rs).reads →
      ⟨.room, true⟩ ∈ rs ∨ ⟨.room, true⟩ ∈ (w.sessions s).reads := fun h =>
    (List.mem_append.1 h).symm.imp id fun h => (List.eraseIdx_sublist _ _).subset h
  cases hc with
  | quiet | remove | removeFault => exact .inl h
  | accepted => simp at h
  | handshake rs d ms b hr hk hrs =>
    rcases hrest h with h | h
    · rcases hrs with rfl | rfl <;> simp at h
    · exact .inl h
  | refused b hr hk hfull hgood =>
    rcases hrest h with h | h
    · obtain rfl : b = true := by simpa using h
      exact .inr ⟨_, List.mem_cons_self, _, rfl, hk, hgood rfl⟩
    · exact .inl h
  | joinFailed =>
    rcases hrest h with h | h
    · simp at h
    · exact .inl h
  | joined x ps hr hk hgood => exact .inr ⟨_, List.mem_cons_self, _, rfl, hk, hgood⟩
  | handshakeFailed =>
    rcases hrest h with h | h
    · simp at h
    · exact .inl h
  | leaveCut he | leave he =>
    cases he with
    | readFailed =>
      rcases hrest h with h | h
      · simp at h
      · exact .inl h
    | writeFailed => exact .inl h
  | joinAckCut hr | joinAckFault _ _ hr | joinAck _ _ hr | ignored _ hr | relay hr
  | leaveAckFault hr | leaveAck _ _ hr => exact .inl (List.mem_of_getElem? hr)

theorem Case.credentials_participants (hc : w.Case E e ch) {s : ℕ} (h : s ∈ ch.participants) :
    s ∈ w.participants ∨ ∃ a ∈ ch.acts, Act.ShowsCredentials s a := by
  cases hc with
  | joined x ps hr hk hgood hroom hx hps =>
    subst hps
    rcases KeyedSet.mem_insert_imp h with rfl | h
    · exact .inr ⟨_, List.mem_cons_self, _, rfl, hk, hgood⟩
    · exact .inl h
  | leave | leaveAck | remove => exact .inl (KeyedSet.mem_erase.1 h).1
  | _ => exact .inl h

/-- Only a room read that can succeed makes the session call the room. -/
theorem Case.callsRoom (hc : w.Case E e ch) {s : ℕ} {a : Act} (ha : a ∈ ch.acts)
    (h : Act.CallsRoom s a) : ⟨.room, true⟩ ∈ (w.sessions s).reads := by
  cases hc with
  | joinAck _ _ hr | joinAckFault _ _ hr =>
    cases h <;> simp at ha
    obtain ⟨rfl, -⟩ := ha
    exact List.mem_of_getElem? hr
  | relay hr | leaveAckFault hr | leaveAck _ _ hr =>
    cases h <;> simp at ha
    subst ha
    exact List.mem_of_getElem? hr
  | _ => cases h <;> simp at ha

theorem Introduces.mem_participants {c : Choice} {id : UInt64} {l : List (ℕ × XRMessage)}
    (h : w.Introduces c id l) : ∀ x ∈ l, x.1 ∈ w.participants := by
  obtain ⟨p, newp, list, hp, -, -, rfl⟩ := h
  intro x hx
  rcases List.mem_append.1 hx with hx | hx
  · obtain ⟨q, hq, rfl⟩ := List.mem_map.1 hx
    exact (mem_others.1 hq).1
  · obtain ⟨np, -, rfl⟩ := List.mem_map.1 hx
    exact (KeyedSet.mem_of_find hp).1

theorem Case.roomFrame (hc : w.Case E e ch) {s : ℕ} {m : XRMessage} {b : Bool}
    (ha : .handed s m b ∈ ch.acts) (h : RoomFrame m) : b = true := by
  cases hc with
  | accepted _ _ ms _ hms =>
    simp at ha
    simp [RoomFrame, hms m ha.1] at h
  | handshake rs d ms b hr hk hrs hms =>
    simp at ha
    simp [RoomFrame, hms m ha.1] at h
  | refused =>
    simp at ha
    obtain ⟨-, rfl, -⟩ := ha
    simp [RoomFrame] at h
  | joined x ps =>
    simp at ha
    obtain ⟨-, -, rfl, -⟩ := ha
    simp [RoomFrame] at h
  | joinAckFault json l hr hk hj hl =>
    simp at ha
    rw [← ha.2]
    exact decide_eq_true (hl _ ha.1).1
  | joinAck json l hr hk hj hl =>
    simp at ha
    rw [← ha.2]
    exact decide_eq_true (hl.mem_participants _ ha.1)
  | relay =>
    simp at ha
    rw [← ha.2.2]
    exact decide_eq_true (mem_others.1 ha.1).1
  | leaveAck | remove | leave =>
    simp at ha
    exact ha.2.2
  | _ => simp at ha

/-- The session has sent good credentials before the given step. -/
def CredentialsBefore (w : Server) (t s : ℕ) : Prop :=
  ∃ t' < t, ∃ a, (t', a) ∈ w.trace ∧ Act.ShowsCredentials s a

/-- The gate: sessions whose room reads can succeed, members, and sessions for which the room has
been called have shown their credentials, and frames for members have gone to members. -/
structure Gate (w : Server) : Prop where
  reads : ∀ s, ⟨.room, true⟩ ∈ (w.sessions s).reads → w.CredentialsBefore (w.clock + 1) s
  members : ∀ s ∈ w.participants, w.CredentialsBefore (w.clock + 1) s
  calls : ∀ t s a, (t, a) ∈ w.trace → Act.CallsRoom s a → w.CredentialsBefore t s
  frames : ∀ t s m b, (t, .handed s m b) ∈ w.trace → RoomFrame m → b = true

theorem CredentialsBefore.mono (hg : ch.Gives w o) {t t' s : ℕ} (ht : t ≤ t')
    (h : w.CredentialsBefore t s) : o.state.CredentialsBefore t' s := by
  obtain ⟨t₀, h0, a, ha, hs⟩ := h
  exact ⟨t₀, by omega, a, (mem_trace hg).2 (.inl ha), hs⟩

theorem credentialsBefore_new (hg : ch.Gives w o) {s : ℕ}
    (h : ∃ a ∈ ch.acts, Act.ShowsCredentials s a) :
    o.state.CredentialsBefore (o.state.clock + 1) s := by
  obtain ⟨a, ha, hs⟩ := h
  exact ⟨w.clock + 1, by rw [hg.clock]; omega, a, (mem_trace hg).2 (.inr ⟨rfl, ha⟩), hs⟩

theorem gate_step (hI : Gate w) (hc : w.Case E e ch) (hg : ch.Gives w o) : Gate o.state := by
  have hclock : w.clock + 1 ≤ o.state.clock + 1 := by
    rw [hg.clock]
    omega
  refine ⟨fun s h => ?_, fun s h => ?_, fun t s a h hcall => ?_, fun t s m b h hm => ?_⟩
  · rcases eq_or_ne s ch.session with rfl | hne
    · rw [sessions_self hg] at h
      rcases hc.credentials_reads h with h | h
      · exact (hI.reads _ h).mono hg hclock
      · exact credentialsBefore_new hg h
    · rw [sessions_of_ne hg hne] at h
      exact (hI.reads _ h).mono hg hclock
  · rw [hg.participants] at h
    rcases hc.credentials_participants h with h | h
    · exact (hI.members _ h).mono hg hclock
    · exact credentialsBefore_new hg h
  · rcases (mem_trace hg).1 h with h | ⟨rfl, ha⟩
    · exact (hI.calls t s a h hcall).mono hg le_rfl
    · exact (hI.reads s (hc.callsRoom ha hcall)).mono hg le_rfl
  · rcases (mem_trace hg).1 h with h | ⟨-, h⟩
    · exact hI.frames t s m b h hm
    · exact hc.roomFrame h hm

theorem gate (h : (serverMachine E).Reachable o) : Gate o.state := by
  refine reachable_cases ?_ (fun _ _ _ _ _ hI hc hg => gate_step hI hc hg) h
  exact ⟨by simp [init, Session.fresh], by simp [init], by simp [init], by simp [init]⟩

end Server

namespace Event

/-- The event completes an operation outstanding on the session. -/
def Completes (s : ℕ) : Event → Prop
  | .read t _ _ _ | .readFailed t _ _ | .posted t | .writeSome t _ _ | .writeDone t _
  | .writeFailed t _ _ => t = s
  | _ => False

end Event

open Server

/-- What has happened between the two states is that the session was closed, if anything: the
handler returned, the set and the room's generator are as they were, and no message of the session
joining or leaving was sent or signalled. -/
structure OnlyCloses (w : Server) (s : ℕ) (o : Outcome Fault Server) : Prop where
  returns : o = .ok o.state
  closed : (o.state.sides s).isOpen = false
  participants : o.state.participants = w.participants
  drawn : o.state.drawn = w.drawn
  quiet : ∀ t a, (t, a) ∈ o.state.trace → w.clock < t →
    (∀ m b, a = .handed s m b → m.kind ≠ some .participantJoin) ∧ (∀ p id, a ≠ .signalNew p id)
      ∧ (∀ p id, a ≠ .signalLeave p id) ∧ ∀ p id, a ≠ .leaveBroadcast p id

/-- The frame read only closes the session, and so does whatever completes on the session after
it. -/
def FailsLocally (E : Env) (w : Server) (s i : ℕ) (buf : Buffer 65536) (c : Choice) : Prop :=
  ∀ o, w.step E (.read s i buf c) = some o → OnlyCloses w s o
    ∧ ∀ es o', (∀ e ∈ es, e.Completes s) → (serverMachine E).exec o.state es = some o' →
      OnlyCloses w s o'

/-- A login with bad credentials is never local: with room left an id is drawn and setting the
option of the closed socket throws, and in a full room the session is told that it has joined. -/
theorem failed_login_not_local {E : Env} {w : Server} {s i : ℕ} {buf : Buffer 65536} {c : Choice}
    (hr : (w.sessions s).reads[i]? = some ⟨.handshake, true⟩)
    (hk : (receivedMessage buf).kind = some .handshakeCredentialsAck)
    (hbad : ¬ goodCredentials (receivedMessage buf)) : ¬ FailsLocally E w s i buf c := by
  intro h
  have hs : w.step E (.read s i buf c)
      = some ((w.tick.dropRead s i).onRead E c s .handshake (receivedMessage buf)) := by
    simp only [step, hr]
  obtain ⟨ho, -⟩ := h _ hs
  obtain ⟨ch, hc, hg⟩ := step_cases hs
  generalize (w.tick.dropRead s i).onRead E c s .handshake (receivedMessage buf) = o at ho hg
  cases hc with
  | quiet _ _ _ he => cases he
  | handshake _ _ _ _ _ hk' => exact hk' hk
  | refused =>
    have hmem : (w.clock + 1, .handed s (participantJoin (w.sessions s).mId).toMessage
        (decide (s ∈ w.participants))) ∈ o.state.trace := (mem_trace hg).2 (.inr ⟨rfl, by simp⟩)
    exact (ho.quiet _ _ hmem (Nat.lt_succ_self _)).1 _ _ rfl (by simp)
  | joinFailed => exact absurd (hg.returns.2 ho.returns) (by simp)
  | joined _ _ _ _ hgood => exact hbad hgood
  | joinAckCut hr' | joinAckFault _ _ hr' | joinAck _ _ hr' | ignored _ hr' | relay hr'
  | leaveAckFault hr' | leaveAck _ _ hr' => simp [hr] at hr'
  | leaveCut he | leave he => cases he

/-- Credentials left empty. -/
def emptyCredentials : XRMessage :=
  .ofPayload MessageHead.handshakeCredentialsAck.code [] XRMessage.nil_fits

/-- In a full room. -/
theorem failed_login_not_local_full : ∃ w, (serverMachine .counting).Reachable (.ok w)
    ∧ ¬ FailsLocally .counting w 0 0 emptyCredentials.frame .plain := by
  have hrun : ((serverMachine .counting).exec Server.init
      [.setMaxParticipants 0, .accept (some []) 0]).any
        (Outcome.okAnd fun w => (w.sessions 0).reads[0]? = some ⟨.handshake, true⟩) = true := by
    decide +kernel
  obtain ⟨r, w, hr, -, hw⟩ := Machine.exec_okAnd hrun
  exact ⟨w, ⟨r, hr⟩, failed_login_not_local (by simpa using hw) (by decide +kernel)
    (by decide +kernel)⟩

/-- A first connection that sends empty credentials: an exception leaves the service's thread. -/
theorem failed_login_ends_service : ∃ w, (serverMachine .counting).Reachable (.ok w)
    ∧ (w.sessions 0).reads[0]? = some ⟨.handshake, true⟩
    ∧ (receivedMessage emptyCredentials.frame).kind = some .handshakeCredentialsAck
    ∧ ¬ goodCredentials (receivedMessage emptyCredentials.frame)
    ∧ ¬ FailsLocally .counting w 0 0 emptyCredentials.frame .plain := by
  have hrun : ((serverMachine .counting).exec Server.init [.accept (some []) 0]).any
      (Outcome.okAnd fun w => (w.sessions 0).reads[0]? = some ⟨.handshake, true⟩
        ∧ (w.step .counting (.read 0 0 emptyCredentials.frame .plain)).any
          (fun o => !o.okAnd fun _ => true)) = true := by
    decide +kernel
  obtain ⟨r, w, hr, -, hw⟩ := Machine.exec_okAnd hrun
  simp only [decide_eq_true_eq, Option.any_eq_true] at hw
  obtain ⟨hread, o, ho, hfault⟩ := hw
  refine ⟨w, ⟨r, hr⟩, hread, by decide +kernel, by decide +kernel, fun h => ?_⟩
  rw [(h o ho).1.returns] at hfault
  cases hfault

/-- In every reachable state the members, and the sessions whose frames have ever made the room
announce, relay or remove anyone, had sent good credentials before, and every frame about a
participant was handed to a member. -/
theorem authentication_gate {E : Env} {o : Outcome Fault Server}
    (h : (serverMachine E).Reachable o) :
    (∀ s ∈ o.state.participants, o.state.CredentialsBefore (o.state.clock + 1) s)
    ∧ (∀ t s a, (t, a) ∈ o.state.trace → Act.CallsRoom s a → o.state.CredentialsBefore t s)
    ∧ ∀ t s m member, (t, .handed s m member) ∈ o.state.trace → RoomFrame m → member = true :=
  have hG := gate h
  ⟨hG.members, hG.calls, hG.frames⟩

/-- Two clients log in and one sends an update. -/
theorem authentication_gate_two : ∃ w, (serverMachine .counting).Reachable (.ok w)
    ∧ w.participants = [0, 1] ∧ w.CredentialsBefore (w.clock + 1) 0
    ∧ w.CredentialsBefore (w.clock + 1) 1 := by
  have hrun : ((serverMachine .counting).exec Server.init [.accept (some []) 0,
      .accept (some []) 0, .read 0 0 ChatClient.credentialsAck.frame .plain,
      .read 1 0 ChatClient.credentialsAck.frame .plain,
      .read 0 0 (ChatClient.updateAck 1 0 (.zero 12)).frame .plain]).any
        (Outcome.okAnd fun w => w.participants = [0, 1]) = true := by
    decide +kernel
  obtain ⟨r, w, hr, -, hw⟩ := Machine.exec_okAnd hrun
  have hw : w.participants = [0, 1] := by simpa using hw
  have hG := (authentication_gate (o := .ok w) ⟨r, hr⟩).1
  exact ⟨w, ⟨r, hr⟩, hw, hG 0 (by simp [hw]), hG 1 (by simp [hw])⟩

end XRNetwork
