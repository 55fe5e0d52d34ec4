import XRNetwork.Proofs.Identity

/-!
# A join that is refused

`join` refuses by closing the socket and returns as if nothing had happened. Its caller goes on to
welcome the session, and the room read it has started, which can only fail now, ends in a `leave`
like a member's. So a refusal never goes unseen: the welcome is handed out, and the leave is
signalled and announced (`refused_never_quiet`).
-/

namespace XRNetwork

namespace Server

variable {E : Env} {w : Server} {o : Outcome Fault Server} {s i : ℕ} {buf : Buffer 65536}
  {c : Choice}

/-- The step has left the set alone, signalled nobody's joining or leaving, welcomed nobody and
handed nothing to a member. -/
structure NoTrace (w : Server) (o : Outcome Fault Server) : Prop where
  participants : o.state.participants = w.participants
  signals : ∀ s id, .signalNew s id ∉ newActs w o ∧ .signalLeave s id ∉ newActs w o
  welcomes : ∀ a m b, .handed a m b ∈ newActs w o → m.kind ≠ some .participantJoin
  members : ∀ a m b, .handed a m b ∈ newActs w o → a ∉ w.participants

/-- The `CREDENTIALS_ACK` of the session arrives when the room is full. -/
structure Refused (w : Server) (s i : ℕ) (buf : Buffer 65536) : Prop where
  full : w.maxParticipants.toNat ≤ w.participants.length
  read : (w.sessions s).reads[i]? = some ⟨.handshake, true⟩
  kind : (receivedMessage buf).kind = some .handshakeCredentialsAck
  good : goodCredentials (receivedMessage buf)

/-- The refusal leaves no trace. -/
def QuietRefusal (E : Env) (w : Server) (s i : ℕ) (buf : Buffer 65536) (c : Choice) : Prop :=
  ∀ o, w.step E (.read s i buf c) = some o → NoTrace w o

/-- Nor does any operation of the session that completes after it, whatever happens between. -/
def QuietCompletions (E : Env) (w : Server) (s i : ℕ) (buf : Buffer 65536) (c : Choice) : Prop :=
  ∀ o es w' e o', w.step E (.read s i buf c) = some o →
    (serverMachine E).exec o.state es = some (.ok w') → e.Completes s →
      w'.step E e = some o' → NoTrace w' o'

/-- The refused session is welcomed, and has a room read outstanding. -/
theorem refused_step (h : Refused w s i buf) (hs : w.step E (.read s i buf c) = some o) :
    Act.handed s (participantJoin (w.sessions s).mId).toMessage (decide (s ∈ w.participants))
      ∈ newActs w o
    ∧ ∃ (j : ℕ) (b : Bool), (o.state.sessions s).reads[j]? = some ⟨.room, b⟩ := by
  obtain ⟨ch, hc, hg⟩ := step_cases hs
  rw [newActs_eq hg, hg.sessions]
  have hr := h.read
  have hk := h.kind
  cases hc with
  | quiet _ _ _ he => cases he
  | handshake _ _ _ _ _ hk' => exact absurd hk hk'
  | refused b hr' =>
    refine ⟨by simp, (w.readOver s i [⟨.room, b⟩]).reads.length - 1, b, ?_⟩
    simp [readOver]
  | joinFailed _ _ hroom => exact absurd h.full hroom.not_ge
  | joined _ _ _ _ _ hroom => exact absurd h.full hroom.not_ge
  | joinAckCut hr' | joinAckFault _ _ hr' | joinAck _ _ hr' | ignored _ hr' | relay hr'
  | leaveAckFault hr' | leaveAck _ _ hr' => simp [hr] at hr'
  | leaveCut he | leave he => cases he

theorem readFailed_signals {j : ℕ} {b : Bool} (hr : (w.sessions s).reads[j]? = some ⟨.room, b⟩) :
    ∃ o, w.step E (.readFailed s j c) = some o
      ∧ .signalLeave s (w.sessions s).mId ∈ newActs w o := by
  have hs : ∃ o, w.step E (.readFailed s j c) = some o := by
    simp only [step, hr]
    exact ⟨_, rfl⟩
  obtain ⟨o, hs⟩ := hs
  refine ⟨o, hs, ?_⟩
  obtain ⟨ch, hc, hg⟩ := step_cases hs
  rw [newActs_eq hg]
  cases hc with
  | quiet _ _ _ he => cases he
  | handshakeFailed _ hr' => simp [hr] at hr'
  | leaveCut he =>
    cases he
    simp
  | leave he =>
    cases he
    simp

end Server

open Server

/-- In no state with a full room is a refused join quiet, neither the refusal itself nor what
completes on the session after it. -/
theorem refused_never_quiet {E : Env} {w : Server} {s i : ℕ} {buf : Buffer 65536} (c : Choice)
    (h : Refused w s i buf) :
    ¬ QuietRefusal E w s i buf c ∧ ¬ QuietCompletions E w s i buf c := by
  have hs : w.step E (.read s i buf c)
      = some ((w.tick.dropRead s i).onRead E c s .handshake (receivedMessage buf)) := by
    simp only [step, h.read]
  obtain ⟨hwelcome, j, b, hread⟩ := refused_step h hs
  constructor
  · intro hquiet
    exact (hquiet _ hs).welcomes _ _ _ hwelcome (kind_participantJoin _)
  · intro hquiet
    obtain ⟨o', hs', hsignal⟩ := readFailed_signals (E := E) (c := c) hread
    have hend := hquiet _ [] _ (.readFailed s j c) o' hs rfl rfl hs'
    exact (hend.signals _ _).2 hsignal

/-- A second client logs in to a room for one. -/
def loginToFullRoom : List Event := [.setMaxParticipants 1] ++ joins 1 ++ [.accept (some []) 0]

theorem refused_never_quiet_one : ∃ w, (serverMachine .counting).Reachable (.ok w)
    ∧ w.participants = [0]
    ∧ ¬ QuietRefusal .counting w 1 0 ChatClient.credentialsAck.frame .plain
    ∧ ¬ QuietCompletions .counting w 1 0 ChatClient.credentialsAck.frame .plain := by
  have hrun : ((serverMachine .counting).exec Server.init loginToFullRoom).any
      (Outcome.okAnd fun w => w.participants = [0] ∧ w.maxParticipants = 1
        ∧ (w.sessions 1).reads = [⟨.handshake, true⟩]) = true := by
    decide +kernel
  obtain ⟨r, w, hr, -, hw⟩ := Machine.exec_okAnd hrun
  obtain ⟨hps, hmax, hreads⟩ := of_decide_eq_true hw
  refine ⟨w, ⟨r, hr⟩, hps, refused_never_quiet .plain ⟨?_, ?_, ?_, ?_⟩⟩
  · simp [hps, hmax]
  · simp [hreads]
  · decide +kernel
  · decide +kernel

/-- The refused client is welcomed, and when its read fails the member is told that somebody, by
the id 0, has left. -/
theorem refusal_announced : ∃ w w' o o', (serverMachine .counting).Reachable (.ok w)
    ∧ Refused w 1 0 ChatClient.credentialsAck.frame
    ∧ w.step .counting (.read 1 0 ChatClient.credentialsAck.frame .plain) = some o
    ∧ (handedTo 1 (newActs w o)).map XRMessage.kind = [some .participantJoin]
    ∧ o = .ok w' ∧ w'.step .counting (.readFailed 1 0 .plain) = some o'
    ∧ (handedTo 0 (newActs w' o')).map XRMessage.kind = [some .participantLeave] := by
  have hrun : ((serverMachine .counting).exec Server.init loginToFullRoom).any
      (Outcome.okAnd fun w => w.participants = [0] ∧ w.maxParticipants = 1
        ∧ (w.sessions 1).reads = [⟨.handshake, true⟩]
        ∧ ((w.step .counting (.read 1 0 ChatClient.credentialsAck.frame .plain)).any fun o =>
          (handedTo 1 (newActs w o)).map XRMessage.kind = [some .participantJoin]
            ∧ o.okAnd (fun w' => (w'.step .counting (.readFailed 1 0 .plain)).any fun o' =>
              (handedTo 0 (newActs w' o')).map XRMessage.kind = [some .participantLeave])) = true)
      = true := by
    decide +kernel
  obtain ⟨r, w, hr, -, hw⟩ := Machine.exec_okAnd hrun
  obtain ⟨hps, hmax, hreads, hstep⟩ := of_decide_eq_true hw
  obtain ⟨o, hs, ho⟩ := (Option.any_eq_true _ _).1 hstep
  obtain ⟨hjoin, hok⟩ := of_decide_eq_true ho
  cases o with
  | fault f w' => cases hok
  | ok w' =>
    obtain ⟨o', hs', hleave⟩ := (Option.any_eq_true _ _).1 hok
    refine ⟨w, w', _, o', ⟨r, hr⟩, ⟨?_, ?_, ?_, ?_⟩, hs, hjoin, rfl, hs',
      of_decide_eq_true hleave⟩
    · simp [hps, hmax]
    · simp [hreads]
    · decide +kernel
    · decide +kernel

end XRNetwork
