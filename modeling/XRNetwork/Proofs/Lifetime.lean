import XRNetwork.Proofs.Told

/-!
# Updates and lifetimes

The room relays whatever a room loop reads, whether or not the sender has been announced to the
receivers or has left. So updates stay inside the announced lifetime exactly in the runs in which,
whenever an update is relayed, its sender has been introduced to every member that gets it and no
such member has seen its id depart (`updates_in_lifetime_iff`). The chat client is never introduced.
-/

namespace XRNetwork

namespace Server

variable {E : Env} {w : Server} {e : Event} {o : Outcome Fault Server}

/-- An update the step hands out goes to sessions that have been told of the sender's arrival and
not of its departure. -/
def UpdateInLifetime (E : Env) (w : Server) : Event → Prop
  | .read s i buf c => (w.sessions s).reads[i]? = some ⟨.room, true⟩ →
      (receivedMessage buf).kind = some .participantUpdateAck →
      ∀ o, w.step E (.read s i buf c) = some o → ∀ a, receivedMessage buf ∈ handedTo a (newActs w o) →
        (∃ m ∈ w.told a, m.Tells .participantNew (w.sessions s).mId)
          ∧ ¬ ∃ m ∈ w.told a, m.Tells .participantLeave (w.sessions s).mId
  | _ => True

/-- If the step reads an update, then by the steps before it the sender has been introduced to every
other member, and its id has not departed while they were members. -/
def Acquainted (before : List (Server × Event)) (w : Server) : Event → Prop
  | .read s i buf _ => (w.sessions s).reads[i]? = some ⟨.room, true⟩ →
      (receivedMessage buf).kind = some .participantUpdateAck →
      ∀ a ∈ w.participants, (w.sessions a).mId ≠ (w.sessions s).mId →
        (∃ x ∈ before, x.1.Introduction a (w.sessions s).mId x.2)
          ∧ ¬ ∃ x ∈ before, x.1.Farewell a (w.sessions s).mId x.2
  | _ => True

theorem mem_handedTo_updateAck {s i : ℕ} {buf : Buffer 65536} {c : Choice} (hM : Members w)
    (hr : (w.sessions s).reads[i]? = some ⟨.room, true⟩)
    (hk : (receivedMessage buf).kind = some .participantUpdateAck)
    (hs : w.step E (.read s i buf c) = some o) (a : ℕ) :
    receivedMessage buf ∈ handedTo a (newActs w o) ↔
      a ∈ w.participants ∧ (w.sessions a).mId ≠ (w.sessions s).mId := by
  rw [step_updateAck hM hr hk hs, ← mem_others]
  split_ifs with h <;> simp [h]

theorem updateInLifetime_iff {r : List (Server × Event)} (hr : (serverMachine E).Run r (.ok w))
    (hs : w.step E e = some o) : UpdateInLifetime E w e ↔ Acquainted r w e := by
  have hM : Members w := members ⟨r, hr⟩
  cases e with
  | read s i buf c =>
    refine forall_congr' fun hread => forall_congr' fun hk => ?_
    simp only [told_new hr, told_leave hr]
    constructor
    · intro h a ha hne
      exact h o hs a ((mem_handedTo_updateAck hM hread hk hs a).2 ⟨ha, hne⟩)
    · intro h o hs a ha
      obtain ⟨ha, hne⟩ := (mem_handedTo_updateAck hM hread hk hs a).1 ha
      exact h a ha hne
  | _ => exact Iff.rfl

end Server

open Server

/-- In a run all updates are handed out within the announced lifetime of their senders if and only
if every sender is acquainted with those who get its update. -/
theorem updates_in_lifetime_iff {E : Env} {r : List (Server × Event)} {o : Outcome Fault Server}
    (hr : (serverMachine E).Run r o) :
    Machine.Steps (UpdateInLifetime E) r ↔
      ∀ r₁ w e, r₁ ++ [(w, e)] <+: r → Acquainted r₁ w e := by
  constructor
  · intro h r₁ w e hpre
    obtain ⟨hr₁, o₁, hs⟩ := hr.of_prefix hpre
    exact (updateInLifetime_iff hr₁ hs).1 (h (w, e) (hpre.subset (by simp)))
  · rintro h ⟨w, e⟩ hx
    obtain ⟨r₁, o₁, hr₁, hs, hpre⟩ := hr.before hx
    exact (updateInLifetime_iff hr₁ hs).2 (h r₁ w e hpre)

/-- Two clients join, each as itself, and the first sends an update. -/
def twoIntroduced : List Event :=
  joins 2 ++ [.read 0 0 (joinAckMessage 1).frame .plain, .read 1 0 (joinAckMessage 2).frame .plain,
    .read 0 0 (ChatClient.updateAck 1 0 (.zero 12)).frame .plain]

theorem updates_in_lifetime_iff_two : ∃ r w, (serverMachine .counting).Run r (.ok w)
    ∧ r.map Prod.snd = twoIntroduced
    ∧ (w.told 1).map XRMessage.kind = [some .handshakeHello, some .participantJoin,
      some .participantNew, some .participantNew, some .participantUpdateAck]
    ∧ Machine.Steps (UpdateInLifetime .counting) r := by
  have hrun : (((serverMachine .counting).restrict fun w e =>
      match e with
      | .read s _ buf _ => (receivedMessage buf).kind = some .participantUpdateAck →
          ∀ a ∈ w.participants, (w.sessions a).mId ≠ (w.sessions s).mId →
            (∃ m ∈ w.told a, m.Tells .participantNew (w.sessions s).mId)
              ∧ ¬ ∃ m ∈ w.told a, m.Tells .participantLeave (w.sessions s).mId
      | _ => true).exec Server.init twoIntroduced).any (Outcome.okAnd fun w =>
        (w.told 1).map XRMessage.kind = [some .handshakeHello, some .participantJoin,
          some .participantNew, some .participantNew, some .participantUpdateAck]) = true := by
    decide +kernel
  obtain ⟨r, w, hr, hes, hw⟩ := Machine.exec_okAnd hrun
  obtain ⟨hr, hsteps⟩ := Machine.restrict_run hr
  refine ⟨r, w, hr, hes, of_decide_eq_true hw, (updates_in_lifetime_iff hr).2 ?_⟩
  intro r₁ w e hpre
  obtain ⟨hr₁, -⟩ := hr.of_prefix hpre
  have hp := hsteps (w, e) (hpre.subset (by simp))
  cases e with
  | read s i buf c =>
    intro _ hk a ha hne
    rw [← told_new hr₁, ← told_leave hr₁]
    exact of_decide_eq_true hp hk a ha hne
  | _ => trivial

/-- The chat client at the other end of the session, when it has read all it was handed. -/
def chatClient (w : Server) (a : ℕ) : ChatClient :=
  (w.told a).foldl (fun c m => (c.onMessage 0 m).1) ⟨0, 0, false⟩

/-- Two chat clients join: they answer the hello and give their credentials. -/
def twoChatClients : List Event :=
  [.accept (some []) 0, .accept (some []) 0,
    .read 0 0 (ChatClient.helloAck 0 0).frame .plain,
    .read 1 0 (ChatClient.helloAck 0 0).frame .plain,
    .read 0 0 ChatClient.credentialsAck.frame .plain,
    .read 1 0 ChatClient.credentialsAck.frame .plain]

/-- The timer of the first expires, and the second gets an update from a participant that it has not
been told of. -/
theorem chat_update_unannounced : ∃ r w e o, (serverMachine .counting).Run (r ++ [(w, e)]) o
    ∧ r.map Prod.snd = twoChatClients ∧ (chatClient w 0).updating = true
    ∧ e = .read 0 0 (ChatClient.onTimer 0 (.zero 12) (chatClient w 0)).frame .plain
    ∧ (handedTo 1 (newActs w o)).map XRMessage.kind = [some .participantUpdateAck]
    ∧ ¬ Machine.Steps (UpdateInLifetime .counting) (r ++ [(w, e)]) := by
  have hrun : ((serverMachine .counting).exec Server.init twoChatClients).any
      (Outcome.okAnd fun w => (chatClient w 0).updating = true
        ∧ (w.sessions 0).reads[0]? = some ⟨.room, true⟩
        ∧ (receivedMessage (ChatClient.onTimer 0 (.zero 12) (chatClient w 0)).frame).kind
          = some .participantUpdateAck
        ∧ (∀ m ∈ w.told 1, m.kind ≠ some .participantNew)
        ∧ ((w.step .counting (.read 0 0
            (ChatClient.onTimer 0 (.zero 12) (chatClient w 0)).frame .plain)).any fun o =>
          (handedTo 1 (newActs w o)).map XRMessage.kind = [some .participantUpdateAck]) = true)
        = true := by
    decide +kernel
  obtain ⟨r, w, hr, hes, hw⟩ := Machine.exec_okAnd hrun
  obtain ⟨hup, hread, hk, hnone, ho⟩ := of_decide_eq_true hw
  obtain ⟨o, hs, hto⟩ := (Option.any_eq_true _ _).1 ho
  have hto := of_decide_eq_true hto
  have hs' : (serverMachine .counting).step w (.read 0 0
      (ChatClient.onTimer 0 (.zero 12) (chatClient w 0)).frame .plain) = some o := hs
  refine ⟨r, w, _, o, hr.snoc hs', hes, hup, rfl, hto, fun hsteps => ?_⟩
  have h := (Machine.steps_snoc.1 hsteps).2
  have hM : Members w := members ⟨r, hr⟩
  obtain ⟨m, hm, -⟩ := List.mem_map.1 (show some MessageHead.participantUpdateAck ∈ _ by
    rw [hto]
    exact List.mem_cons_self)
  have hmem : 1 ∈ w.participants ∧ (w.sessions 1).mId ≠ (w.sessions 0).mId := by
    rw [step_updateAck hM hread hk hs] at hm
    split_ifs at hm with h1
    · exact mem_others.1 h1
    · cases hm
  obtain ⟨⟨x, hx, hnew⟩, -⟩ := h hread hk o hs 1 ((mem_handedTo_updateAck hM hread hk hs 1).2 hmem)
  exact hnone x hx hnew.1

end XRNetwork
