import XRNetwork.ChatNet
import XRNetwork.Proofs.Crash
import XRNetwork.Proofs.Updates
import XRNetwork.Proofs.Welcome

/-!
# A room of chat clients

For each of its sessions the net is that client and its session, with all the others for
surroundings (`follows_link`), so each connection carries its dialogue. Then every update a session
reads is its own, and what a client is told of another are updates that one has written, in order
(`updates_end_to_end`); and no handler leaves an object or follows a null pointer unless that is
asked for from outside (`chat_clients_safe`).
-/

namespace XRNetwork

open Server

namespace ChatNet

variable {E : Env} {clients : ℕ → UInt64 × UInt64} {n n' : ChatNet} {e : ChatNetEvent} {s t : ℕ}

/-- What a step of the net is to one client and its session. -/
def linkEvents (s : ℕ) (n : ChatNet) : ChatNetEvent → List LinkEvent
  | .server e => [.server e]
  | .link t (.deliver i c) =>
    if t = s then [.deliver i c]
    else (n.ends t).up.head?.toList.map fun m => .server (.read t i m.frame c)
  | .link t e => if t = s then [e] else []

theorem link_putLink_self (n : ChatNet) (l : Link) : (n.putLink s l).link s = l := by
  simp [link, putLink]

theorem link_putLink_of_ne (n : ChatNet) (l : Link) (h : t ≠ s) :
    (n.putLink t l).link s = { n.link s with server := l.server } := by
  simp [link, putLink, Function.update_of_ne h.symm]

theorem link_step_ok {e : LinkEvent} (hs : n.step E (.link t e) = some (.ok n')) :
    ∃ l', (n.link t).step E t e = some (.ok l') ∧ n' = n.putLink t l' := by
  cases e with
  | server e => cases hs
  | deliver | transmit | receive | timer =>
    obtain ⟨o, ho, hmap⟩ := Option.map_eq_some_iff.1 hs
    obtain ⟨l', rfl, rfl⟩ := Outcome.map_eq_ok.1 hmap
    exact ⟨l', ho, rfl⟩

theorem link_step (hs : n.step E e = some (.ok n')) :
    (linkMachine E s (clients s).1 (clients s).2).exec (n.link s) (n.linkEvents s e)
      = some (.ok (n'.link s)) := by
  cases e with
  | server e =>
    simp only [step] at hs
    split_ifs at hs with hr
    obtain ⟨o, ho, hmap⟩ := Option.map_eq_some_iff.1 hs
    obtain ⟨w', rfl, rfl⟩ := Outcome.map_eq_ok.1 hmap
    refine Machine.exec_singleton.2 ?_
    have hne : e.reader ≠ some s := by simp [hr]
    simp only [linkMachine, Link.step, if_neg hne]
    rw [show (n.link s).server = n.server from rfl, ho]
    rfl
  | link t e =>
    obtain ⟨l', hl, rfl⟩ := link_step_ok hs
    by_cases hts : t = s
    · subst hts
      have hevents : n.linkEvents t (.link t e) = [e] := by cases e <;> simp [linkEvents]
      rw [link_putLink_self, hevents]
      exact Machine.exec_singleton.2 hl
    · -- on another connection only what the server reads is of any concern
      rw [link_putLink_of_ne _ _ hts]
      cases Link.moves hl with
      | server => cases hs
      | @deliver i c m up w' hup hread =>
        have hup : (n.ends t).up = m :: up := hup
        simp only [linkEvents, if_neg hts, hup]
        refine Machine.exec_singleton.2 ?_
        have hne : (Event.read t i m.frame c).reader ≠ some s := by simpa [Event.reader] using hts
        simp only [linkMachine, Link.step, if_neg hne]
        rw [show (n.link s).server.step E (.read t i m.frame c) = some (.ok w') from hread]
        rfl
      | transmit | receive | timer =>
        simp only [linkEvents, if_neg hts]
        rfl

theorem follows_link : (chatNetMachine E clients).Follows
    (linkMachine E s (clients s).1 (clients s).2) (fun _ _ => True) (fun _ => True) (link s)
    (linkEvents s) where
  holds := trivial
  init := rfl
  step := fun _ _ _ _ _ _ hs => ⟨trivial, link_step hs⟩

theorem link_reachable (h : (chatNetMachine E clients).Reachable (.ok n)) (s : ℕ) :
    (linkMachine E s (clients s).1 (clients s).2).Reachable (.ok (n.link s)) := by
  obtain ⟨r, hr⟩ := h
  exact follows_link.reachable hr fun _ _ => trivial

/-- The events that can happen to the server: what is read from a session is the next message its
client has written. -/
def Written (n : ChatNet) (e : Event) : Prop :=
  e.reader = none ∨ ∃ t i m up c, e = .read t i m.frame c ∧ (n.ends t).up = m :: up

theorem server_moves (hs : n.step E e = some (.ok n')) : n'.server = n.server
    ∨ ∃ e, n.Written e ∧ n.server.step E e = some (.ok n'.server) := by
  cases e with
  | server e =>
    simp only [step] at hs
    split_ifs at hs with hr
    obtain ⟨o, ho, hmap⟩ := Option.map_eq_some_iff.1 hs
    obtain ⟨w', rfl, rfl⟩ := Outcome.map_eq_ok.1 hmap
    exact .inr ⟨e, .inl hr, ho⟩
  | link t e =>
    obtain ⟨l', hl, rfl⟩ := link_step_ok hs
    cases Link.moves hl with
    | server => cases hs
    | @deliver i c m up w' hup hread => exact .inr ⟨_, .inr ⟨t, i, m, up, c, rfl, hup⟩, hread⟩
    | transmit | receive | timer => exact .inl rfl

theorem server_reachable (h : (chatNetMachine E clients).Reachable (.ok n)) :
    (serverMachine E).Reachable (.ok n.server) :=
  Link.server_reachable (link_reachable h 0)

/-- What its session reads from a client next. -/
theorem next_script (h : (chatNetMachine E clients).Reachable (.ok n)) {m : XRMessage}
    {up : List XRMessage} (hup : (n.ends t).up = m :: up) :
    ChatClient.script (n.server.heard t).length m ∧ m ∈ (n.ends t).written := by
  have hD := Link.dialogue (link_reachable h t)
  have hwritten : (n.ends t).written = n.server.heard t ++ m :: up := hup ▸ hD.up
  have hscript : Script ChatClient.script (n.ends t).written := hD.wrote
  rw [hwritten] at hscript ⊢
  exact ⟨hscript.next, by simp⟩

theorem ownUpdate (h : (chatNetMachine E clients).Reachable (.ok n))
    (hE : E.DistinctDraws n.server.drawn) {e : Event} (he : n.Written e) {o : Outcome Fault Server}
    (hs : n.server.step E e = some o) : n.server.OwnUpdate e := by
  rintro s i buf c rfl hk
  rcases he with hr | ⟨t, i', m, up, c', heq, hup⟩
  · cases hr
  cases heq
  rw [receivedMessage_frame] at hk ⊢
  obtain ⟨hscript, hmem⟩ := next_script h hup
  have hl := link_reachable h s
  obtain ⟨hin, hid⟩ := (Link.agreed hl hE).written m hmem hk
  refine ⟨?_, hin, hid⟩
  obtain ⟨-, ⟨hlt, -⟩ | ⟨-, hroom⟩⟩ := (Link.dialogue hl).loop (server_reachable h) hs
  · -- the answers of the handshake are no updates
    have hlt : (n.server.heard s).length < 2 := hlt
    rcases hheard : (n.server.heard s).length with _ | _ | k
    · rw [hheard] at hscript
      obtain ⟨id, t, rfl⟩ := hscript
      simp at hk
    · rw [hheard] at hscript
      obtain rfl : m = ChatClient.credentialsAck := hscript
      simp at hk
    · omega
  · exact hroom

theorem relayed (h : (chatNetMachine E clients).Reachable (.ok n)) {a b : ℕ} (hne : b ≠ a)
    (hE : E.DistinctDraws n.server.drawn) : Relayed a b n.server := by
  obtain ⟨r, hr⟩ := h
  refine hr.invariant_ok (P := fun _ _ => True)
    (I := fun n => E.DistinctDraws n.server.drawn → Relayed a b n.server)
    (fun _ => relayed_init a b) (fun n e n' hn hI _ hs hE => ?_) (fun _ _ => trivial) hE
  rcases server_moves hs with hsame | ⟨e', he', hs'⟩
  · rw [hsame] at hE ⊢
    exact hI hE
  · obtain ⟨ch, hc, hg⟩ := Server.step_cases hs'
    have hE' : E.DistinctDraws n.server.drawn := hE.mono (drawn_le hc hg)
    exact (hI hE').step hne (server_reachable hn) hs' (ownUpdate hn hE' he' hs') hE

/-- The answers of the handshake end with the zeros of their messages. -/
theorem not_printsPastMessage {k : ℕ} (hk : k < 2) {m : XRMessage} (hm : ChatClient.script k m) :
    ¬ PrintsPastMessage m := by
  rcases k with _ | _ | k
  · obtain ⟨id, t, rfl⟩ := hm
    rintro (⟨-, hno⟩ | ⟨hk, -⟩)
    · exact hno (XRMessage.ends_ofPayload (by simp) (by norm_num))
    · simp at hk
  · obtain rfl : m = ChatClient.credentialsAck := hm
    rintro (⟨hk, -⟩ | ⟨-, hno⟩)
    · simp at hk
    · exact hno (XRMessage.ends_ofPayload (by simp) (by norm_num))
  · omega

/-- What a client has written makes its session's handler throw, at worst. -/
theorem crash_read (h : (chatNetMachine E clients).Reachable (.ok n)) {i : ℕ} {c : Choice}
    {m : XRMessage} {up : List XRMessage} (hup : (n.ends t).up = m :: up)
    {o : Outcome Fault Server} (hs : n.server.step E (.read t i m.frame c) = some o) {f : Fault}
    (hf : n.server.crash (.read t i m.frame c) = some f) : f = .exception := by
  obtain ⟨hscript, -⟩ := next_script h hup
  obtain ⟨-, ⟨hlt, hread⟩ | ⟨hle, hread⟩⟩ :=
    (Link.dialogue (link_reachable h t)).loop (server_reachable h) hs
  · have hlt : (n.server.heard t).length < 2 := hlt
    have hread : (n.server.sessions t).reads[i]? = some ⟨.handshake, true⟩ := hread
    have hno : ¬ n.server.PrintsPast (.read t i m.frame c) := fun hp => by
      rw [PrintsPast, receivedMessage_frame] at hp
      exact not_printsPastMessage hlt hscript hp.2
    simp only [crash, if_neg hno, stepCrash, hread, receivedMessage_frame, handshakeCrash] at hf
    rcases hheard : (n.server.heard t).length with _ | _ | k
    · rw [hheard] at hscript
      obtain ⟨id, t, rfl⟩ := hscript
      obtain ⟨d, hd⟩ := ChatClient.configuration_helloAck id t
      simp [hd] at hf
    · rw [hheard] at hscript
      obtain rfl : m = ChatClient.credentialsAck := hscript
      rw [ChatClient.kind_credentialsAck] at hf
      simp only [Option.ite_none_right_eq_some, Option.some.injEq] at hf
      exact hf.2.symm
    · omega
  · have hle : 2 ≤ (n.server.heard t).length := hle
    have hread : (n.server.sessions t).reads[i]? = some ⟨.room, true⟩ := hread
    obtain ⟨id, t', stack, rfl⟩ := (ChatClient.script_of_le hle).1 hscript
    simp [crash, stepCrash, PrintsPast, hread, receivedMessage_frame, roomCrash] at hf

end ChatNet

open ChatNet

/-- In every state of a room of chat clients whose draws are distinct, all of whose connections carry
whole messages in order, as they do for one writer on either side: an update a client has processed
was written by another client that has joined, and carries its id; and the updates of another client
that a client has processed are an unbroken stretch of those the other has written, in their order,
none missing and none twice. -/
theorem updates_end_to_end {E : Env} {clients : ℕ → UInt64 × UInt64} {n : ChatNet}
    (h : (chatNetMachine E clients).Reachable (.ok n)) (hE : E.DistinctDraws n.server.drawn)
    (a : ℕ) :
    (∀ m ∈ updatesIn (n.ends a).processed, ∃ b, b ≠ a ∧ n.server.Did (.inserted b)
      ∧ m.participantId = (n.server.sessions b).mId ∧ m ∈ (n.ends b).written)
    ∧ ∀ b, b ≠ a → n.server.Did (.inserted b) →
      updatesOf (n.server.sessions b).mId (n.ends a).processed <:+: updatesIn (n.ends b).written := by
  have hprocessed : (n.ends a).processed <+: n.server.told a :=
    (List.prefix_append _ _).trans (Link.dialogue (link_reachable h a)).down
  have hstretch : ∀ b, b ≠ a → n.server.Did (.inserted b) →
      updatesOf (n.server.sessions b).mId (n.ends a).processed
        <:+: updatesIn (n.ends b).written := by
    intro b hne hin
    have hheard : n.server.heard b <+: (n.ends b).written :=
      ⟨_, (Link.dialogue (link_reachable h b)).up.symm⟩
    exact ((hprocessed.filter _).isInfix.trans ((relayed h hne hE).stretch hin)).trans
      (hheard.filter _).isInfix
  refine ⟨fun m hm => ?_, hstretch⟩
  obtain ⟨hmem, hk⟩ := mem_updatesIn.1 hm
  have htold : m ∈ updatesIn (n.server.told a) :=
    mem_updatesIn.2 ⟨hprocessed.subset hmem, hk⟩
  obtain ⟨b, hne, hin, hid⟩ := (relayed h (b := a + 1) (by omega) hE).source m htold
  refine ⟨b, hne, hin, hid, ?_⟩
  have hof : m ∈ updatesOf (n.server.sessions b).mId (n.ends a).processed := by
    simpa [updatesOf, XRMessage.Tells, hk, hid] using hmem
  exact (mem_updatesIn.1 ((hstretch b hne hin).subset hof)).1

/-- The session's next message goes out and is read. -/
def carries (s : ℕ) : List ChatNetEvent :=
  [.server (.posted s), .link s .transmit, .link s (.receive 0)]

/-- The handshake of the client on the connection. -/
def joinsOn (s : ℕ) : List ChatNetEvent :=
  carries s ++ [.link s (.deliver 0 .plain)] ++ carries s ++ [.link s (.deliver 0 .plain)]
    ++ carries s

/-- Two clients join, and the second one's update reaches the first. -/
def oneUpdate : List ChatNetEvent :=
  [.server (.accept (some []) 0), .server (.accept (some []) 0)] ++ joinsOn 0 ++ joinsOn 1
    ++ [.link 1 (.timer 0 (.zero 12)), .link 1 (.deliver 0 .plain)] ++ carries 0

theorem updates_end_to_end_one : ∃ n, (chatNetMachine .counting fun _ => (0, 0)).Reachable (.ok n)
    ∧ (updatesIn (n.ends 0).processed).length = 1
    ∧ updatesOf (n.server.sessions 1).mId (n.ends 0).processed
      <:+: updatesIn (n.ends 1).written := by
  have hrun : ((chatNetMachine .counting fun _ => (0, 0)).exec (.init fun _ => (0, 0))
      oneUpdate).any (Outcome.okAnd fun n => n.server.drawn = 2 ∧ n.server.participants = [0, 1]
        ∧ (updatesIn (n.ends 0).processed).length = 1) = true := by
    decide +kernel
  obtain ⟨r, n, hr, -, hn⟩ := Machine.exec_okAnd hrun
  obtain ⟨hdrawn, hps, hlen⟩ := of_decide_eq_true hn
  have hE : Env.counting.DistinctDraws n.server.drawn := by
    rw [hdrawn]
    decide +kernel
  have hM : Members n.server := members (ChatNet.server_reachable ⟨r, hr⟩)
  have hin : n.server.Did (.inserted 1) := hM.inserted 1 (by simp [hps])
  obtain ⟨-, hstretch⟩ := updates_end_to_end ⟨r, hr⟩ hE 0
  exact ⟨n, ⟨r, hr⟩, hlen, hstretch 1 (by decide) hin⟩

/-- In a room of chat clients, all of whose connections carry whole messages in order, no message of
theirs makes a handler of the server read, write or print out of bounds or follow a null pointer, in
whatever order they come; the worst is an exception. That takes a call from outside which disconnects
an id that nobody has, or a connection made to a server whose name does not fit the hello with a zero
behind it. -/
theorem chat_clients_safe {E : Env} {clients : ℕ → UInt64 × UInt64} {n : ChatNet} {e : Event}
    {f : Fault} {w : Server} (h : (chatNetMachine E clients).Reachable (.ok n)) (he : n.Written e)
    (hs : n.server.loggedStep E e = some (.fault f w)) :
    f = .exception
    ∨ (∃ id, e = .disconnectParticipant id ∧ n.server.getParticipantPtr id = none)
    ∨ ∃ ip t, e = .accept (some ip) t ∧ (1024 < n.server.serviceName.length
      ∨ n.server.serviceName.length = 1024 ∧ 0 ∉ n.server.serviceName) := by
  have hf : n.server.crash e = some f := (error_loggedStep (server_reachable h) hs).symm
  rcases he with hread | ⟨t, i, m, up, c, rfl, hup⟩
  swap
  · obtain ⟨o, ho, -⟩ := Option.map_eq_some_iff.1 hs
    exact .inl (crash_read h hup ho hf)
  by_cases hp : n.server.PrintsPast e
  · cases e with
    | accept ip t =>
      cases ip with
      | none => exact absurd hp id
      | some ip => exact .inr (.inr ⟨ip, t, rfl, .inr hp⟩)
    | read => cases hread
    | _ => exact absurd hp id
  rw [crash, if_neg hp] at hf
  cases e with
  | disconnectParticipant id =>
    simp only [stepCrash, Option.ite_none_right_eq_some, Option.isNone_iff_eq_none] at hf
    exact .inr (.inl ⟨id, rfl, hf.1⟩)
  | accept ip t =>
    cases ip with
    | none => exact .inl (Option.some.inj hf).symm
    | some ip =>
      simp only [stepCrash, Option.ite_none_right_eq_some] at hf
      exact .inr (.inr ⟨ip, t, rfl, .inl hf.1⟩)
  | read => cases hread
  | readFailed s i c =>
    simp only [stepCrash] at hf
    split at hf
    · simp only [Option.ite_none_right_eq_some, Option.some.injEq] at hf
      exact .inl hf.2.symm
    · cases hf
  | writeFailed s i c =>
    simp only [stepCrash, Option.ite_none_right_eq_some, Option.some.injEq] at hf
    exact .inl hf.2.symm
  | _ => cases hf

/-- A participant is disconnected that is not there. -/
theorem chat_clients_safe_unknown : ∃ n w,
    (chatNetMachine .counting fun _ => (0, 0)).Reachable (.ok n)
    ∧ n.server.participants = [0, 1]
    ∧ n.server.loggedStep .counting (.disconnectParticipant 5) = some (.fault .nullDereference w)
    ∧ n.server.getParticipantPtr 5 = none := by
  have hrun : ((chatNetMachine .counting fun _ => (0, 0)).exec (.init fun _ => (0, 0))
      oneUpdate).any (Outcome.okAnd fun n => n.server.participants = [0, 1]
        ∧ (n.server.loggedStep .counting (.disconnectParticipant 5)).any
          (Outcome.faultIs .nullDereference) = true) = true := by
    decide +kernel
  obtain ⟨r, n, hr, -, hn⟩ := Machine.exec_okAnd hrun
  obtain ⟨hps, hstep⟩ := of_decide_eq_true hn
  rcases hs : n.server.loggedStep .counting (.disconnectParticipant 5) with _ | ⟨w | ⟨f, w⟩⟩
  · simp [hs] at hstep
  · simp [hs, Outcome.faultIs] at hstep
  · obtain rfl : f = .nullDereference := by simpa [hs, Outcome.faultIs] using hstep
    rcases chat_clients_safe ⟨r, hr⟩ (.inl rfl) hs with h | ⟨id, hid, hnone⟩ | ⟨ip, t, he, -⟩
    · cases h
    · cases hid
      exact ⟨n, w, ⟨r, hr⟩, hps, hs, hnone⟩
    · cases he

end XRNetwork
