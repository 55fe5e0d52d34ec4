import XRNetwork.Proofs.Dialogue
import XRNetwork.Proofs.HandOff
import XRNetwork.Proofs.Handed
import XRNetwork.Proofs.Ownership

/-!
# Every handshake can be completed

A session that has not joined and whose socket is open is being read from by its handshake loop
(`waiting`), and what was handed to it and is not being written yet is posted (`posted_returns`). So
of the two sides of a dialogue one always has something to do: as long as no write has failed,
whatever happened before, the connection's own traffic brings the client to its place in the room
(`handshake_completes`).
-/

namespace XRNetwork

namespace Server

variable {E : Env} {w w' : Server} {e : Event} {s i : ℕ} {buf : Buffer 65536} {c : Choice}

/-- Sessions that have not joined are being read from, or their socket is closed. -/
def Waiting (w : Server) : Prop :=
  ∀ s < w.made, (w.sides s).isOpen = true → ¬ w.Did (.joinCalled s) →
    (w.sessions s).reads = [⟨.handshake, true⟩]

theorem open_of_step (hs : w.step E e = some (.ok w')) (hlt : s < w.made)
    (ho : (w'.sides s).isOpen = true) : (w.sides s).isOpen = true := by
  by_contra hc
  have hclosed := closed_step hs hlt (by simpa using hc)
  simp [ho] at hclosed

theorem closed_of_handshakeFailed {b : Bool}
    (hr : (w.sessions s).reads[i]? = some ⟨.handshake, b⟩)
    (hs : w.step E (.readFailed s i c) = some (.ok w')) : (w'.sides s).isOpen = false := by
  simp only [step, hr] at hs
  cases hs
  simp [disconnect, setSide, WriteSide.close]

theorem waiting_step (hP : Phase w) (hW : Waiting w) (hs : w.step E e = some (.ok w')) :
    Waiting w' := by
  obtain ⟨ch, hc, hg⟩ := step_cases hs
  intro s hlt ho hnot
  have hmade : w'.made = ch.made := hg.made
  have hdid : ¬ w.Did (.joinCalled s) ∧ .joinCalled s ∉ ch.acts :=
    not_or.1 ((did_iff hg).not.1 hnot)
  have hself : w'.sessions ch.session = ch.record := sessions_self hg
  have hold : s < w.made → (w.sessions s).reads = [⟨.handshake, true⟩] := fun hlt =>
    hW s hlt (open_of_step hs hlt ho) hdid.1
  rcases eq_or_ne s ch.session with rfl | hne
  swap
  · rw [show w'.sessions s = _ from sessions_of_ne hg hne]
    refine hold ?_
    rcases hc.reads with ⟨h, -⟩ | ⟨hnew, h, -⟩ | ⟨-, -, -, -, h, -⟩ <;> omega
  rw [hself]
  -- a step about the session leaves its handshake's read, or starts the next
  have hsame : ch.made = w.made → (w.sessions ch.session).reads = [⟨.handshake, true⟩] :=
    fun h => hold (by omega)
  have hnotRoom : ∀ {t i : ℕ} {b : Bool}, ch.session = t →
      (w.sessions t).reads[i]? ≠ some ⟨.room, b⟩ := by
    rintro t i b rfl hx
    exact absurd (hP.room _ b (List.mem_of_getElem? hx)) hdid.1
  cases hc with
  | accepted => rfl
  | @handshake s i buf c rs d ms b hr hk hrs =>
    obtain ⟨-, hnil, hmem⟩ := hP.read_eq hr
    have hne := handshake_rereads hr hk hs
    rw [show (w'.sessions s).reads = _ from congrArg Session.reads hself] at hne
    show (w.readOver s i rs).reads = _
    have hreads : (w.readOver s i rs).reads = rs := by simp [readOver, hnil]
    rw [hreads]
    rcases hrs with rfl | rfl
    · exact absurd (by simp [readOver, hnil]) hne
    · have hopen : (w.sides s).isOpen = true := open_of_step hs hmem ho
      rw [hopen]
  | handshakeFailed b hr => simp [closed_of_handshakeFailed hr hs] at ho
  | refused | joinFailed => exact absurd (by simp) hdid.2
  | joined => exact absurd (by simp) hdid.2
  | joinAckCut hr | joinAckFault _ _ hr | joinAck _ _ hr | ignored _ hr | relay hr
  | leaveAckFault hr | leaveAck _ _ hr => exact absurd hr (hnotRoom rfl)
  | quiet t d b he => exact hsame rfl
  | removeFault t => exact hsame rfl
  | remove p => exact hsame rfl
  | leaveCut he =>
    cases he with
    | readFailed hr => exact absurd hr (hnotRoom rfl)
    | writeFailed => exact hsame rfl
  | leave he =>
    cases he with
    | readFailed hr => exact absurd hr (hnotRoom rfl)
    | writeFailed => exact hsame rfl

theorem waiting (hw : (serverMachine E).Reachable (.ok w)) : Waiting w := by
  obtain ⟨r, hr⟩ := hw
  refine hr.invariant_ok (P := fun _ _ => True) (I := Waiting) (fun s h => ?_)
    (fun w e w' hw hW _ hs => waiting_step (phase hw) hW hs) fun _ _ => trivial
  exact absurd h (Nat.not_lt_zero _)

/-! ## The two answers, when nothing stands in their way -/

theorem helloAck_returns (hr : (w.sessions s).reads[i]? = some ⟨.handshake, true⟩)
    (hk : (receivedMessage buf).kind = some .handshakeHelloAck) {d : Bytes}
    (hd : (receivedMessage buf).configuration = some d) :
    ∃ w', w.step E (.read s i buf c) = some (.ok w') ∧ (w'.sides s).isOpen = (w.sides s).isOpen
      ∧ (w'.sides s).lost = (w.sides s).lost ∧ (w'.sides s).started = (w.sides s).started
      ∧ w'.participants = w.participants ∧ w'.maxParticipants = w.maxParticipants := by
  have hstep : w.step E (.read s i buf c)
      = some ((w.tick.dropRead s i).onRead E c s .handshake (receivedMessage buf)) := by
    simp only [step, hr]
  rw [hstep]
  simp only [onRead, onReadHandshake, hk, checkHandshakeHelloAck, hd, Outcome.ok_andThen]
  simp [doReadHandshake, deliverByte, setSide, setSession, log, dropRead, tick,
    WriteSide.deliverByte]

theorem join_returns (hroom : w.participants.length < w.maxParticipants.toNat)
    (ho : (w.sides s).isOpen = true) (hcb : c.callback = .returns) :
    ∃ w', w.join E c s = .ok w' ∧ w'.sides = w.sides := by
  have hroom' : ¬ (w.log (.joinCalled s)).maxParticipants.toNat
      ≤ (w.log (.joinCalled s)).participants.length := not_le.2 hroom
  have hopen : (((w.log (.joinCalled s)).drawId E s).sides s).isOpen = true := ho
  unfold join
  simp only []
  rw [if_neg hroom', if_pos hopen, if_pos hcb]
  exact ⟨_, rfl, rfl⟩

theorem credentialsAck_returns (hr : (w.sessions s).reads[i]? = some ⟨.handshake, true⟩)
    (hk : (receivedMessage buf).kind = some .handshakeCredentialsAck)
    (hgood : goodCredentials (receivedMessage buf))
    (hroom : w.participants.length < w.maxParticipants.toNat) (ho : (w.sides s).isOpen = true)
    (hcb : c.callback = .returns) :
    ∃ w', w.step E (.read s i buf c) = some (.ok w') ∧ (w'.sides s).isOpen = (w.sides s).isOpen
      ∧ (w'.sides s).lost = (w.sides s).lost ∧ (w'.sides s).started = (w.sides s).started := by
  obtain ⟨x, hx, hsides⟩ := join_returns (E := E) (s := s)
    (w := ((w.tick.dropRead s i).log (.received s .handshake (receivedMessage buf))).doReadByte s)
    hroom ho hcb
  refine ⟨x.deliverByte s (participantJoin (x.sessions s).mId).toMessage, ?_, ?_⟩
  · simp only [step, hr, onRead, onReadHandshake, hk, checkHandshakeCredentialsAck, if_pos hgood,
      hx, Outcome.ok_andThen]
  · have hside : x.sides s = w.sides s := by
      rw [hsides]
      rfl
    simp [deliverByte, setSide, log, WriteSide.deliverByte, hside]

/-- What the session was told has been started or is posted. -/
theorem length_told (hw : (serverMachine E).Reachable (.ok w)) (s : ℕ) :
    (w.told s).length = (w.sides s).started.length + (w.sides s).posted.length := by
  have hsplit : (w.sides s).delivered = _ := WriteSide.split (side_reachable hw s)
  have hlen := congrArg List.length (delivered_eq hw s)
  rwa [Outcome.state_ok, hsplit, List.length_append, List.length_map, eq_comm] at hlen

/-- As long as a write is to be started its handler is posted, and starts it. -/
theorem posted_returns (hw : (serverMachine E).Reachable (.ok w))
    (hlt : (w.sides s).started.length < (w.told s).length) :
    ∃ x, w.step E (.posted s) = some (.ok (w.tick.setSide s x)) ∧ x.isOpen = (w.sides s).isOpen
      ∧ x.lost = (w.sides s).lost ∧ x.started.length = (w.sides s).started.length + 1 := by
  have htold := length_told hw s
  have hd : (w.sides s).deque = [] := WriteSide.deque_nil (side_reachable hw s)
  obtain ⟨b, rest, hp⟩ := List.exists_cons_of_length_pos (l := (w.sides s).posted) (by omega)
  simp only [step, WriteSide.runPosted, hp, hd, WriteSide.doWriteByte, List.isEmpty_nil,
    Bool.not_true, Bool.false_eq_true, if_false, List.nil_append, Option.map_some]
  exact ⟨_, rfl, rfl, rfl, by simp⟩

end Server

/-- Messages are written to the connection or read from it. -/
def LinkEvent.traffic (s : ℕ) : LinkEvent → Bool
  | .server (.posted t) => t == s
  | .deliver _ _ | .transmit | .receive _ => true
  | _ => false

namespace Link

open Server

variable {E : Env} {s : ℕ} {participantId serviceId : UInt64} {l : Link}

theorem agreed {o : Outcome Fault Link} (h : (linkMachine E s participantId serviceId).Reachable o)
    (hE : E.DistinctDraws o.state.server.drawn) : Agreed s o.state := by
  refine h.invariant (I := fun l => E.DistinctDraws l.server.drawn → Agreed s l) (fun _ => ?_)
    (fun l e o hl hI hs hE => ?_) hE
  · exact ⟨List.prefix_rfl, by simp [linkMachine, Link.init, transmitted],
      by simp [linkMachine, Link.init], by simp [linkMachine, Link.init],
      by simp [linkMachine, Link.init]⟩
  have hw : (serverMachine E).Reachable (.ok l.server) := server_reachable hl
  cases Link.step_cases hs with
  | server up hx =>
    rw [Outcome.state_map] at hE ⊢
    obtain ⟨ch, hc, hg⟩ := Server.step_cases hx
    exact (hI (hE.mono (drawn_le hc hg))).server hw hx up
  | transmit hm ho => exact (hI hE).transmit (greeted hw hE s) hm ho
  | receive t hd => exact (hI hE).receive (greeted hw hE s) hd t
  | timer t stack hu => exact (hI hE).timer hu t stack

/-- The session is made, its socket is open, no write of it has failed, and if its credentials are
still to come there is room for it. -/
structure Admissible (s : ℕ) (l : Link) : Prop where
  made : s < l.server.made
  isOpen : (l.server.sides s).isOpen = true
  lost : (l.server.sides s).lost = false
  room : (l.server.heard s).length < 2 →
    l.server.participants.length < l.server.maxParticipants.toNat

/-- What is left of the handshake: three messages, each to be told, its write to be started, to be
transmitted and to be processed. -/
def remaining (s : ℕ) (l : Link) : ℕ :=
  12 - (min 3 (l.server.told s).length + min 3 (l.server.sides s).started.length
    + min 3 l.transmitted.length + min 3 l.processed.length)

/-- The client has written what the session is waiting for, and the session reads it. -/
theorem delivers (h : (linkMachine E s participantId serviceId).Reachable (.ok l))
    (hA : Admissible s l) (hp : l.processed.length < 3)
    (hall : (l.server.told s).length ≤ l.processed.length) :
    ∃ l', l.step E s (.deliver 0 .plain) = some (.ok l') ∧ Admissible s l'
      ∧ l'.remaining s < l.remaining s := by
  have hD := dialogue h
  have hw : (serverMachine E).Reachable (.ok l.server) := server_reachable h
  have hturns := hD.turns hA.made
  have hanswers := hD.answers
  have hn : (l.server.heard s).length < 2 := by omega
  have hup := hD.up
  have hlen : l.written.length = (l.server.heard s).length + l.up.length := by
    rw [hup, List.length_append]
  rcases hcons : l.up with _ | ⟨m, up⟩
  · rw [hcons, List.length_nil] at hlen
    omega
  have hreads := waiting hw s hA.made hA.isOpen (hD.joined.not.2 (by omega))
  have hr : (l.server.sessions s).reads[0]? = some ⟨.handshake, true⟩ := by simp [hreads]
  have hwrote : ChatClient.script (l.server.heard s).length m := by
    have hscript := hD.wrote
    rw [hup, hcons] at hscript
    exact hscript.next
  have key : ∀ w', l.server.step E (.read s 0 m.frame .plain) = some (.ok w') →
      (w'.sides s).isOpen = (l.server.sides s).isOpen →
      (w'.sides s).lost = (l.server.sides s).lost →
      (w'.sides s).started = (l.server.sides s).started →
      ((l.server.heard s).length + 1 < 2 →
        w'.participants.length < w'.maxParticipants.toNat) →
      ∃ l', l.step E s (.deliver 0 .plain) = some (.ok l') ∧ Admissible s l'
        ∧ l'.remaining s < l.remaining s := by
    intro w' hs ho hl hst hroom
    have hstep : l.step E s (.deliver 0 .plain) = some (.ok { l with server := w', up }) := by
      simp only [step, hcons, hs, Option.map_some]
      rfl
    have hl' : (linkMachine E s participantId serviceId).Reachable
        (.ok { l with server := w', up }) :=
      h.step (show (linkMachine E s participantId serviceId).step l (.deliver 0 .plain) = _ from
        hstep)
    have hD' := dialogue hl'
    have hheard : (w'.heard s).length = (l.server.heard s).length + 1 := by
      have hup' : l.written = w'.heard s ++ up := hD'.up
      have hlen' := congrArg List.length hup'
      rw [List.length_append] at hlen'
      rw [hcons, List.length_cons] at hlen
      omega
    have hmade : s < w'.made := by
      obtain ⟨ch, hc, hg⟩ := Server.step_cases hs
      have hsucc := hc.made_cases
      have heq : w'.made = ch.made := hg.made
      have := hA.made
      omega
    refine ⟨_, hstep,
      ⟨hmade, ho.trans hA.isOpen, hl.trans hA.lost, fun hlt => hroom (hheard ▸ hlt)⟩, ?_⟩
    have hturns' : min 3 (w'.told s).length = min 3 ((w'.heard s).length + 1) := hD'.turns hmade
    have hdown := hD.down.length_le
    have hstarted := length_told hw s
    show 12 - (min 3 (w'.told s).length + min 3 (w'.sides s).started.length
      + min 3 l.transmitted.length + min 3 l.processed.length) < _
    rw [hst]
    unfold remaining
    omega
  rcases hheard0 : (l.server.heard s).length with _ | _ | n
  · rw [hheard0] at hwrote
    obtain ⟨id, t, rfl⟩ := hwrote
    obtain ⟨d, hd⟩ := ChatClient.configuration_helloAck id t
    have hk : (receivedMessage (ChatClient.helloAck id t).frame).kind = some .handshakeHelloAck := by
      rw [receivedMessage_frame, ChatClient.kind_helloAck]
    obtain ⟨w', hs, ho, hl, hst, hps, hmax⟩ := helloAck_returns (E := E) (c := .plain) hr hk
      (by rw [receivedMessage_frame, hd])
    refine key w' hs ho hl hst fun _ => ?_
    rw [hps, hmax]
    exact hA.room hn
  · rw [hheard0] at hwrote
    obtain rfl : m = ChatClient.credentialsAck := hwrote
    have hk : (receivedMessage ChatClient.credentialsAck.frame).kind
        = some .handshakeCredentialsAck := by
      rw [receivedMessage_frame, ChatClient.kind_credentialsAck]
    have hgood : goodCredentials (receivedMessage ChatClient.credentialsAck.frame) := by
      rw [receivedMessage_frame]
      exact ChatClient.good_credentialsAck
    obtain ⟨w', hs, ho, hl, hst⟩ := credentialsAck_returns (E := E) (c := .plain) hr hk hgood
      (hA.room hn) hA.isOpen rfl
    exact key w' hs ho hl hst fun hlt => by omega
  · omega

/-- Some message of the handshake can be sent on, or read. -/
theorem advances (h : (linkMachine E s participantId serviceId).Reachable (.ok l))
    (hA : Admissible s l) (hp : l.processed.length < 3) :
    ∃ e l', e.traffic s = true ∧ l.step E s e = some (.ok l') ∧ Admissible s l'
      ∧ l'.remaining s < l.remaining s := by
  have hD := dialogue h
  have hw : (serverMachine E).Reachable (.ok l.server) := server_reachable h
  have hdown := hD.down.length_le
  have hstarted := length_told hw s
  rcases hd : l.down with _ | ⟨m, down⟩
  swap
  · -- the client has something to read
    refine ⟨.receive 0, { l with
      client := (l.client.onMessage 0 m).1
      down
      processed := l.processed ++ [m] }.write (l.client.onMessage 0 m).2.toList, rfl,
      by simp only [step, hd], ⟨hA.made, hA.isOpen, hA.lost, hA.room⟩, ?_⟩
    have hsame : ((l.processed ++ [m]) ++ down).length = l.transmitted.length := by
      rw [transmitted, hd, List.append_assoc]
      rfl
    have hle : l.processed.length < l.transmitted.length := by
      rw [transmitted, hd]
      simp
    show 12 - (min 3 (l.server.told s).length + min 3 (l.server.sides s).started.length
      + min 3 ((l.processed ++ [m]) ++ down).length + min 3 (l.processed ++ [m]).length) < _
    rw [hsame, List.length_append]
    unfold remaining
    simp only [List.length_singleton]
    omega
  have hall : l.transmitted = l.processed := by rw [transmitted, hd, List.append_nil]
  by_cases hlt : l.transmitted.length < (l.server.told s).length
  swap
  · obtain ⟨l', hs, hA', hlt'⟩ := delivers h hA hp (by rw [hall] at hlt; omega)
    exact ⟨.deliver 0 .plain, l', rfl, hs, hA', hlt'⟩
  by_cases hst : l.transmitted.length < (l.server.sides s).started.length
  · -- a write has been started that has not gone out
    obtain ⟨m, hm⟩ : ∃ m, (l.server.told s)[l.transmitted.length]? = some m :=
      ⟨_, List.getElem?_eq_getElem hlt⟩
    have hsends : (l.server.sides s).sends l.transmitted.length = true := by
      simp [WriteSide.sends, hA.isOpen, hA.lost, hst]
    refine ⟨.transmit, { l with down := l.down ++ [m] }, rfl, ?_,
      ⟨hA.made, hA.isOpen, hA.lost, hA.room⟩, ?_⟩
    · simp only [step, hm, hsends, if_true]
    · have hnext : (l.processed ++ (l.down ++ [m])).length = l.transmitted.length + 1 := by
        rw [← List.append_assoc, List.length_append]
        rfl
      show 12 - (min 3 (l.server.told s).length + min 3 (l.server.sides s).started.length
        + min 3 (l.processed ++ (l.down ++ [m])).length + min 3 l.processed.length) < _
      rw [hnext]
      unfold remaining
      rw [hall] at hst ⊢
      omega
  · -- the next write is still to be started
    obtain ⟨x, hs, ho, hl, hlen⟩ := posted_returns hw (s := s) (by omega)
    have hself : (l.server.tick.setSide s x).sides s = x := by simp [setSide]
    refine ⟨.server (.posted s), { l with server := l.server.tick.setSide s x }, beq_self_eq_true s,
      ?_, ⟨hA.made, ?_, ?_, hA.room⟩, ?_⟩
    · simp only [step, Event.reader, reduceCtorEq, if_false, hs, Option.map_some]
      rfl
    · show ((l.server.tick.setSide s x).sides s).isOpen = true
      rw [hself, ho, hA.isOpen]
    · show ((l.server.tick.setSide s x).sides s).lost = false
      rw [hself, hl, hA.lost]
    · show 12 - (min 3 (l.server.told s).length
        + min 3 ((l.server.tick.setSide s x).sides s).started.length
        + min 3 l.transmitted.length + min 3 l.processed.length) < _
      rw [hself, hlen]
      unfold remaining
      rw [hall] at hst ⊢
      omega

end Link

open Link

/-- From every state of a chat client and its session, whatever other sessions have done, the
connection between the two carrying whole messages in order, as it does for one writer on either
side: if the session's socket is open, no write of it has failed, and the room has a place as long as
the session has not sent its credentials, then messages sent and read on the connection alone bring
the client, which keeps its own end open, to be told that it has joined, and if the draws are
distinct, it has. -/
theorem handshake_completes {E : Env} {s : ℕ} {participantId serviceId : UInt64} {l : Link}
    (h : (linkMachine E s participantId serviceId).Reachable (.ok l)) (hA : Admissible s l) :
    ∃ es l', (∀ e ∈ es, e.traffic s = true)
      ∧ (linkMachine E s participantId serviceId).exec l es = some (.ok l')
      ∧ l'.client.updating = true
      ∧ (E.DistinctDraws l'.server.drawn → l'.server.Did (.inserted s)
        ∧ l'.client.participantId = (l'.server.sessions s).mId) := by
  obtain ⟨es, l', hes, hexec, ⟨hl', -⟩, hrest⟩ := Machine.exec_until
    (M := linkMachine E s participantId serviceId)
    (I := fun l => (linkMachine E s participantId serviceId).Reachable (.ok l) ∧ Admissible s l)
    (R := fun l => 3 ≤ l.processed.length) (P := fun e => e.traffic s = true) (remaining s)
    (fun l hl hrest => by
      obtain ⟨e, l', he, hs, hA', hlt⟩ := advances hl.1 hl.2 (not_le.1 hrest)
      exact ⟨e, l', he, hs, ⟨hl.1.step hs, hA'⟩, hlt⟩) l ⟨h, hA⟩
  have hupdating := (dialogue hl').updating.2 hrest
  exact ⟨es, l', hes, hexec, hupdating, fun hE => (agreed hl' hE).id hupdating⟩

/-- A client has been accepted while another has joined. -/
theorem handshake_completes_accepted : ∃ l es l', (linkMachine .counting 1 0 0).Reachable (.ok l)
    ∧ (∀ e ∈ es, e.traffic 1 = true) ∧ (linkMachine .counting 1 0 0).exec l es = some (.ok l')
    ∧ l.processed = [] ∧ l'.client.updating = true := by
  have hrun : ((linkMachine .counting 1 0 0).exec (Link.init 0 0) (welcomedClient.take 3)).any
      (Outcome.okAnd fun l => 1 < l.server.made ∧ (l.server.sides 1).isOpen = true
        ∧ (l.server.sides 1).lost = false
        ∧ l.server.participants.length < l.server.maxParticipants.toNat ∧ l.processed = []) = true := by
    decide +kernel
  obtain ⟨r, l, hr, -, hl⟩ := Machine.exec_okAnd hrun
  obtain ⟨hmade, hopen, hlost, hroom, hnil⟩ := of_decide_eq_true hl
  obtain ⟨es, l', hes, hexec, hupdating, -⟩ :=
    handshake_completes ⟨r, hr⟩ ⟨hmade, hopen, hlost, fun _ => hroom⟩
  exact ⟨l, es, l', ⟨r, hr⟩, hes, hexec, hnil, hupdating⟩

end XRNetwork
