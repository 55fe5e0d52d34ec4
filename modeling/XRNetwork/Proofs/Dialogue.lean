import XRNetwork.Prints
import XRNetwork.Proofs.Heard
import XRNetwork.Proofs.Sides
import XRNetwork.Lib.Script
import XRNetwork.Lib.Progress

/-!
# The dialogue of a chat client and its session

The client answers the hello, the request for credentials and nothing else, and sends updates when it
has been told that it has joined. So the two sides take turns until then: each message of the
handshake is sent once, in order, and the next only when the one before it was read (`Dialogue`).
-/

namespace XRNetwork

/-- What a session is told, in order: three messages of the handshake, then messages about others. -/
def sessionScript : ℕ → XRMessage → Prop
  | 0, m => ∃ hh : HandshakeHello, m = hh.toMessage
  | 1, m => m = HandshakeCredentials.default.toMessage
  | 2, m => ∃ id, m = (Server.participantJoin id).toMessage
  | _, m => m.IsRoomFrame

/-- What a chat client writes, in order: its two answers, then updates. -/
def ChatClient.script : ℕ → XRMessage → Prop
  | 0, m => ∃ id t, m = helloAck id t
  | 1, m => m = credentialsAck
  | _, m => ∃ id t stack, m = updateAck id t stack

theorem sessionScript_of_le {k : ℕ} (hk : 3 ≤ k) {m : XRMessage} :
    sessionScript k m ↔ m.IsRoomFrame := by
  obtain ⟨k, rfl⟩ := Nat.exists_eq_add_of_le' hk
  rfl

theorem ParticipantJoin.messageBuffer_toMessage (x : ParticipantJoin) :
    (x.toMessage.payload.drop 16).take 10240 = x.messageBuffer.toList := by
  have hpre : (LittleEndian.encode 8 x.participantId.toNat
      ++ (LittleEndian.encode 2 x.maxDataRate.toNat
        ++ (LittleEndian.encode 2 x.allowAsynchronousMessages.toNat
          ++ LittleEndian.encode 4 x.messageBuffersize.toNat))).length = 16 := by simp
  have hbytes : x.toMessage.payload = (LittleEndian.encode 8 x.participantId.toNat
      ++ (LittleEndian.encode 2 x.maxDataRate.toNat
        ++ (LittleEndian.encode 2 x.allowAsynchronousMessages.toNat
          ++ LittleEndian.encode 4 x.messageBuffersize.toNat)))
      ++ (x.messageBuffer.toList ++ List.replicate (65528 - x.toBytes.length) 0) := by
    rw [ParticipantJoin.toMessage, XRMessage.payload_ofPayload, ParticipantJoin.toBytes]
    simp only [List.append_assoc]
  rw [hbytes, List.drop_left' hpre, List.take_left' x.messageBuffer.toList_length]

theorem Server.terminated_participantJoin (id : UInt64) :
    Terminated (participantJoin id).messageBuffer.toList := by
  show 0 ∈ ascii "accepted in room" ++ List.replicate 10224 0
  exact List.mem_append_right _ (List.mem_replicate.2 ⟨by norm_num, rfl⟩)

namespace ChatClient

/-- What the client prints of the handshake ends in the message or in its copy. -/
theorem terminated_of_script {k : ℕ} (hk : k < 3) {m : XRMessage} (h : sessionScript k m) :
    ∀ b ∈ prints m, Terminated b := by
  rcases k with _ | _ | _ | k
  · obtain ⟨hh, rfl⟩ := h
    have hend : Terminated (hh.toMessage.payload.drop 28) :=
      XRMessage.ends_ofPayload (by simp) (by norm_num)
    simpa [prints] using hend
  · obtain rfl : m = _ := h
    have hend : Terminated (HandshakeCredentials.default.toMessage.payload.drop 4) :=
      XRMessage.ends_ofPayload (by simp) (by norm_num)
    simpa [prints] using hend
  · obtain ⟨id, rfl⟩ := h
    simpa [prints, ParticipantJoin.messageBuffer_toMessage] using
      Server.terminated_participantJoin id
  · omega

theorem script_of_le {k : ℕ} (hk : 2 ≤ k) {m : XRMessage} :
    script k m ↔ ∃ id t stack, m = updateAck id t stack := by
  obtain ⟨k, rfl⟩ := Nat.exists_eq_add_of_le' hk
  rfl

@[simp] theorem kind_helloAck (id t : UInt64) :
    (helloAck id t).kind = some .handshakeHelloAck := by
  rw [XRMessage.kind, helloAck, XRMessage.head_ofPayload, ofCode_code]

@[simp] theorem kind_credentialsAck : credentialsAck.kind = some .handshakeCredentialsAck := by
  rw [XRMessage.kind, credentialsAck, XRMessage.head_ofPayload, ofCode_code]

@[simp] theorem kind_updateAck (id t : UInt64) (stack : Buffer 12) :
    (updateAck id t stack).kind = some .participantUpdateAck := by
  rw [XRMessage.kind, updateAck, XRMessage.head_ofPayload, ofCode_code]

open LittleEndian in
theorem configuration_helloAck (id t : UInt64) : ∃ d, (helloAck id t).configuration = some d := by
  have hsize : field 16 4 (helloAck id t).payload = 20 := by
    have hpre : (encode 8 id.toNat ++ encode 8 t.toNat).length = 16 := by simp
    rw [helloAck, XRMessage.payload_ofPayload, HandshakeHelloAck.toBytes]
    simp only [List.append_assoc]
    rw [← List.append_assoc (encode 8 id.toNat), field_append hpre]
    decide
  rw [XRMessage.configuration, hsize, XRMessage.copy, if_pos (by decide)]
  exact ⟨_, rfl⟩

theorem good_credentialsAck : Server.goodCredentials credentialsAck := by decide +kernel

end ChatClient

namespace Server

variable {E : Env} {w w' : Server} {e : Event} {ch : Change} {o : Outcome Fault Server} {s i : ℕ}
  {buf : Buffer 65536} {c : Choice}

/-! ## The two answers -/

theorem step_helloAck_read (hr : (w.sessions s).reads[i]? = some ⟨.handshake, true⟩)
    (hk : (receivedMessage buf).kind = some .handshakeHelloAck)
    (hs : w.step E (.read s i buf c) = some (.ok w')) :
    handedTo s (newActs w (.ok w')) = [HandshakeCredentials.default.toMessage] := by
  simp only [step, hr] at hs
  have hok := Option.some.inj hs
  unfold onRead onReadHandshake at hok
  simp only [hk, checkHandshakeHelloAck] at hok
  split at hok
  · cases hok
  · cases hok
    simp [newActs, doReadHandshake, deliverByte, log, setSide, dropRead, setSession, tick, handedTo]

theorem Case.welcome (hr : (w.sessions s).reads[i]? = some ⟨.handshake, true⟩)
    (hk : (receivedMessage buf).kind = some .handshakeCredentialsAck)
    (hc : w.Case E (.read s i buf c) ch) (hret : ch.returns = true) :
    .joinCalled s ∈ ch.acts ∧ ∃ id, handedTo s ch.acts = [(participantJoin id).toMessage] := by
  cases hc with
  | quiet _ _ _ he => cases he
  | leaveCut he | leave he => cases he
  | handshake _ _ _ _ _ hk' => exact absurd hk hk'
  | joinFailed => cases hret
  | refused => exact ⟨by simp, _, by simp [handedTo, handedActs]; rfl⟩
  | joined x ps =>
    have hcb : c.callback = .returns := of_decide_eq_true hret
    exact ⟨by simp, E.rng w.drawn, by simp [handedTo, handedActs, hcb]⟩
  | joinAckCut hr' | joinAckFault _ _ hr' | joinAck _ _ hr' | ignored _ hr' | relay hr'
  | leaveAckFault hr' | leaveAck _ _ hr' => simp [hr] at hr'

theorem Case.made_cases (hc : w.Case E e ch) : ch.made = w.made ∨ ch.made = w.made + 1 := by
  rcases hc.reads with ⟨h, -⟩ | ⟨-, h, -⟩ | ⟨-, -, -, -, h, -⟩
  · exact .inl h
  · exact .inr h
  · exact .inl h

/-- Only a session that is read from can join. -/
theorem Case.not_joins (hc : w.Case E e ch) (hg : ch.Gives w o) (hs : w.step E e = some o)
    (hne : e.reader ≠ some s) : .joinCalled s ∉ ch.acts := by
  cases hc.handshakes hg hs s with
  | none _ hj => exact hj
  | helloAck _ _ _ _ _ _ _ hj => exact hj
  | credentialsAck i buf c he => exact absurd (congrArg Event.reader he) hne

end Server

namespace Link

open Server

variable {E : Env} {s : ℕ} {l l' : Link} {e : LinkEvent}

/-- Where the two sides are. -/
structure Dialogue (s : ℕ) (l : Link) : Prop where
  told : Script sessionScript (l.server.told s)
  wrote : Script ChatClient.script l.written
  unmade : l.server.made ≤ s → l.server.told s = []
  turns : s < l.server.made →
    min 3 (l.server.told s).length = min 3 ((l.server.heard s).length + 1)
  joined : l.server.Did (.joinCalled s) ↔ 2 ≤ (l.server.heard s).length
  answers : min 2 l.written.length = min 2 l.processed.length
  updates : 2 < l.written.length → 3 ≤ l.processed.length
  updating : l.client.updating = true ↔ 3 ≤ l.processed.length
  up : l.written = l.server.heard s ++ l.up
  down : l.transmitted <+: l.server.told s

theorem Dialogue.heard_eq_nil (h : Dialogue s l) (hs : l.server.made ≤ s) :
    l.server.heard s = [] := by
  have htold := h.unmade hs
  have hprocessed : l.processed = [] := by
    have hnil : l.transmitted = [] := List.prefix_nil.1 (htold ▸ h.down)
    exact (List.append_eq_nil_iff.1 hnil).1
  have hlen := h.answers
  have hwritten : l.written.length = 0 := by
    have h3 := h.updates
    rw [hprocessed] at hlen h3
    simp only [List.length_nil] at hlen h3
    omega
  rw [List.length_eq_zero_iff] at hwritten
  have hup := h.up
  rw [hwritten] at hup
  exact (List.append_eq_nil_iff.1 hup.symm).1

/-- A step that reads nothing from the session. -/
theorem Dialogue.server (h : Dialogue s l) (hw : (serverMachine E).Reachable (.ok l.server))
    {e : Event} {w' : Server} (hs : l.server.step E e = some (.ok w'))
    (hne : e.reader ≠ some s) : Dialogue s { l with server := w' } := by
  obtain ⟨ch, hc, hg⟩ := Server.step_cases hs
  have htold : w'.told s = l.server.told s ++ handedTo s ch.acts := told_step hg s
  have hheard : w'.heard s = l.server.heard s := by
    have hstep := heard_step hg s
    rwa [hc.heard_of_ne hne, List.append_nil] at hstep
  have hdid : w'.Did (.joinCalled s) ↔ l.server.Did (.joinCalled s) :=
    (did_iff hg).trans (or_iff_left (hc.not_joins hg hs hne))
  have hmade : w'.made = ch.made := hg.made
  have hM : Members l.server := members hw
  have hup : l.written = w'.heard s ++ l.up := hheard.symm ▸ h.up
  have hdown : l.transmitted <+: w'.told s := htold ▸ h.down.trans (List.prefix_append _ _)
  have hjoined : w'.Did (.joinCalled s) ↔ 2 ≤ (w'.heard s).length := by
    rw [hdid, hheard]
    exact h.joined
  cases hc.addressed hg hs hne with
  | hello hs' hm hh ht =>
    have hle : l.server.made ≤ s := hs'.ge
    have htold' : w'.told s = [hh.toMessage] := by rw [htold, h.unmade hle, ht, List.nil_append]
    refine ⟨?_, h.wrote, fun hle => ?_, fun _ => ?_, hjoined, h.answers, h.updates, h.updating, hup,
      hdown⟩
    · show Script sessionScript (w'.told s)
      rw [htold']
      exact Script.nil.snoc ⟨hh, rfl⟩
    · have hle : w'.made ≤ s := hle
      omega
    · show min 3 (w'.told s).length = min 3 ((w'.heard s).length + 1)
      rw [htold', hheard, h.heard_eq_nil hle]
      rfl
  | others hm ht =>
    have hmember : handedTo s ch.acts ≠ [] → s < l.server.made
        ∧ 3 ≤ (l.server.told s).length := by
      intro hne
      obtain ⟨m, hmem⟩ := List.exists_mem_of_ne_nil _ hne
      have hin := hM.joined s (hM.inserted s (ht m hmem).1)
      have hlt : s < l.server.made := by
        by_contra hle
        exact ((phase hw).fresh s (not_lt.1 hle)).2 hin
      have hheard2 := h.joined.1 hin
      have hturns := h.turns hlt
      exact ⟨hlt, by omega⟩
    refine ⟨?_, h.wrote, fun hle => ?_, fun hlt => ?_, hjoined, h.answers, h.updates, h.updating,
      hup, hdown⟩
    · show Script sessionScript (w'.told s)
      rw [htold]
      exact h.told.append_of_le (fun hne => (hmember hne).2) fun m hmem k hk =>
        (sessionScript_of_le hk).2 (ht m hmem).2
    · have hle : w'.made ≤ s := hle
      have hmade' : l.server.made ≤ s := by
        have := hc.made_cases
        omega
      show w'.told s = []
      rw [htold, h.unmade hmade', List.nil_append]
      by_contra hne
      have := (hmember hne).1
      omega
    · have hlt' : s < w'.made := hlt
      have hmade' : s < l.server.made := by
        rcases hc.made_cases with hsame | hsucc
        · omega
        · by_contra hge
          have := hm (by omega)
          omega
      show min 3 (w'.told s).length = min 3 ((w'.heard s).length + 1)
      rw [htold, hheard]
      have hturns := h.turns hmade'
      rcases eq_or_ne (handedTo s ch.acts) [] with hnil | hne
      · rwa [hnil, List.append_nil]
      · have hlen := (hmember hne).2
        rw [List.length_append]
        omega

/-- The read that a frame completes is the handshake loop's until the session has joined. -/
theorem Dialogue.loop (h : Dialogue s l) (hw : (serverMachine E).Reachable (.ok l.server)) {i : ℕ}
    {buf : Buffer 65536} {c : Choice} {o : Outcome Fault Server}
    (hs : l.server.step E (.read s i buf c) = some o) : s < l.server.made
      ∧ ((l.server.heard s).length < 2 ∧ (l.server.sessions s).reads[i]? = some ⟨.handshake, true⟩
      ∨ 2 ≤ (l.server.heard s).length ∧ (l.server.sessions s).reads[i]? = some ⟨.room, true⟩) := by
  have hP : Phase l.server := phase hw
  simp only [Server.step] at hs
  split at hs
  · rename_i loop hr
    have hmem : (⟨loop, true⟩ : PendingRead) ∈ (l.server.sessions s).reads :=
      List.mem_of_getElem? hr
    refine ⟨(hP.read_eq hr).2.2, ?_⟩
    cases loop with
    | handshake =>
      have hnot := h.joined.not.1 (hP.handshake s _ hmem)
      exact .inl ⟨by omega, hr⟩
    | room => exact .inr ⟨h.joined.1 (hP.room s _ hmem), hr⟩
  · cases hs

/-- The session reads the next message the client has written, and answers it. -/
theorem Dialogue.deliver (h : Dialogue s l) (hw : (serverMachine E).Reachable (.ok l.server))
    {m : XRMessage} {up : List XRMessage} (hup : l.up = m :: up) {i : ℕ} {c : Choice} {w' : Server}
    (hs : l.server.step E (.read s i m.frame c) = some (.ok w')) :
    Dialogue s { l with server := w', up } := by
  obtain ⟨ch, hc, hg⟩ := Server.step_cases hs
  obtain ⟨hlt, hloop⟩ := h.loop hw hs
  have hwrote : ChatClient.script (l.server.heard s).length m := by
    have hscript := h.wrote
    rw [h.up, hup] at hscript
    exact hscript.next
  have hheard : w'.heard s = l.server.heard s ++ [m] := by
    have hstep := heard_step hg s
    rwa [hc.heard_read, receivedMessage_frame] at hstep
  have htold : w'.told s = l.server.told s ++ handedTo s ch.acts := told_step hg s
  have hturns := h.turns hlt
  have key : Script sessionScript (w'.told s) →
      min 3 (w'.told s).length = min 3 ((l.server.heard s).length + 2) →
      ((l.server.Did (.joinCalled s) ∨ .joinCalled s ∈ ch.acts)
        ↔ 2 ≤ (l.server.heard s).length + 1) → Dialogue s { l with server := w', up } := by
    intro hscript hlen hjoins
    refine ⟨hscript, h.wrote, fun hle => ?_, fun _ => ?_, ?_, h.answers, h.updates, h.updating, ?_, ?_⟩
    · have hle : w'.made ≤ s := hle
      have hmade : w'.made = ch.made := hg.made
      have := hc.made_cases
      omega
    · show min 3 (w'.told s).length = min 3 ((w'.heard s).length + 1)
      rwa [hheard, List.length_append]
    · show w'.Did (.joinCalled s) ↔ 2 ≤ (w'.heard s).length
      rw [hheard, List.length_append]
      exact (did_iff hg).trans hjoins
    · show l.written = w'.heard s ++ up
      rw [h.up, hup, hheard, List.append_assoc]
      rfl
    · show l.transmitted <+: w'.told s
      rw [htold]
      exact h.down.trans (List.prefix_append _ _)
  rcases hloop with ⟨hn, hr⟩ | ⟨hn, hr⟩
  · rcases hheard0 : (l.server.heard s).length with _ | _ | n
    · -- the answer to the hello
      rw [hheard0] at hwrote hturns hn
      obtain ⟨id, t, rfl⟩ := hwrote
      have hkind : (receivedMessage (ChatClient.helloAck id t).frame).kind
          = some .handshakeHelloAck := by
        rw [receivedMessage_frame, ChatClient.kind_helloAck]
      have hhanded := step_helloAck_read hr hkind hs
      rw [newActs_eq hg] at hhanded
      have hlen : (l.server.told s).length = 1 := by omega
      rw [hhanded] at htold
      refine key ?_ (by rw [htold, List.length_append, hlen, hheard0]; rfl) ?_
      · rw [htold]
        refine h.told.snoc ?_
        rw [hlen]
        exact rfl
      · refine iff_of_false (not_or.2 ⟨h.joined.not.2 (by omega), ?_⟩) (by omega)
        cases hc.handshakes hg hs s with
        | none _ hj => exact hj
        | helloAck _ _ _ _ _ _ _ hj => exact hj
        | credentialsAck i' buf' c' he hr' hk' =>
          cases he
          simp [hkind] at hk'
    · -- the credentials
      rw [hheard0] at hwrote hturns hn
      have hkind : (receivedMessage m.frame).kind = some .handshakeCredentialsAck := by
        rw [receivedMessage_frame, show m = ChatClient.credentialsAck from hwrote,
          ChatClient.kind_credentialsAck]
      obtain ⟨hj, id, hhanded⟩ := hc.welcome hr hkind (hg.returns.2 rfl)
      have hlen : (l.server.told s).length = 2 := by omega
      rw [hhanded] at htold
      refine key ?_ (by rw [htold, List.length_append, hlen, hheard0]; rfl) ?_
      · rw [htold]
        refine h.told.snoc ?_
        rw [hlen]
        exact ⟨id, rfl⟩
      · exact iff_of_true (.inr hj) (by omega)
    · omega
  · -- an update
    obtain ⟨id, t, stack, rfl⟩ := (ChatClient.script_of_le hn).1 hwrote
    have hkind : (receivedMessage (ChatClient.updateAck id t stack).frame).kind
        = some .participantUpdateAck := by
      rw [receivedMessage_frame, ChatClient.kind_updateAck]
    have hM : Members l.server := members hw
    have hhanded := step_updateAck hM hr hkind hs s
    rw [newActs_eq hg, if_neg (by simp [mem_others])] at hhanded
    rw [hhanded, List.append_nil] at htold
    refine key (htold ▸ h.told) (by rw [htold]; omega) ?_
    have hdid := h.joined.2 hn
    exact iff_of_true (.inl hdid) (by omega)

theorem Dialogue.transmit (h : Dialogue s l) {m : XRMessage}
    (hm : (l.server.told s)[l.transmitted.length]? = some m) :
    Dialogue s { l with down := l.down ++ [m] } := by
  refine ⟨h.told, h.wrote, h.unmade, h.turns, h.joined, h.answers, h.updates, h.updating, h.up, ?_⟩
  have hnext : l.processed ++ (l.down ++ [m]) = l.transmitted ++ [m] :=
    (List.append_assoc _ _ _).symm
  obtain ⟨rest, hrest⟩ := h.down
  rw [← hrest, List.getElem?_append_right le_rfl, Nat.sub_self] at hm
  rcases rest with _ | ⟨y, rest⟩
  · simp at hm
  · obtain rfl : y = m := by simpa using hm
    show l.processed ++ (l.down ++ [y]) <+: l.server.told s
    rw [hnext, ← hrest]
    exact ⟨rest, List.append_assoc _ _ _⟩

/-- The client answers what it is due to answer. -/
theorem Dialogue.receive (h : Dialogue s l) {m : XRMessage} {down : List XRMessage}
    (hd : l.down = m :: down) (t : UInt64) : Dialogue s ({ l with
      client := (l.client.onMessage t m).1
      down
      processed := l.processed ++ [m] }.write (l.client.onMessage t m).2.toList) := by
  have hsame : (l.processed ++ [m]) ++ down = l.transmitted := by
    rw [transmitted, hd, List.append_assoc]
    rfl
  have hscript : sessionScript l.processed.length m := by
    have hprefix := h.told.of_prefix h.down
    rw [transmitted, hd] at hprefix
    exact hprefix.next
  have hanswers := h.answers
  have hupdates := h.updates
  have hupdating := h.updating
  have key : ∀ (x : ChatClient) (ms : List XRMessage), l.client.onMessage t m = (x, ms.head?) →
      ms.length ≤ 1 → Script ChatClient.script (l.written ++ ms) →
      min 2 (l.written ++ ms).length = min 2 (l.processed.length + 1) →
      (ms ≠ [] → l.processed.length < 2) → (x.updating = true ↔ 3 ≤ l.processed.length + 1) →
      Dialogue s ({ l with
        client := (l.client.onMessage t m).1
        down
        processed := l.processed ++ [m] }.write (l.client.onMessage t m).2.toList) := by
    intro x ms hx hlen hscript hmin hne hupd
    have hms : (l.client.onMessage t m).2.toList = ms := by
      rw [hx]
      rcases ms with _ | ⟨a, _ | ⟨b, ms⟩⟩
      · rfl
      · rfl
      · simp at hlen
    rw [hms, hx]
    refine ⟨h.told, hscript, h.unmade, h.turns, h.joined, ?_, fun hlt => ?_, ?_, ?_, ?_⟩
    · show min 2 (l.written ++ ms).length = min 2 (l.processed ++ [m]).length
      rwa [List.length_append, List.length_append, ← List.length_append]
    · have hlt : 2 < (l.written ++ ms).length := hlt
      show 3 ≤ (l.processed ++ [m]).length
      rw [List.length_append] at hlt ⊢
      rcases eq_or_ne ms [] with rfl | hms
      · have := hupdates (by simpa using hlt)
        omega
      · have := hne hms
        omega
    · show x.updating = true ↔ 3 ≤ (l.processed ++ [m]).length
      rwa [List.length_append]
    · show l.written ++ ms = l.server.heard s ++ (l.up ++ ms)
      rw [h.up, List.append_assoc]
    · show (l.processed ++ [m]) ++ down <+: l.server.told s
      rw [hsame]
      exact h.down
  rcases hn : l.processed.length with _ | _ | _ | n
  · rw [hn] at hscript hanswers
    have hk : m.kind = some .handshakeHello := by
      obtain ⟨hh, rfl⟩ := hscript
      exact kind_handshakeHello hh
    have hlen : l.written.length = 0 := by omega
    refine key _ [ChatClient.helloAck (.ofNat (LittleEndian.field 0 8 m.payload)) t] (by
      simp only [ChatClient.onMessage, hk]
      rfl) le_rfl ?_ (by simp [hlen, hn]) (by simp [hn]) ?_
    · refine h.wrote.snoc ?_
      rw [hlen]
      exact ⟨_, _, rfl⟩
    · simp [hupdating, hn]
  · rw [hn] at hscript hanswers
    have hk : m.kind = some .handshakeCredentials := by
      obtain rfl : m = _ := hscript
      exact kind_handshakeCredentials _
    have hlen : l.written.length = 1 := by omega
    refine key l.client [ChatClient.credentialsAck] (by simp only [ChatClient.onMessage, hk]; rfl)
      le_rfl ?_ (by simp [hlen, hn]) (by simp [hn]) (by simp [hupdating, hn])
    refine h.wrote.snoc ?_
    rw [hlen]
    exact rfl
  · rw [hn] at hscript
    have hk : m.kind = some .participantJoin := by
      obtain ⟨id, rfl⟩ := hscript
      exact kind_participantJoin _
    refine key { l.client with participantId := m.participantId, updating := true } []
      (by simp only [ChatClient.onMessage, hk]; rfl) (by simp) (by simpa using h.wrote) ?_ (by simp)
      (by simp [hn])
    rw [List.append_nil]
    omega
  · rw [hn] at hscript
    refine key l.client [] ?_ (by simp) (by simpa using h.wrote) ?_ (by simp) ?_
    · rcases hscript with hk | hk | hk <;> simp only [ChatClient.onMessage, hk] <;> rfl
    · rw [List.append_nil]
      omega
    · rw [hupdating, hn]
      omega

theorem Dialogue.timer (h : Dialogue s l) (hu : l.client.updating = true) (t : UInt64)
    (stack : Buffer 12) : Dialogue s (l.write [l.client.onTimer t stack]) := by
  have hprocessed := h.updating.1 hu
  have hanswers := h.answers
  refine ⟨h.told, ?_, h.unmade, h.turns, h.joined, ?_, fun _ => hprocessed, h.updating, ?_, h.down⟩
  · refine h.wrote.snoc ((ChatClient.script_of_le (by omega)).2 ?_)
    exact ⟨_, _, _, rfl⟩
  · show min 2 (l.written ++ [l.client.onTimer t stack]).length = min 2 l.processed.length
    rw [List.length_append]
    omega
  · show l.written ++ [l.client.onTimer t stack] = l.server.heard s ++ (l.up ++ _)
    rw [h.up, List.append_assoc]

/-- The steps that return. -/
inductive Moves (E : Env) (s : ℕ) (l : Link) : LinkEvent → Link → Prop
  | server {e : Event} {w' : Server} (hne : e.reader ≠ some s)
      (hs : l.server.step E e = some (.ok w')) : Moves E s l (.server e) { l with server := w' }
  | deliver {i : ℕ} {c : Choice} {m : XRMessage} {up : List XRMessage} {w' : Server}
      (hup : l.up = m :: up) (hs : l.server.step E (.read s i m.frame c) = some (.ok w')) :
      Moves E s l (.deliver i c) { l with server := w', up }
  | transmit {m : XRMessage} (hm : (l.server.told s)[l.transmitted.length]? = some m) :
      Moves E s l .transmit { l with down := l.down ++ [m] }
  | receive {t : UInt64} {m : XRMessage} {down : List XRMessage} (hd : l.down = m :: down) :
      Moves E s l (.receive t) ({ l with
        client := (l.client.onMessage t m).1
        down
        processed := l.processed ++ [m] }.write (l.client.onMessage t m).2.toList)
  | timer {t : UInt64} {stack : Buffer 12} (hu : l.client.updating = true) :
      Moves E s l (.timer t stack) (l.write [l.client.onTimer t stack])

theorem moves (hs : l.step E s e = some (.ok l')) : Moves E s l e l' := by
  cases e with
  | server e =>
    simp only [step] at hs
    split_ifs at hs with hne
    obtain ⟨o, ho, hmap⟩ := Option.map_eq_some_iff.1 hs
    obtain ⟨w', rfl, rfl⟩ := Outcome.map_eq_ok.1 hmap
    exact .server hne ho
  | deliver i c =>
    simp only [step] at hs
    split at hs
    · cases hs
    · rename_i m up hup
      obtain ⟨o, ho, hmap⟩ := Option.map_eq_some_iff.1 hs
      obtain ⟨w', rfl, rfl⟩ := Outcome.map_eq_ok.1 hmap
      exact .deliver hup ho
  | transmit =>
    simp only [step] at hs
    split at hs
    · cases hs
    · rename_i m hm
      split_ifs at hs
      cases hs
      exact .transmit hm
  | receive t =>
    simp only [step] at hs
    split at hs
    · cases hs
    · rename_i m down hd
      cases hs
      exact .receive hd
  | timer t stack =>
    simp only [step] at hs
    split_ifs at hs with hu
    cases hs
    exact .timer hu

theorem dialogue_step (h : Dialogue s l) (hw : (serverMachine E).Reachable (.ok l.server))
    (hs : l.step E s e = some (.ok l')) : Dialogue s l' := by
  cases moves hs with
  | server hne ho => exact h.server hw ho hne
  | deliver hup ho => exact h.deliver hw hup ho
  | transmit hm => exact h.transmit hm
  | receive hd => exact h.receive hd _
  | timer hu => exact h.timer hu _ _

theorem dialogue {participantId serviceId : UInt64}
    (h : (linkMachine E s participantId serviceId).Reachable (.ok l)) : Dialogue s l := by
  obtain ⟨r, hr⟩ := h
  refine hr.invariant_ok (P := fun _ _ => True) (I := Dialogue s) ?_ (fun l e l' hl hI _ hs => ?_)
    fun _ _ => trivial
  · exact ⟨Script.nil, Script.nil, fun _ => rfl, fun h => absurd h (Nat.not_lt_zero _),
      iff_of_false (by simp [linkMachine, Link.init, Did, Server.init]) (by
        simp [linkMachine, Link.init, heard, Server.init, heardFrom]), rfl,
      fun h => absurd h (Nat.not_lt_zero _), by simp [linkMachine, Link.init], rfl,
      List.nil_prefix⟩
  · exact dialogue_step hI (server_reachable hl) hs

end Link

open Link

/-- In every state of a chat client and its session, whatever other sessions do, the connection
between the two carrying whole messages in order, as it does for one writer on either side: the
session is told hello, asked for its credentials and told that it has joined, once each and in this
order, before it is told anything about others, and the next of the three only when the answer to the
one before has been read; the client writes its two answers, once each, when it has processed what
they answer, and then only updates, when it has processed all three; and none of the three is printed
past the end of the message, or of its copy. -/
theorem chat_dialogue {E : Env} {s : ℕ} {participantId serviceId : UInt64} {l : Link}
    (h : (linkMachine E s participantId serviceId).Reachable (.ok l)) :
    Script sessionScript (l.server.told s) ∧ Script ChatClient.script l.written
    ∧ (s < l.server.made →
      min 3 (l.server.told s).length = min 3 ((l.server.heard s).length + 1))
    ∧ min 2 l.written.length = min 2 l.processed.length
    ∧ (2 < l.written.length → 3 ≤ l.processed.length)
    ∧ ∀ m ∈ l.processed.take 3, ∀ b ∈ ChatClient.prints m, Terminated b := by
  have hD := dialogue h
  refine ⟨hD.told, hD.wrote, hD.turns, hD.answers, hD.updates, fun m hm => ?_⟩
  have hprocessed : Script sessionScript l.processed :=
    hD.told.of_prefix ((List.prefix_append _ _).trans hD.down)
  obtain ⟨k, hk⟩ := List.mem_iff_getElem?.1 hm
  rw [List.getElem?_take] at hk
  split_ifs at hk with hlt
  exact ChatClient.terminated_of_script hlt (hprocessed k m hk)

theorem chat_dialogue_welcomed : ∃ l, (linkMachine .counting 1 0 0).Reachable (.ok l)
    ∧ l.written.length = 3 ∧ 3 ≤ l.processed.length
    ∧ min 3 (l.server.told 1).length = min 3 ((l.server.heard 1).length + 1) := by
  have hrun : ((linkMachine .counting 1 0 0).exec (Link.init 0 0) welcomedClient).any
      (Outcome.okAnd fun l => l.written.length = 3 ∧ 1 < l.server.made) = true := by
    decide +kernel
  obtain ⟨r, l, hr, -, hl⟩ := Machine.exec_okAnd hrun
  obtain ⟨hlen, hmade⟩ := of_decide_eq_true hl
  obtain ⟨-, -, hturns, -, hupdates, -⟩ := chat_dialogue ⟨r, hr⟩
  exact ⟨l, ⟨r, hr⟩, hlen, hupdates (by omega), hturns hmade⟩

end XRNetwork
