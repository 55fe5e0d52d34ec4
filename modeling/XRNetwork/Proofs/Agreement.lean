import XRNetwork.Proofs.Roster
import XRNetwork.Proofs.Sides
import XRNetwork.Link

/-!
# What the chat client and its session agree on

The client takes the service's id for its own until it is told that it has joined. The message that
says so is also handed to a session that `join` has refused, with no id, but only after its socket
was closed (`Greeted`). So what a client that has joined believes is so: its session was inserted
and has the id the client sends with its updates (`handshake_agreement`).
-/

namespace XRNetwork

/-- The messages about other participants: arrivals, departures and what the room relays. -/
def XRMessage.IsRoomFrame (m : XRMessage) : Prop :=
  m.kind = some .participantNew ∨ m.kind = some .participantLeave
    ∨ m.kind = some .participantUpdateAck

namespace Server

variable {E : Env} {w : Server} {e : Event} {ch : Change} {o : Outcome Fault Server}

theorem refused_closed {s i : ℕ} {buf : Buffer 65536} {c : Choice}
    (hr : (w.sessions s).reads[i]? = some ⟨.handshake, true⟩)
    (hk : (receivedMessage buf).kind = some .handshakeCredentialsAck)
    (hfull : w.maxParticipants.toNat ≤ w.participants.length)
    (hs : w.step E (.read s i buf c) = some o) : (o.state.sides s).isOpen = false := by
  simp only [step, hr] at hs
  cases hs
  unfold onRead onReadHandshake
  simp only [hk, checkHandshakeCredentialsAck, join]
  by_cases hgood : goodCredentials (receivedMessage buf)
  · simp only [if_pos hgood]
    split_ifs with h
    · simp [disconnect, setSide, deliverByte, WriteSide.deliverByte, WriteSide.close]
    all_goals exact absurd hfull h
  · simp only [if_neg hgood]
    split_ifs with h
    · simp [disconnect, setSide, deliverByte, WriteSide.deliverByte, WriteSide.close]
    all_goals exact absurd hfull h

/-- What a step hands to a session: the hello when it is made; the request for its credentials; the
word that it has joined, which it has unless its socket is closed now; or, to a member, messages
about others. -/
inductive Speaks (w : Server) (s : ℕ) (ch : Change) (o : Outcome Fault Server) : Prop
  | hello (hm : ∀ m ∈ handedTo s ch.acts, (s = w.made ∧ ch.made = w.made + 1)
      ∧ m.kind = some .handshakeHello)
  | credentials (hm : ∀ m ∈ handedTo s ch.acts, s < w.made ∧ m.kind = some .handshakeCredentials)
  | join (hm : ∀ m ∈ handedTo s ch.acts, (s = ch.session ∧ s < w.made)
      ∧ m = (participantJoin ch.record.mId).toMessage)
      (hj : (o.state.sides ch.session).isOpen = false ∨ ch.drawn = w.drawn + 1
        ∧ ch.participants = KeyedSet.insert
          (fun p => (Function.update w.sessions ch.session ch.record p).mId.toNat) ch.session
          w.participants)
  | room (hm : ∀ m ∈ handedTo s ch.acts, s ∈ w.participants ∧ m.IsRoomFrame)

theorem Introduces.member {s : ℕ} {json : Bytes} {c : Choice} {id : UInt64}
    {l : List (ℕ × XRMessage)} (h : (w.described s json).Introduces c id l) :
    ∀ x ∈ l, x.1 ∈ w.participants := by
  obtain ⟨p, newp, list, hp, -, -, rfl⟩ := h
  intro x hx
  rcases List.mem_append.1 hx with hx | hx
  · obtain ⟨q, hq, rfl⟩ := List.mem_map.1 hx
    exact (mem_others.1 hq).1
  · obtain ⟨np, -, rfl⟩ := List.mem_map.1 hx
    exact (mem_of_getParticipantPtr hp).1

theorem Case.speaks (hP : Phase w) (hc : w.Case E e ch) (hs : w.step E e = some o) (t : ℕ) :
    w.Speaks t ch o := by
  have hdep : ∀ p, ∀ m, (∃ b, .handed t m b ∈ w.departureActs p) →
      t ∈ w.participants ∧ m.IsRoomFrame := by
    rintro p m ⟨b, hb⟩
    obtain ⟨⟨ht, -⟩, rfl⟩ := mem_handedTo_departureActs.1 ⟨b, hb⟩
    exact ⟨ht, .inr (.inl (by simp))⟩
  cases hc with
  | accepted ip ts ms b hms =>
    refine .hello fun m hm => ?_
    obtain ⟨b, hb⟩ := mem_handedTo.1 hm
    simp at hb
    exact ⟨⟨hb.2.1.symm, rfl⟩, hms m hb.1⟩
  | handshake rs d ms b hr hk hrs hms =>
    refine .credentials fun m hm => ?_
    obtain ⟨b, hb⟩ := mem_handedTo.1 hm
    simp at hb
    obtain ⟨-, -, hlt⟩ := hP.read_eq hr
    exact ⟨hb.2.1 ▸ hlt, hms m hb.1⟩
  | refused b hr hk hfull =>
    refine .join (fun m hm => ?_) (.inl (refused_closed hr hk hfull hs))
    obtain ⟨b, hb⟩ := mem_handedTo.1 hm
    simp at hb
    obtain ⟨-, -, hlt⟩ := hP.read_eq hr
    exact ⟨⟨hb.1.symm, hb.1 ▸ hlt⟩, hb.2.1.symm⟩
  | joined x ps hr _ _ _ hx hps =>
    refine .join (fun m hm => ?_) (.inr ⟨rfl, hps⟩)
    obtain ⟨b, hb⟩ := mem_handedTo.1 hm
    simp at hb
    obtain ⟨-, -, hlt⟩ := hP.read_eq hr
    exact ⟨⟨hb.2.1.symm, hb.2.1 ▸ hlt⟩, by rw [← hb.2.2.1, hx]⟩
  | joinAckFault json l hr hk hj hl hno =>
    refine .room fun m hm => ?_
    obtain ⟨b, hb⟩ := mem_handedTo.1 hm
    simp at hb
    obtain ⟨hmem, hkind⟩ := hl _ hb.1
    exact ⟨hmem, .inl hkind⟩
  | joinAck json l hr hk hj hl =>
    refine .room fun m hm => ?_
    obtain ⟨b, hb⟩ := mem_handedTo.1 hm
    simp at hb
    refine ⟨hl.member _ hb.1, .inl (hl.kind _ hb.1)⟩
  | relay hr hk =>
    refine .room fun m hm => ?_
    obtain ⟨b, hb⟩ := mem_handedTo.1 hm
    simp at hb
    exact ⟨(mem_others.1 hb.1).1, .inr (.inr (hb.2.1 ▸ hk))⟩
  | leaveAck p =>
    refine .room fun m hm => hdep p m ?_
    simpa using mem_handedTo.1 hm
  | @leave _ s =>
    refine .room fun m hm => hdep s m ?_
    simpa using mem_handedTo.1 hm
  | remove p =>
    refine .room fun m hm => hdep p m ?_
    simpa using mem_handedTo.1 hm
  | _ => exact .room (by simp [mem_handedTo])

/-- A session whose `join` returns is told that it has joined. -/
theorem Case.welcomes (hc : w.Case E e ch) (hret : ch.returns = true) {s : ℕ}
    (hj : .joinCalled s ∈ ch.acts) : ∃ m ∈ handedTo s ch.acts, m.kind = some .participantJoin := by
  cases hc with
  | refused =>
    obtain rfl : s = _ := by simpa using hj
    refine ⟨(participantJoin (w.sessions s).mId).toMessage, mem_handedTo.2 ?_, by simp⟩
    simp
  | joined x ps =>
    have hcb : ‹Choice›.callback = .returns := of_decide_eq_true hret
    obtain rfl : s = _ := by simpa [hcb] using hj
    refine ⟨(participantJoin (E.rng w.drawn)).toMessage, mem_handedTo.2 ?_, by simp⟩
    simp [hcb]
  | joinFailed => cases hret
  | _ => simp at hj

theorem welcomed {r : List (Server × Event)} (hr : (serverMachine E).Run r (.ok w)) :
    ∀ s ∈ w.participants, ∃ m ∈ w.told s, m.kind = some .participantJoin := by
  refine hr.invariant_ok (I := fun w => ∀ s ∈ w.participants, ∃ m ∈ w.told s,
    m.kind = some .participantJoin) (P := fun _ _ => True) (by simp [serverMachine, init]) ?_
    fun _ _ => trivial
  intro w e w' hw hI _ hs s hmem
  obtain ⟨ch, hc, hg⟩ := step_cases (show w.step E e = some (.ok w') from hs)
  have hret : ch.returns = true := hg.returns.2 rfl
  have htold : w'.told s = w.told s ++ handedTo s ch.acts := told_step hg s
  rw [htold]
  rcases mem_participants_or_joins hc (hg.participants ▸ hmem) with hold | hj
  · obtain ⟨m, hm, hk⟩ := hI s hold
    exact ⟨m, List.mem_append_left _ hm, hk⟩
  · obtain ⟨m, hm, hk⟩ := hc.welcomes hret hj
    exact ⟨m, List.mem_append_right _ hm, hk⟩

/-- What a session has been told so far: nothing before it is made; a hello only at the start; that
it has joined, only if it has, under its id, or cannot hear it; and about others only after
that. -/
structure Greeted (w : Server) (s : ℕ) : Prop where
  unmade : w.made ≤ s → w.told s = []
  hello : (w.told s).Pairwise fun a b => b.kind = some .handshakeHello →
    a.kind = some .handshakeHello
  joined : ∀ m ∈ w.told s, m.kind = some .participantJoin →
    (w.Did (.inserted s) ∧ m.participantId = (w.sessions s).mId) ∨ (w.sides s).isOpen = false
  others : ∀ l m l', w.told s = l ++ m :: l' → m.IsRoomFrame →
    ∃ x ∈ l, x.kind = some .participantJoin

/-- What was handed to a session before stays as it was. -/
theorem greeted_told {s : ℕ} (hP : Phase w) (hM : Members w) (hG : Greeted w s)
    (hc : w.Case E e ch) (hg : ch.Gives w o) (hs : w.step E e = some o) {m : XRMessage}
    (hm : m ∈ w.told s) (hk : m.kind = some .participantJoin) :
    (o.state.Did (.inserted s) ∧ m.participantId = (o.state.sessions s).mId)
      ∨ (o.state.sides s).isOpen = false := by
  have hlt : s < w.made := by
    by_contra hle
    rw [hG.unmade (not_lt.1 hle)] at hm
    cases hm
  rcases hG.joined m hm hk with ⟨hin, hid⟩ | hclosed
  · rw [mId_of_joined hP hc hg (hM.joined s hin), did_iff hg]
    exact .inl ⟨.inl hin, hid⟩
  · exact .inr (closed_step hs hlt hclosed)

theorem greeted_step {s : ℕ} (hw : (serverMachine E).Reachable (.ok w)) (hG : Greeted w s)
    (hs : w.step E e = some o) (hE : E.DistinctDraws o.state.drawn) : Greeted o.state s := by
  have hP : Phase w := phase hw
  have hM : Members w := members hw
  have hI : Ids E w := ids hw
  obtain ⟨r, hr⟩ := hw
  obtain ⟨ch, hc, hg⟩ := step_cases hs
  have htold := told_step hg s
  have hspeak := hc.speaks hP hs s
  have hlt : s ∈ w.participants → s < w.made := by
    intro hmem
    by_contra hle
    exact (hP.fresh s (not_lt.1 hle)).2 (hM.joined s (hM.inserted s hmem))
  have hmade : w.made ≤ ch.made := by
    rcases hc.reads with ⟨h, -⟩ | ⟨-, h, -⟩ | ⟨-, -, -, -, h, -⟩ <;> omega
  refine ⟨fun hle => ?_, ?_, fun m hm hk => ?_, fun l m l' hl hroom => ?_⟩
  · rw [hg.made] at hle
    rw [htold, hG.unmade (by omega), List.nil_append]
    refine List.eq_nil_iff_forall_not_mem.2 fun m hm => ?_
    cases hspeak with
    | hello h =>
      obtain ⟨⟨rfl, h⟩, -⟩ := h m hm
      omega
    | credentials h =>
      have := (h m hm).1
      omega
    | join h =>
      have := (h m hm).1.2
      omega
    | room h =>
      have := hlt (h m hm).1
      omega
  · rw [htold, List.pairwise_append]
    have hother : (∀ m ∈ handedTo s ch.acts, m.kind ≠ some .handshakeHello) →
        (handedTo s ch.acts).Pairwise (fun a b => b.kind = some .handshakeHello →
          a.kind = some .handshakeHello) ∧ ∀ a ∈ w.told s, ∀ b ∈ handedTo s ch.acts,
          b.kind = some .handshakeHello → a.kind = some .handshakeHello := fun h =>
      ⟨List.pairwise_of_forall_mem_list fun a _ b hb hk => absurd hk (h b hb),
        fun a _ b hb hk => absurd hk (h b hb)⟩
    refine ⟨hG.hello, ?_⟩
    cases hspeak with
    | hello h =>
      refine ⟨List.pairwise_of_forall_mem_list fun a ha b _ _ => (h a ha).2, fun a ha b hb _ => ?_⟩
      -- the session is new, so nothing was handed to it before
      rw [hG.unmade (h b hb).1.1.ge] at ha
      cases ha
    | credentials h => exact hother fun m hm => by simp [(h m hm).2]
    | join h => exact hother fun m hm => by simp [(h m hm).2]
    | room h =>
      refine hother fun m hm hk => ?_
      rcases (h m hm).2 with h | h | h <;> simp [hk] at h
  · rw [htold] at hm
    rcases List.mem_append.1 hm with hm | hm
    · exact greeted_told hP hM hG hc hg hs hm hk
    cases hspeak with
    | hello h => simp [(h m hm).2] at hk
    | credentials h => simp [(h m hm).2] at hk
    | room h => rcases (h m hm).2 with h | h | h <;> simp [hk] at h
    | join h hj =>
      obtain ⟨⟨rfl, -⟩, rfl⟩ := h m hm
      rcases hj with hclosed | ⟨hn, hp⟩
      · exact .inr hclosed
      · have hw' : (serverMachine E).Reachable o := ⟨_, hr.snoc hs⟩
        refine .inl ⟨(members hw').inserted _ ?_, ?_⟩
        · exact (hI.mem_insert hP (ids hw') hc hg hE hn hp _).2 (.inl rfl)
        · rw [sessions_self hg, ParticipantJoin.participantId_toMessage]
          rfl
  · have hnew : m ∈ handedTo s ch.acts → ∃ x ∈ w.told s, x.kind = some .participantJoin := by
      intro hm
      cases hspeak with
      | hello h => rcases hroom with h' | h' | h' <;> simp [(h m hm).2] at h'
      | credentials h => rcases hroom with h' | h' | h' <;> simp [(h m hm).2] at h'
      | join h => rcases hroom with h' | h' | h' <;> simp [(h m hm).2] at h'
      | room h => exact welcomed hr s (h m hm).1
    rw [htold] at hl
    rcases List.append_eq_append_iff.1 hl with ⟨as, rfl, hm⟩ | ⟨as, has, hm⟩
    · obtain ⟨x, hx, hk⟩ := hnew (by simp [hm])
      exact ⟨x, List.mem_append_left _ hx, hk⟩
    · rcases as with _ | ⟨m', as⟩
      · rw [List.append_nil] at has
        rw [← has]
        exact hnew (by rw [show handedTo s ch.acts = m :: l' from hm.symm]; simp)
      · obtain ⟨rfl, -⟩ := List.cons.inj hm
        exact hG.others l m as has hroom

theorem greeted (h : (serverMachine E).Reachable o) (hE : E.DistinctDraws o.state.drawn) (s : ℕ) :
    Greeted o.state s := by
  refine h.invariant (I := fun w => E.DistinctDraws w.drawn → Greeted w s) (fun _ => ?_)
    (fun w e o hw hI hs hE => ?_) hE
  · exact ⟨fun _ => rfl, List.Pairwise.nil, by simp [serverMachine, told, init, handedTo],
      by simp [serverMachine, told, init, handedTo]⟩
  · obtain ⟨ch, hc, hg⟩ := step_cases (show w.step E e = some o from hs)
    refine greeted_step hw (hI (hE.mono ?_)) hs hE
    exact drawn_le hc hg

end Server

namespace ChatClient

variable {c : ChatClient} {t : UInt64} {m : XRMessage}

/-- The client goes by the id it was last told was its own. -/
theorem onMessage_cases : (m.kind = some .participantJoin
      ∧ (c.onMessage t m).1 = { c with participantId := m.participantId, updating := true })
    ∨ (m.kind = some .handshakeHello ∧ (c.onMessage t m).1.updating = c.updating)
    ∨ (m.kind ≠ some .participantJoin ∧ m.kind ≠ some .handshakeHello
      ∧ (c.onMessage t m).1 = c) := by
  unfold onMessage
  split
  · exact .inr (.inl ⟨‹_›, rfl⟩)
  · exact .inr (.inr ⟨by simp [*], by simp [*], rfl⟩)
  · exact .inl ⟨‹_›, rfl⟩
  · exact .inr (.inr ⟨by assumption, by assumption, rfl⟩)

theorem kind_onMessage : ∀ x ∈ (c.onMessage t m).2, x.kind ≠ some .participantUpdateAck := by
  intro x hx
  unfold onMessage at hx
  split at hx
  · obtain rfl := Option.mem_some_iff.1 hx
    rw [XRMessage.kind, helloAck, XRMessage.head_ofPayload, ofCode_code]
    simp
  · obtain rfl := Option.mem_some_iff.1 hx
    rw [XRMessage.kind, credentialsAck, XRMessage.head_ofPayload, ofCode_code]
    simp
  · cases hx
  · cases hx

theorem participantId_onTimer (stack : Buffer 12) :
    (c.onTimer t stack).participantId = c.participantId := by
  unfold onTimer updateAck
  simp only [ParticipantUpdateAck.toBytes, List.append_assoc]
  exact participantId_ofPayload _ _ _ _

end ChatClient

open Server

namespace Link

variable {E : Env} {s : ℕ} {l : Link} {e : LinkEvent} {o : Outcome Fault Link}

/-- The steps of the two parties and the wire between them. -/
inductive Case (E : Env) (s : ℕ) (l : Link) : Outcome Fault Link → Prop
  | server {e : Event} {o : Outcome Fault Server} (up : List XRMessage)
      (hs : l.server.step E e = some o) : Case E s l (o.map fun w => { l with server := w, up })
  | transmit {m : XRMessage} (hm : (l.server.told s)[l.transmitted.length]? = some m)
      (ho : (l.server.sides s).isOpen = true) : Case E s l (.ok { l with down := l.down ++ [m] })
  | receive {m : XRMessage} {down : List XRMessage} (timestamp : UInt64) (hd : l.down = m :: down) :
      Case E s l (.ok ({ l with
        client := (l.client.onMessage timestamp m).1
        down
        processed := l.processed ++ [m] }.write (l.client.onMessage timestamp m).2.toList))
  | timer (timestamp : UInt64) (stack : Buffer 12) (hu : l.client.updating = true) :
      Case E s l (.ok (l.write [l.client.onTimer timestamp stack]))

theorem step_cases (hs : l.step E s e = some o) : Case E s l o := by
  cases e with
  | server e =>
    simp only [step] at hs
    split_ifs at hs
    obtain ⟨x, hx, rfl⟩ := Option.map_eq_some_iff.1 hs
    exact .server l.up hx
  | deliver i c =>
    simp only [step] at hs
    split at hs
    · cases hs
    · obtain ⟨x, hx, rfl⟩ := Option.map_eq_some_iff.1 hs
      exact .server _ hx
  | transmit =>
    simp only [step] at hs
    split at hs
    · cases hs
    · rename_i m hm
      split_ifs at hs with hsends
      cases hs
      simp only [WriteSide.sends, Bool.and_eq_true] at hsends
      exact .transmit hm hsends.1.1
  | receive timestamp =>
    simp only [step] at hs
    split at hs
    · cases hs
    · rename_i m down hd
      cases hs
      exact .receive timestamp hd
  | timer timestamp stack =>
    simp only [step] at hs
    split_ifs at hs with hu
    cases hs
    exact .timer timestamp stack hu

theorem server_reachable {participantId serviceId : UInt64}
    (h : (linkMachine E s participantId serviceId).Reachable o) :
    (serverMachine E).Reachable (o.map Link.server) := by
  obtain ⟨r, hr⟩ := h
  induction hr with
  | nil => exact Machine.reachable_init
  | snoc _ hs ih =>
    cases step_cases hs with
    | @server _ o _ hx =>
      have hw := Machine.Reachable.step (M := serverMachine E) ih hx
      cases o <;> exact hw
    | transmit | receive | timer => exact ih

/-- What the wire carries and the client believes is so. -/
structure Agreed (s : ℕ) (l : Link) : Prop where
  pre : l.transmitted <+: l.server.told s
  told : ∀ m ∈ l.transmitted, m.kind = some .participantJoin →
    l.server.Did (.inserted s) ∧ m.participantId = (l.server.sessions s).mId
  updating : l.client.updating = true ↔ ∃ m ∈ l.processed, m.kind = some .participantJoin
  id : l.client.updating = true →
    l.server.Did (.inserted s) ∧ l.client.participantId = (l.server.sessions s).mId
  written : ∀ m ∈ l.written, m.kind = some .participantUpdateAck →
    l.server.Did (.inserted s) ∧ m.participantId = (l.server.sessions s).mId

theorem Agreed.server (hA : Agreed s l) (hw : (serverMachine E).Reachable (.ok l.server))
    {e : Event} {o : Outcome Fault Server} (hs : l.server.step E e = some o) (up : List XRMessage) :
    Agreed s { l with server := o.state, up } := by
  obtain ⟨ch, hc, hg⟩ := Server.step_cases hs
  have hM : Members l.server := members hw
  have hkeep : ∀ {id}, l.server.Did (.inserted s) ∧ id = (l.server.sessions s).mId →
      o.state.Did (.inserted s) ∧ id = (o.state.sessions s).mId := by
    rintro id ⟨hin, rfl⟩
    exact ⟨(did_iff hg).2 (.inl hin), (mId_of_joined (phase hw) hc hg (hM.joined s hin)).symm⟩
  refine ⟨?_, fun m hm hk => hkeep (hA.told m hm hk), hA.updating, fun hu => hkeep (hA.id hu),
    fun m hm hk => hkeep (hA.written m hm hk)⟩
  rw [told_step hg]
  exact hA.pre.trans (List.prefix_append _ _)

theorem Agreed.transmit (hA : Agreed s l) (hG : Greeted l.server s) {m : XRMessage}
    (hm : (l.server.told s)[l.transmitted.length]? = some m)
    (ho : (l.server.sides s).isOpen = true) : Agreed s { l with down := l.down ++ [m] } := by
  have hnext : l.processed ++ (l.down ++ [m]) = l.transmitted ++ [m] :=
    (List.append_assoc _ _ _).symm
  have hpre : l.processed ++ (l.down ++ [m]) <+: l.server.told s := by
    obtain ⟨rest, hrest⟩ := hA.pre
    rw [← hrest, List.getElem?_append_right le_rfl, Nat.sub_self] at hm
    cases rest with
    | nil => simp at hm
    | cons y rest =>
      obtain rfl : y = m := by simpa using hm
      rw [hnext, ← hrest]
      exact ⟨rest, List.append_assoc _ _ _⟩
  refine ⟨hpre, fun x hx hk => ?_, hA.updating, hA.id, hA.written⟩
  have hx : x ∈ l.transmitted ++ [m] := hnext ▸ hx
  rcases List.mem_append.1 hx with hx | hx
  · exact hA.told x hx hk
  · -- what says that it has joined is handed to a session that has, or to a closed one
    obtain rfl := List.mem_singleton.1 hx
    refine (hG.joined x (List.mem_of_getElem? hm) hk).resolve_right ?_
    simp [ho]

theorem Agreed.receive (hA : Agreed s l) (hG : Greeted l.server s) {m : XRMessage}
    {down : List XRMessage} (hd : l.down = m :: down) (t : UInt64) :
    Agreed s ({ l with
      client := (l.client.onMessage t m).1
      down
      processed := l.processed ++ [m] }.write (l.client.onMessage t m).2.toList) := by
  have hsame : (l.processed ++ [m]) ++ down = l.transmitted := by
    rw [transmitted, hd, List.append_assoc]
    rfl
  have hpre : (l.processed ++ [m]) ++ down <+: l.server.told s := hsame ▸ hA.pre
  have htold : ∀ x ∈ (l.processed ++ [m]) ++ down, x.kind = some .participantJoin →
      l.server.Did (.inserted s) ∧ x.participantId = (l.server.sessions s).mId := hsame ▸ hA.told
  have hwritten : ∀ x ∈ l.written ++ (l.client.onMessage t m).2.toList,
      x.kind = some .participantUpdateAck →
      l.server.Did (.inserted s) ∧ x.participantId = (l.server.sessions s).mId := by
    intro x hx hk
    rcases List.mem_append.1 hx with hx | hx
    · exact hA.written x hx hk
    · exact absurd hk (ChatClient.kind_onMessage x (Option.mem_toList.1 hx))
  have hjoins : (∃ x ∈ l.processed ++ [m], x.kind = some .participantJoin) ↔
      l.client.updating = true ∨ m.kind = some .participantJoin := by
    simp [hA.updating, or_and_right, exists_or]
  rcases ChatClient.onMessage_cases (c := l.client) (t := t) (m := m) with
    ⟨hk, hc⟩ | ⟨hk, hu⟩ | ⟨hk, -, hc⟩
  · refine ⟨hpre, htold, ?_, fun _ => ?_, hwritten⟩
    · exact iff_of_true (by simp [write, hc]) (hjoins.2 (.inr hk))
    · have hmem := htold m (by simp) hk
      simpa [write, hc] using hmem
  · refine ⟨hpre, htold, ?_, fun h => ?_, hwritten⟩
    · have hno : m.kind ≠ some .participantJoin := by simp [hk]
      rw [show (_ : Link).client.updating = l.client.updating from hu]
      exact (hjoins.trans (or_iff_left hno)).symm
    · -- the session says hello before all else
      have h : l.client.updating = true := hu ▸ h
      obtain ⟨x, hx, hkx⟩ := hA.updating.1 h
      have hpair := hG.hello.sublist hpre.sublist
      have hxk := (List.pairwise_append.1 (List.pairwise_append.1 hpair).1).2.2 x hx m
        List.mem_cons_self hk
      simp [hkx] at hxk
  · refine ⟨hpre, htold, ?_, fun h => ?_, hwritten⟩
    · simp only [write, hc]
      exact (hjoins.trans (or_iff_left hk)).symm
    · simp only [write, hc] at h ⊢
      exact hA.id h

theorem Agreed.timer (hA : Agreed s l) (hu : l.client.updating = true) (t : UInt64)
    (stack : Buffer 12) : Agreed s (l.write [l.client.onTimer t stack]) := by
  refine ⟨hA.pre, hA.told, hA.updating, hA.id, fun m hm hk => ?_⟩
  rcases List.mem_append.1 hm with hm | hm
  · exact hA.written m hm hk
  · obtain rfl := List.mem_singleton.1 hm
    rw [ChatClient.participantId_onTimer]
    exact hA.id hu

end Link

open Link

/-- Whatever other sessions do, in every run of a chat client and its session whose draws are
distinct: the session is handed nothing about other participants before it is handed the word that
it has joined; once the client has that word, the session has been inserted and has the client's
id; and the updates the client has written carry that id. -/
theorem handshake_agreement {E : Env} {s : ℕ} {participantId serviceId : UInt64}
    {o : Outcome Fault Link} (h : (linkMachine E s participantId serviceId).Reachable o)
    (hE : E.DistinctDraws o.state.server.drawn) :
    (∀ l m l', o.state.server.told s = l ++ m :: l' → m.IsRoomFrame →
      ∃ x ∈ l, x.kind = some .participantJoin)
    ∧ ((∃ m ∈ o.state.processed, m.kind = some .participantJoin) →
      o.state.server.Did (.inserted s)
        ∧ o.state.client.participantId = (o.state.server.sessions s).mId)
    ∧ ∀ m ∈ o.state.written, m.kind = some .participantUpdateAck →
      o.state.server.Did (.inserted s)
        ∧ m.participantId = (o.state.server.sessions s).mId := by
  have hA : Agreed s o.state := by
    refine h.invariant (I := fun l => E.DistinctDraws l.server.drawn → Agreed s l) (fun _ => ?_)
      (fun l e o hl hI hs hE => ?_) hE
    · exact ⟨List.prefix_rfl, by simp [linkMachine, Link.init, transmitted],
        by simp [linkMachine, Link.init], by simp [linkMachine, Link.init],
        by simp [linkMachine, Link.init]⟩
    have hw : (serverMachine E).Reachable (.ok l.server) := server_reachable hl
    cases Link.step_cases hs with
    | server up hx =>
      rw [Outcome.state_map] at hE ⊢
      obtain ⟨ch, hc, hg⟩ := Server.step_cases hx
      exact (hI (hE.mono (drawn_le hc hg))).server hw hx up
    | transmit hm ho => exact (hI hE).transmit (greeted hw hE s) hm ho
    | receive t hd => exact (hI hE).receive (greeted hw hE s) hd t
    | timer t stack hu => exact (hI hE).timer hu t stack
  refine ⟨?_, fun hm => hA.id (hA.updating.2 hm), hA.written⟩
  have hw := greeted (server_reachable h) (s := s)
  rw [show (o.map Link.server).state = o.state.server from Outcome.state_map _ _] at hw
  exact (hw hE).others

/-- A client is welcomed and sends an update, another one having joined before it. -/
def welcomedClient : List LinkEvent :=
  [.server (.accept (some []) 0), .server (.accept (some []) 0),
    .server (.read 0 0 ChatClient.credentialsAck.frame .plain),
    .server (.posted 1), .transmit, .receive 0, .deliver 0 .plain,
    .server (.posted 1), .transmit, .receive 0, .deliver 0 .plain,
    .server (.posted 1), .transmit, .receive 0, .timer 0 (.zero 12)]

theorem handshake_agreement_welcomed : ∃ r l, (linkMachine .counting 1 0 0).Run r (.ok l)
    ∧ r.map Prod.snd = welcomedClient ∧ l.client.participantId = 2
    ∧ l.server.Did (.inserted 1) ∧ (l.server.sessions 1).mId = 2
    ∧ l.written.map XRMessage.kind = [some .handshakeHelloAck, some .handshakeCredentialsAck,
      some .participantUpdateAck]
    ∧ ∀ m ∈ l.written, m.kind = some .participantUpdateAck → m.participantId = 2 := by
  have hrun : ((linkMachine .counting 1 0 0).exec (Link.init 0 0) welcomedClient).any
      (Outcome.okAnd fun l => l.server.drawn = 2 ∧ (l.server.sessions 1).mId = 2
        ∧ (∃ m ∈ l.processed, m.kind = some .participantJoin)
        ∧ l.written.map XRMessage.kind = [some .handshakeHelloAck, some .handshakeCredentialsAck,
          some .participantUpdateAck]) = true := by
    decide +kernel
  obtain ⟨r, l, hr, hes, hl⟩ := Machine.exec_okAnd hrun
  obtain ⟨hdrawn, hid, hjoin, hkinds⟩ := of_decide_eq_true hl
  have hE : Env.counting.DistinctDraws l.server.drawn := by
    rw [hdrawn]
    decide +kernel
  obtain ⟨-, hclient, hwritten⟩ := handshake_agreement ⟨r, hr⟩ hE
  obtain ⟨hin, hpid⟩ := hclient hjoin
  exact ⟨r, l, hr, hes, hpid.trans hid, hin, hid, hkinds, fun m hm hk =>
    (hwritten m hm hk).2.trans hid⟩

end XRNetwork
