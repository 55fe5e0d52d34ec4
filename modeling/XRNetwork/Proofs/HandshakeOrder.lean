import XRNetwork.Proofs.Told

/-!
# The order of the handshake

The handshake loop takes each step it is asked for: it keeps no status (`last_status` is set once
and never read), so a client may skip the first step, or take it again. The order is kept exactly in
the runs in which every client keeps it of its own accord (`handshake_order_iff`).
-/

namespace XRNetwork

/-- The step of the handshake that the message asks for, if any. -/
def XRMessage.handshakeStep (m : XRMessage) : Option MessageHead :=
  match m.kind with
  | some .handshakeHelloAck => some .handshakeHelloAck
  | some .handshakeCredentialsAck => some .handshakeCredentialsAck
  | _ => none

/-- The steps the session's handshake loop was asked for, in order. -/
def handshakeSteps (s : ℕ) (acts : List Act) : List MessageHead :=
  acts.filterMap fun
    | .received t .handshake m => if t = s then m.handshakeStep else none
    | _ => none

/-- The two steps as the protocol has them. -/
def handshakeOrder : List MessageHead := [.handshakeHelloAck, .handshakeCredentialsAck]

namespace Server

variable {E : Env} {w w' : Server} {e : Event} {ch : Change} {o : Outcome Fault Server}

/-- The steps of the handshake the session has been asked for so far. -/
def handshake (w : Server) (s : ℕ) : List MessageHead := handshakeSteps s (w.trace.map Prod.snd)

/-- The event is the arrival of a handshake message that the order does not allow now. -/
def OutOfOrder (w : Server) (s : ℕ) : Event → Prop
  | .read t _ buf _ => t = s ∧ ∃ k, (receivedMessage buf).handshakeStep = some k
      ∧ ¬ w.handshake s ++ [k] <+: handshakeOrder
  | _ => False

/-- The handler returns; it has told nobody anything, and left the session, but for its socket, and
the set as they were, the session read from by the same loop. -/
structure Unaltered (w : Server) (s : ℕ) (o : Outcome Fault Server) : Prop where
  returns : o = .ok o.state
  record : o.state.sessions s = { w.sessions s with reads := (o.state.sessions s).reads }
  loop : (o.state.sessions s).reads.map PendingRead.loop
    = (w.sessions s).reads.map PendingRead.loop
  participants : o.state.participants = w.participants
  silent : ∀ a, handedTo a (newActs w o) = []

/-- The session joins only when it has processed the answer to its hello, and so has asked for
credentials, and now gets them, and has not joined before; it asks for credentials once; and a
handshake message out of order does nothing to it. -/
def KeepsOrder (E : Env) (w : Server) (e : Event) : Prop :=
  ∀ o, w.step E e = some o → ∀ s,
    (.joinCalled s ∈ newActs w o → .handshakeHelloAck ∈ w.handshake s
      ∧ (∃ m ∈ w.told s, m.kind = some .handshakeCredentials)
      ∧ (∃ i buf c, e = .read s i buf c
        ∧ (receivedMessage buf).kind = some .handshakeCredentialsAck)
      ∧ ¬ w.Did (.joinCalled s))
    ∧ ((∃ m ∈ handedTo s (newActs w o), m.kind = some .handshakeCredentials) →
      ∀ m ∈ w.told s, m.kind ≠ some .handshakeCredentials)
    ∧ (OutOfOrder w s e → Unaltered w s o)

theorem handshake_step (hg : ch.Gives w o) (s : ℕ) :
    o.state.handshake s = w.handshake s ++ handshakeSteps s ch.acts := by
  rw [handshake, hg.trace, List.map_append, List.map_map, handshakeSteps, List.filterMap_append]
  exact congrArg _ (congrArg _ (List.map_id _))

/-- The answer to the hello is processed by asking for credentials, if it can be. -/
theorem step_helloAck {s i : ℕ} {buf : Buffer 65536} {c : Choice}
    (hr : (w.sessions s).reads[i]? = some ⟨.handshake, true⟩)
    (hk : (receivedMessage buf).kind = some .handshakeHelloAck)
    (hs : w.step E (.read s i buf c) = some o) (hok : o = .ok o.state) :
    ∃ m ∈ handedTo s (newActs w o), m.kind = some .handshakeCredentials := by
  simp only [step, hr] at hs
  cases hs
  unfold onRead onReadHandshake at hok ⊢
  simp only [hk, checkHandshakeHelloAck] at hok ⊢
  rcases hc : (receivedMessage buf).configuration with _ | d
  · simp [hc] at hok
  · refine ⟨HandshakeCredentials.default.toMessage, mem_handedTo.2 ?_, by simp⟩
    simp [newActs, doReadHandshake, deliverByte_eq, deliverList_trace, dropRead, setSession, tick]

theorem step_skipped {s i : ℕ} {buf : Buffer 65536} {c : Choice}
    (hr : (w.sessions s).reads[i]? = some ⟨.handshake, true⟩)
    (hk : (receivedMessage buf).kind ≠ some .handshakeHelloAck)
    (hk' : (receivedMessage buf).kind ≠ some .handshakeCredentialsAck)
    (hs : w.step E (.read s i buf c) = some o) :
    newActs w o = [.received s .handshake (receivedMessage buf)] := by
  simp only [step, hr] at hs
  cases hs
  have ho : (w.tick.dropRead s i).onRead E c s .handshake (receivedMessage buf)
      = .ok (((w.tick.dropRead s i).log (.received s .handshake (receivedMessage buf))
        ).doReadHandshake s) := by
    unfold onRead onReadHandshake
    simp only []
  rw [ho]
  simp [newActs, doReadHandshake, dropRead, setSession, tick]

/-- What a step does about a session's handshake: nothing; it reads the answer to the hello; or it
reads the credentials, and the session joins. -/
inductive Handshakes (w : Server) (s : ℕ) (e : Event) (ch : Change) : Prop
  | none (hsteps : handshakeSteps s ch.acts = []) (hj : .joinCalled s ∉ ch.acts)
      (hm : ∀ m ∈ handedTo s ch.acts, m.kind ≠ some .handshakeCredentials)
  | helloAck (i : ℕ) (buf : Buffer 65536) (c : Choice) (he : e = .read s i buf c)
      (hr : (w.sessions s).reads[i]? = some ⟨.handshake, true⟩)
      (hk : (receivedMessage buf).kind = some .handshakeHelloAck)
      (hsteps : handshakeSteps s ch.acts = [.handshakeHelloAck]) (hj : .joinCalled s ∉ ch.acts)
  | credentialsAck (i : ℕ) (buf : Buffer 65536) (c : Choice) (he : e = .read s i buf c)
      (hr : (w.sessions s).reads[i]? = some ⟨.handshake, true⟩)
      (hk : (receivedMessage buf).kind = some .handshakeCredentialsAck)
      (hsteps : handshakeSteps s ch.acts = [.handshakeCredentialsAck])
      (hj : .joinCalled s ∈ ch.acts)
      (hm : ∀ m ∈ handedTo s ch.acts, m.kind ≠ some .handshakeCredentials)

theorem handshakeSteps_eq_nil {s : ℕ} {acts : List Act}
    (h : ∀ m, .received s .handshake m ∉ acts) : handshakeSteps s acts = [] := by
  refine List.filterMap_eq_nil_iff.2 fun a ha => ?_
  split
  · split_ifs with hs
    · exact absurd (hs ▸ ha) (h _)
    · rfl
  · rfl

theorem handshakeSteps_cons {s : ℕ} {m : XRMessage} {acts : List Act}
    (h : ∀ m, .received s .handshake m ∉ acts) :
    handshakeSteps s (.received s .handshake m :: acts) = m.handshakeStep.toList := by
  have hcons : handshakeSteps s (.received s .handshake m :: acts)
      = m.handshakeStep.toList ++ handshakeSteps s acts := by
    unfold handshakeSteps
    rw [List.filterMap_cons]
    cases hm : m.handshakeStep <;> simp [hm]
  rw [hcons, handshakeSteps_eq_nil h, List.append_nil]

/-- A step that does not read from the session's handshake does nothing about it. -/
theorem Handshakes.of_not_received {s : ℕ} (hr : ∀ m, .received s .handshake m ∉ ch.acts)
    (hj : .joinCalled s ∉ ch.acts)
    (hm : ∀ m b, .handed s m b ∈ ch.acts → m.kind ≠ some .handshakeCredentials) :
    w.Handshakes s e ch := by
  refine .none (handshakeSteps_eq_nil hr) hj fun m hmem => ?_
  obtain ⟨b, hb⟩ := mem_handedTo.1 hmem
  exact hm m b hb

theorem Case.handshakes (hc : w.Case E e ch) (hg : ch.Gives w o) (hs : w.step E e = some o)
    (s : ℕ) : w.Handshakes s e ch := by
  have hdep : ∀ {p m b}, .handed s m b ∈ w.departureActs p →
      m.kind ≠ some .handshakeCredentials := by
    intro p m b hb
    obtain ⟨-, rfl⟩ := mem_handedTo_departureActs.1 ⟨b, hb⟩
    simp
  cases hc with
  | accepted ip t ms b hms =>
    refine .of_not_received (by simp) (by simp) fun m b hb => ?_
    simp at hb
    simp [hms m hb.1]
  | @handshake t i buf c rs d ms b hr hk hrs hms =>
    rcases eq_or_ne t s with rfl | hne
    · by_cases hk' : (receivedMessage buf).kind = some .handshakeHelloAck
      · refine .helloAck i buf c rfl hr hk' ?_ (by simp)
        rw [handshakeSteps_cons (by simp), XRMessage.handshakeStep, hk']
        rfl
      · have hacts := step_skipped hr hk' hk hs
        rw [newActs_eq hg] at hacts
        refine .none ?_ (by simp) fun m hm => ?_
        · rw [hacts, handshakeSteps_cons (by simp), XRMessage.handshakeStep]
          split
          · contradiction
          · contradiction
          · rfl
        · rw [hacts] at hm
          simp [mem_handedTo] at hm
    · refine .of_not_received (by simp [hne.symm]) (by simp) fun m b hb => ?_
      simp [hne] at hb
  | @refused t i buf c o hr hk =>
    rcases eq_or_ne t s with rfl | hne
    · refine .credentialsAck i buf c rfl hr hk ?_ (by simp) fun m hm => ?_
      · rw [handshakeSteps_cons (by simp), XRMessage.handshakeStep, hk]
        rfl
      · obtain ⟨b, hb⟩ := mem_handedTo.1 hm
        simp at hb
        obtain ⟨rfl, -⟩ := hb
        simp
    · refine .of_not_received (by simp [hne.symm]) (by simp [hne.symm]) fun m b hb => ?_
      simp [hne] at hb
  | @joinFailed t i buf c hr hk =>
    rcases eq_or_ne t s with rfl | hne
    · refine .credentialsAck i buf c rfl hr hk ?_ (by simp) (by simp [mem_handedTo])
      rw [handshakeSteps_cons (by simp), XRMessage.handshakeStep, hk]
      rfl
    · exact .of_not_received (by simp [hne.symm]) (by simp [hne.symm]) (by simp)
  | @joined t i buf c x ps hr hk =>
    rcases eq_or_ne t s with rfl | hne
    · refine .credentialsAck i buf c rfl hr hk ?_ (by simp) fun m hm => ?_
      · refine (handshakeSteps_cons ?_).trans ?_
        · by_cases hcb : c.callback = .returns <;> simp [hcb]
        · rw [XRMessage.handshakeStep, hk]
          rfl
      · obtain ⟨b, hb⟩ := mem_handedTo.1 hm
        simp at hb
        obtain ⟨-, rfl, -⟩ := hb
        simp
    · refine .of_not_received ?_ ?_ fun m b hb => ?_
      · by_cases hcb : c.callback = .returns <;> simp [hcb, hne.symm]
      · by_cases hcb : c.callback = .returns <;> simp [hcb, hne.symm]
      · simp [hne] at hb
  | joinAck json l hr hk hj hl =>
    refine .of_not_received (by simp) (by simp) fun m b hb => ?_
    simp at hb
    simp [show m.kind = _ from hl.kind _ hb.1]
  | joinAckFault json l hr hk hj hl =>
    refine .of_not_received (by simp) (by simp) fun m b hb => ?_
    simp at hb
    simp [show m.kind = _ from (hl _ hb.1).2]
  | relay hr hk =>
    refine .of_not_received (by simp) (by simp) fun m b hb => ?_
    simp at hb
    simp [← hb.2.1, hk]
  | leaveAck p =>
    refine .of_not_received (by simp) (by simp) fun m b hb => hdep (p := p) (b := b) ?_
    simpa using hb
  | @leave _ t =>
    refine .of_not_received (by simp) (by simp) fun m b hb => hdep (p := t) (b := b) ?_
    simpa using hb
  | remove => exact .of_not_received (by simp) (by simp) fun m b hb => hdep hb
  | _ => exact .of_not_received (by simp) (by simp) (by simp)

/-- Who has been asked for credentials, and who has joined. -/
structure InHandshake (w : Server) : Prop where
  asked : ∀ s, (∃ m ∈ w.told s, m.kind = some .handshakeCredentials) ↔
    .handshakeHelloAck ∈ w.handshake s
  joined : ∀ s, .handshakeCredentialsAck ∈ w.handshake s → w.Did (.joinCalled s)

theorem inHandshake (hw : (serverMachine E).Reachable (.ok w)) : InHandshake w := by
  obtain ⟨r, hr⟩ := hw
  refine hr.invariant_ok (P := fun _ _ => True) ⟨?_, ?_⟩ (fun w e w' hw hI _ hs => ?_)
    fun _ _ => trivial
  · simp [serverMachine, init, told, handedTo, handshake, handshakeSteps]
  · simp [serverMachine, init, handshake, handshakeSteps]
  obtain ⟨ch, hc, hg⟩ := step_cases (show w.step E e = some (.ok w') from hs)
  have hsteps := handshake_step hg
  have htold := told_step hg
  have hdid : ∀ {a}, w.Did a → w'.Did a := fun h => (did_iff hg).2 (.inl h)
  simp only [Outcome.state_ok] at hsteps htold
  refine ⟨fun s => ?_, fun s => ?_⟩
  · simp only [hsteps, htold, List.mem_append, or_and_right, exists_or, hI.asked]
    cases hc.handshakes hg hs s with
    | none h hj hm =>
      refine or_congr_right (iff_of_false ?_ (by simp [h]))
      rintro ⟨m, hmem, hk⟩
      exact hm m hmem hk
    | helloAck i buf c he hr hk h hj =>
      subst he
      refine or_congr_right (iff_of_true ?_ (by simp [h]))
      rw [← newActs_eq hg]
      exact step_helloAck hr hk hs rfl
    | credentialsAck i buf c he hr hk h hj hm =>
      refine or_congr_right (iff_of_false ?_ (by simp [h]))
      rintro ⟨m, hmem, hk⟩
      exact hm m hmem hk
  · rw [hsteps, List.mem_append]
    rintro (h | h)
    · exact hdid (hI.joined s h)
    · cases hc.handshakes hg hs s with
      | none h' | helloAck _ _ _ _ _ _ h' => simp [h'] at h
      | credentialsAck _ _ _ _ _ _ _ hj => exact (did_iff hg).2 (.inr hj)

theorem handshakeStep_eq_some {m : XRMessage} {k : MessageHead} :
    m.handshakeStep = some k ↔ m.kind = some k
      ∧ (k = .handshakeHelloAck ∨ k = .handshakeCredentialsAck) := by
  unfold XRMessage.handshakeStep
  split
  · simp only [*, Option.some.injEq]
    exact ⟨fun h => ⟨h, .inl h.symm⟩, And.left⟩
  · simp only [*, Option.some.injEq]
    exact ⟨fun h => ⟨h, .inr h.symm⟩, And.left⟩
  · refine iff_of_false (by simp) ?_
    rintro ⟨h, rfl | rfl⟩ <;> contradiction

theorem unaltered_room {s i : ℕ} {buf : Buffer 65536} {c : Choice} {k : MessageHead} (hP : Phase w)
    (hr : (w.sessions s).reads[i]? = some ⟨.room, true⟩)
    (hk : (receivedMessage buf).handshakeStep = some k)
    (hs : w.step E (.read s i buf c) = some o) : Unaltered w s o := by
  obtain ⟨ch, hc, hg⟩ := step_cases hs
  obtain ⟨hkind, hk⟩ := handshakeStep_eq_some.1 hk
  cases hc with
  | quiet _ _ _ he => cases he
  | handshake _ _ _ _ hr' | refused _ hr' | joinFailed hr' | joined _ _ hr' => simp [hr] at hr'
  | joinAckCut _ hk' | joinAckFault _ _ _ hk' | joinAck _ _ _ hk' | relay _ hk'
  | leaveAckFault _ hk' | leaveAck _ _ _ hk' =>
    rcases hk with rfl | rfl <;> simp [hkind] at hk'
  | leaveCut he | leave he => cases he
  | ignored b =>
    obtain ⟨hreads, herase, -⟩ := hP.read_eq hr
    have hself : o.state.sessions s = w.readOver s i [⟨.room, b⟩] := sessions_self hg
    refine ⟨hg.returns.1 rfl, ?_, ?_, hg.participants, fun a => ?_⟩
    · rw [hself]
      rfl
    · rw [hself, readOver, herase, hreads]
      rfl
    · rw [newActs_eq hg]
      simp [List.eq_nil_iff_forall_not_mem, mem_handedTo]

theorem received_handshake {s i : ℕ} {buf : Buffer 65536} {c : Choice}
    (hc : w.Case E (.read s i buf c) ch)
    (hr : (w.sessions s).reads[i]? = some ⟨.handshake, true⟩) :
    .received s .handshake (receivedMessage buf) ∈ ch.acts := by
  cases hc with
  | quiet _ _ _ he => cases he
  | handshake | refused | joinFailed | joined => exact List.mem_cons_self
  | joinAckCut hr' | joinAckFault _ _ hr' | joinAck _ _ hr' | ignored _ hr' | relay hr'
  | leaveAckFault hr' | leaveAck _ _ hr' => simp [hr] at hr'
  | leaveCut he | leave he => cases he

theorem prefix_handshakeOrder {l : List MessageHead} : l <+: handshakeOrder ↔
    l = [] ∨ l = [.handshakeHelloAck] ∨ l = [.handshakeHelloAck, .handshakeCredentialsAck] := by
  rcases l with _ | ⟨a, _ | ⟨b, l⟩⟩ <;> simp [handshakeOrder]

theorem helloAck_prefix {l : List MessageHead} :
    l ++ [.handshakeHelloAck] <+: handshakeOrder ↔ l = [] := by
  rcases l with _ | ⟨a, _ | ⟨b, l⟩⟩ <;> simp [handshakeOrder]

theorem credentialsAck_prefix {l : List MessageHead} :
    l ++ [.handshakeCredentialsAck] <+: handshakeOrder ↔ l = [.handshakeHelloAck] := by
  rcases l with _ | ⟨a, _ | ⟨b, l⟩⟩ <;> simp [handshakeOrder]

/-- A handshake kept in order so far is kept in order by the step if and only if the step is in
order. -/
theorem keepsOrder_iff (hw : (serverMachine E).Reachable (.ok w))
    (hpre : ∀ s, w.handshake s <+: handshakeOrder) (hs : w.step E e = some o) :
    KeepsOrder E w e ↔ ∀ s, o.state.handshake s <+: handshakeOrder := by
  obtain ⟨ch, hc, hg⟩ := step_cases hs
  have hP : Phase w := phase hw
  have hI : InHandshake w := inHandshake hw
  have hsteps := handshake_step hg
  -- whoever is still read from by the handshake loop has not given credentials
  have hnot : ∀ {s i : ℕ}, (w.sessions s).reads[i]? = some ⟨.handshake, true⟩ →
      .handshakeCredentialsAck ∉ w.handshake s := fun hr h =>
    hP.handshake _ true (List.mem_of_getElem? hr) (hI.joined _ h)
  constructor
  · intro hkeep s
    rw [hsteps]
    cases hc.handshakes hg hs s with
    | none h => rw [h, List.append_nil]; exact hpre s
    | helloAck i buf c he hr hk h =>
      rw [h]
      by_contra hout
      subst he
      have hun := (hkeep o hs s).2.2 ⟨rfl, _, handshakeStep_eq_some.2 ⟨hk, .inl rfl⟩, hout⟩
      obtain ⟨m, hm, -⟩ := step_helloAck hr hk hs hun.returns
      rw [hun.silent s] at hm
      cases hm
    | credentialsAck i buf c he hr hk h hj =>
      obtain ⟨hmem, -⟩ := (hkeep o hs s).1 (newActs_eq hg ▸ hj)
      rw [h]
      rcases prefix_handshakeOrder.1 (hpre s) with h0 | h1 | h2
      · simp [h0] at hmem
      · rw [h1]
        exact List.prefix_rfl
      · exact absurd (by simp [h2]) (hnot hr)
  · intro hpost o' ho' s
    obtain rfl : o' = o := Option.some.inj (ho'.symm.trans hs)
    have hpost := hpost s
    rw [hsteps] at hpost
    rw [newActs_eq hg]
    refine ⟨fun hj => ?_, ?_, fun hout => ?_⟩
    · cases hc.handshakes hg hs s with
      | none _ hj' | helloAck _ _ _ _ _ _ _ hj' => exact absurd hj hj'
      | credentialsAck i buf c he hr hk h =>
        rw [h, credentialsAck_prefix] at hpost
        have hmem : .handshakeHelloAck ∈ w.handshake s := by simp [hpost]
        exact ⟨hmem, (hI.asked s).2 hmem, ⟨i, buf, c, he, hk⟩, (hP.joins hc hj).2.2⟩
    · rintro ⟨m, hm, hk⟩
      cases hc.handshakes hg hs s with
      | none _ _ hm' | credentialsAck _ _ _ _ _ _ _ _ hm' => exact absurd hk (hm' m hm)
      | helloAck i buf c he hr hk' h =>
        rw [h, helloAck_prefix] at hpost
        intro m' hm' hk''
        have hmem := (hI.asked s).1 ⟨m', hm', hk''⟩
        simp [hpost] at hmem
    · cases e with
      | read t i buf c =>
        obtain ⟨rfl, k, hk, hout⟩ := hout
        have hread : ∃ loop, (w.sessions t).reads[i]? = some ⟨loop, true⟩ := by
          simp only [step] at hs
          split at hs
          · exact ⟨_, ‹_›⟩
          · cases hs
        obtain ⟨loop, hr⟩ := hread
        cases loop with
        | room => exact unaltered_room hP hr hk hs
        | handshake =>
          refine absurd ?_ hout
          have hmem : k ∈ handshakeSteps t ch.acts :=
            List.mem_filterMap.2 ⟨_, received_handshake hc hr, by simpa using hk⟩
          cases hc.handshakes hg hs t with
          | none h => simp [h] at hmem
          | helloAck _ _ _ _ _ _ h | credentialsAck _ _ _ _ _ _ h =>
            rw [h] at hpost hmem
            rwa [List.mem_singleton.1 hmem]
      | _ => exact hout.elim

end Server

open Server

/-- In a run all clients are held to the order of the handshake if and only if they keep it: of the
two handshake messages each session's handshake loop has read the first at most, or the first and
then the second. -/
theorem handshake_order_iff {E : Env} {r : List (Server × Event)} {o : Outcome Fault Server}
    (hr : (serverMachine E).Run r o) :
    Machine.Steps (KeepsOrder E) r ↔ ∀ s, o.state.handshake s <+: handshakeOrder := by
  induction hr with
  | nil => simp [Machine.Steps, serverMachine, init, handshake, handshakeSteps]
  | snoc hr hs ih =>
    rw [Machine.steps_snoc, ih]
    constructor
    · rintro ⟨hpre, hkeep⟩
      exact (keepsOrder_iff ⟨_, hr⟩ hpre hs).1 hkeep
    · intro hpost
      obtain ⟨ch, -, hg⟩ := step_cases hs
      have hpre := fun s => (List.prefix_append _ _).trans (handshake_step hg s ▸ hpost s)
      exact ⟨hpre, (keepsOrder_iff ⟨_, hr⟩ hpre hs).2 hpost⟩

theorem handshake_order_iff_kept : ∃ r w, (serverMachine .counting).Run r (.ok w)
    ∧ r.map Prod.snd = [.accept (some []) 0, .read 0 0 (ChatClient.helloAck 0 0).frame .plain,
      .read 0 0 ChatClient.credentialsAck.frame .plain]
    ∧ w.handshake 0 = handshakeOrder ∧ Machine.Steps (KeepsOrder .counting) r := by
  have hrun : ((serverMachine .counting).exec Server.init [.accept (some []) 0,
      .read 0 0 (ChatClient.helloAck 0 0).frame .plain,
      .read 0 0 ChatClient.credentialsAck.frame .plain]).any (Outcome.okAnd fun w =>
        w.handshake 0 = handshakeOrder ∧ w.trace.all fun x => match x.2 with
          | .received s _ _ => s = 0
          | _ => true) = true := by
    decide +kernel
  obtain ⟨r, w, hr, hes, hw⟩ := Machine.exec_okAnd hrun
  obtain ⟨h0, hall⟩ := of_decide_eq_true hw
  refine ⟨r, w, hr, hes, h0, (handshake_order_iff hr).2 fun s => ?_⟩
  rcases eq_or_ne s 0 with rfl | hne
  · exact h0 ▸ List.prefix_rfl
  · have hnil : w.handshake s = [] := by
      refine handshakeSteps_eq_nil fun m hm => hne ?_
      obtain ⟨x, hx, hact⟩ := List.mem_map.1 hm
      simpa [hact] using List.all_eq_true.1 hall x hx
    rw [show Outcome.state (.ok w) = w from rfl, hnil]
    exact List.nil_prefix

/-- A client that does not answer the hello joins all the same. -/
theorem handshake_skipped : ∃ r w e w', (serverMachine .counting).Run (r ++ [(w, e)]) (.ok w')
    ∧ r.map Prod.snd = [.accept (some []) 0]
    ∧ e = .read 0 0 ChatClient.credentialsAck.frame .plain ∧ w'.participants = [0]
    ∧ ¬ Machine.Steps (KeepsOrder .counting) (r ++ [(w, e)]) := by
  have hrun : ((serverMachine .counting).exec Server.init [.accept (some []) 0]).any
      (Outcome.okAnd fun w => w.handshake 0 = []
        ∧ ((w.step .counting (.read 0 0 ChatClient.credentialsAck.frame .plain)).any
          (Outcome.okAnd fun w' => w'.participants = [0]
            ∧ (newActs w (.ok w')).any fun a => match a with
              | .joinCalled s => s = 0
              | _ => false)) = true) = true := by
    decide +kernel
  obtain ⟨r, w, hr, hes, hw⟩ := Machine.exec_okAnd hrun
  obtain ⟨hnil, ho⟩ := of_decide_eq_true hw
  obtain ⟨o, hs, ho⟩ := (Option.any_eq_true _ _).1 ho
  cases o with
  | fault => cases ho
  | ok w' =>
    obtain ⟨hps, hj⟩ := of_decide_eq_true ho
    have hs' : (serverMachine .counting).step w
        (.read 0 0 ChatClient.credentialsAck.frame .plain) = some (.ok w') := hs
    refine ⟨r, w, _, w', hr.snoc hs', hes, rfl, hps, fun hkeep => ?_⟩
    have hjoined : Act.joinCalled 0 ∈ newActs w (.ok w') := by
      obtain ⟨a, ha, hact⟩ := List.any_eq_true.1 hj
      cases a with
      | joinCalled s =>
        obtain rfl : s = 0 := of_decide_eq_true hact
        exact ha
      | _ => cases hact
    obtain ⟨hmem, -⟩ := ((Machine.steps_snoc.1 hkeep).2 _ hs 0).1 hjoined
    simp [hnil] at hmem

end XRNetwork
