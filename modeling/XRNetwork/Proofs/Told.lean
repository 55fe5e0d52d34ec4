import XRNetwork.Proofs.Identity

/-!
# Who is told of whom

A step tells a session of a participant's arrival exactly when it reads a `PARTICIPANT_JOIN_ACK` that
names one of the two while both are members (`Introduction`), and of a participant's departure
exactly when it removes that participant and the session is a member left (`Farewell`). So what a
session has been told is a matter of the steps of the run before (`told_new`, `told_leave`).
-/

namespace XRNetwork

/-- The message is of the kind and about the participant. -/
def XRMessage.Tells (m : XRMessage) (k : MessageHead) (i : UInt64) : Prop :=
  m.kind = some k ∧ m.participantId = i

instance (m : XRMessage) (k : MessageHead) (i : UInt64) : Decidable (m.Tells k i) :=
  instDecidableAnd

theorem mem_handedTo {a : ℕ} {acts : List Act} {m : XRMessage} :
    m ∈ handedTo a acts ↔ ∃ b, .handed a m b ∈ acts := by
  rw [handedTo, List.mem_filterMap]
  constructor
  · rintro ⟨x, hx, h⟩
    cases x with
    | handed dst m' b =>
      simp only [Option.ite_none_right_eq_some, Option.some.injEq] at h
      obtain ⟨rfl, rfl⟩ := h
      exact ⟨b, hx⟩
    | _ => cases h
  · rintro ⟨b, hb⟩
    exact ⟨_, hb, if_pos rfl⟩

namespace Server

variable {E : Env} {w : Server} {e : Event} {ch : Change} {o : Outcome Fault Server}

/-- A `PARTICIPANT_JOIN_ACK` is read that names the session `a` or the id `i`, while `a` and a
participant with the id `i`, not its own, are members. -/
def Introduction (w : Server) (a : ℕ) (i : UInt64) : Event → Prop
  | .read s j buf _ => (w.sessions s).reads[j]? = some ⟨.room, true⟩
      ∧ (receivedMessage buf).kind = some .participantJoinAck
      ∧ a ∈ w.participants ∧ (w.sessions a).mId ≠ i
      ∧ (∃ p ∈ w.participants, (w.sessions p).mId = i)
      ∧ ((receivedMessage buf).participantId = i
        ∨ (receivedMessage buf).participantId = (w.sessions a).mId)
  | _ => False

/-- The departure of the id `i`: its session sends `PARTICIPANT_LEAVE_ACK` or loses its connection,
or the server disconnects it. -/
def DepartureOf (w : Server) (i : UInt64) : Event → Prop
  | .read s j buf _ => (w.sessions s).reads[j]? = some ⟨.room, true⟩
      ∧ (receivedMessage buf).kind = some .participantLeaveAck ∧ (w.sessions s).mId = i
  | .readFailed s j c => (∃ b, (w.sessions s).reads[j]? = some ⟨.room, b⟩)
      ∧ c.callback = .returns ∧ (w.sessions s).mId = i
  | .writeFailed s _ c => c.callback = .returns ∧ (w.sessions s).mId = i
  | .disconnectParticipant id => id = i
  | _ => False

/-- A departure of the id `i` while `a` is a member with another id. -/
def Farewell (w : Server) (a : ℕ) (i : UInt64) (e : Event) : Prop :=
  a ∈ w.participants ∧ (w.sessions a).mId ≠ i ∧ w.DepartureOf i e

theorem Introduction.not_departureOf {a : ℕ} {i j : UInt64} (h : w.Introduction a i e) :
    ¬ w.DepartureOf j e := by
  intro hd
  cases e with
  | read => simp [h.2.1, DepartureOf] at hd
  | _ => exact h

/-- What a step that returns hands out, as to arrivals and departures, and what becomes of the set:
nothing, and it stays or the session joins; arrivals; or the departure of a participant `p`. -/
inductive Hands (w : Server) (e : Event) (ch : Change) : Prop
  | other (hn : ∀ a i, ¬ w.Introduction a i e) (hd : ∀ i, ¬ w.DepartureOf i e)
      (hk : ∀ a, ∀ m ∈ handedTo a ch.acts, m.kind ≠ some .participantNew
        ∧ m.kind ≠ some .participantLeave)
      (hp : ch.participants = w.participants ∨ .joinCalled ch.session ∈ ch.acts
        ∧ ch.participants = KeyedSet.insert
          (fun p => (Function.update w.sessions ch.session ch.record p).mId.toNat) ch.session
          w.participants)
  | arrivals (hd : ∀ i, ¬ w.DepartureOf i e)
      (hk : ∀ a, ∀ m ∈ handedTo a ch.acts, m.kind = some .participantNew)
      (hn : ∀ a i, (∃ m ∈ handedTo a ch.acts, m.participantId = i) ↔ w.Introduction a i e)
      (hp : ch.participants = w.participants)
  | departure (p : ℕ) (hn : ∀ a i, ¬ w.Introduction a i e)
      (hd : ∀ i, w.DepartureOf i e ↔ (w.sessions p).mId = i)
      (hm : ∀ a m, m ∈ handedTo a ch.acts ↔ (a ∈ w.participants
        ∧ (w.sessions a).mId ≠ (w.sessions p).mId)
        ∧ m = (ParticipantLeave.mk (w.sessions p).mId).toMessage)
      (hp : ch.participants = w.remaining p)

theorem mem_remaining {p a : ℕ} :
    a ∈ w.remaining p ↔ a ∈ w.participants ∧ (w.sessions a).mId ≠ (w.sessions p).mId := by
  rw [remaining, KeyedSet.mem_erase, key, key, Ne, UInt64.toNat_inj]

theorem mem_handedTo_departureActs {p a : ℕ} {m : XRMessage} :
    (∃ b, .handed a m b ∈ w.departureActs p) ↔ (a ∈ w.participants
      ∧ (w.sessions a).mId ≠ (w.sessions p).mId)
      ∧ m = (ParticipantLeave.mk (w.sessions p).mId).toMessage := by
  simp [mem_remaining, and_comm, and_left_comm]

theorem participantIds {l : List XRMessage} {qs : List ℕ}
    (h : List.Forall₂ w.AnnouncesSession l qs) :
    l.map XRMessage.participantId = qs.map fun q => (w.sessions q).mId := by
  induction h with
  | nil => rfl
  | cons h _ ih => rw [List.map_cons, List.map_cons, ih, h.1.participantId]

theorem Introduces.tells (hM : Members w) {s : ℕ} {json : Bytes} {c : Choice} {id : UInt64}
    {l : List (ℕ × XRMessage)} (h : (w.described s json).Introduces c id l) (ps : List ℕ) :
    (∀ a, ∀ m ∈ XRNetwork.handedTo a (handedActs ps l), m.kind = some .participantNew) ∧
    ∀ a i, (∃ m ∈ XRNetwork.handedTo a (handedActs ps l), m.participantId = i) ↔
      a ∈ w.participants ∧ (w.sessions a).mId ≠ i ∧ (∃ p ∈ w.participants, (w.sessions p).mId = i)
        ∧ (id = i ∨ id = (w.sessions a).mId) := by
  refine ⟨fun a m hm => ?_, fun a i => ?_⟩
  · rw [handedTo_handedActs] at hm
    obtain ⟨x, hx, rfl⟩ := List.mem_map.1 hm
    exact h.kind x (List.mem_of_mem_filter hx)
  obtain ⟨p, x, list, hp, rfl, hx, hlist, hself, hothers, hnone⟩ :=
    h.handedTo (hM.described s json) ps
  have hp : p ∈ w.participants := hp
  have hxid : x.participantId = (w.sessions p).mId := by
    rw [hx.1.participantId, described_mId]
  rw [described_mId]
  by_cases ha : a ∈ w.participants
  · rcases eq_or_ne a p with rfl | hne
    · -- the one named is told of all the others
      have hids := participantIds hlist
      simp only [described_mId] at hids
      rw [hself, ← List.mem_map (f := XRMessage.participantId), hids]
      simp only [List.mem_map, List.mem_filter, ne_eq, decide_eq_true_eq]
      constructor
      · rintro ⟨q, ⟨hq, hne⟩, rfl⟩
        have hq : q ∈ w.participants := hq
        exact ⟨ha, fun h => hne ((hM.mId_inj ha hq).1 h).symm, ⟨q, hq, rfl⟩, .inr trivial⟩
      · rintro ⟨-, hi, ⟨q, hq, rfl⟩, -⟩
        exact ⟨q, ⟨hq, fun h => hi (h ▸ rfl)⟩, rfl⟩
    · have hid : (w.sessions p).mId ≠ (w.sessions a).mId := fun h => hne ((hM.mId_inj hp ha).1 h).symm
      rw [hothers a ha hne]
      simp only [List.mem_singleton, exists_eq_left, hxid, hid, or_false, ha, true_and]
      constructor
      · rintro rfl
        exact ⟨hid.symm, ⟨p, hp, rfl⟩, rfl⟩
      · exact fun h => h.2.2
  · rw [hnone a ha]
    simp [ha]

theorem Case.hands (hM : Members w) (hc : w.Case E e ch) (hret : ch.returns = true) :
    Hands w e ch := by
  have hhanded : ∀ {a m}, m ∈ handedTo a ch.acts → ∃ b, .handed a m b ∈ ch.acts :=
    mem_handedTo.1
  cases hc with
  | quiet s d b he =>
    have hn : ∀ a i, ¬ w.Introduction a i e := by
      cases e <;> first | exact fun _ _ => id | cases he
    have hd : ∀ i, ¬ w.DepartureOf i e := by
      cases e <;> first | exact fun _ => id | cases he
    exact .other hn hd (by simp [mem_handedTo]) (.inl rfl)
  | accepted ip t ms b hms =>
    refine .other (fun _ _ => id) (fun _ => id) (fun a m hm => ?_) (.inl rfl)
    obtain ⟨b, hb⟩ := hhanded hm
    simp at hb
    simp [hms m hb.1]
  | handshake rs d ms b hr hk hrs hms =>
    refine .other (fun _ _ h => by simp [Introduction, hr] at h)
      (fun _ h => by simp [DepartureOf, hr] at h) (fun a m hm => ?_) (.inl rfl)
    obtain ⟨b, hb⟩ := hhanded hm
    simp at hb
    simp [hms m hb.1]
  | refused _ hr =>
    refine .other (fun _ _ h => by simp [Introduction, hr] at h)
      (fun _ h => by simp [DepartureOf, hr] at h) (fun a m hm => ?_) (.inl rfl)
    obtain ⟨b, hb⟩ := hhanded hm
    simp at hb
    obtain ⟨-, rfl, -⟩ := hb
    simp
  | joined x ps hr _ _ _ _ hps =>
    refine .other (fun _ _ h => by simp [Introduction, hr] at h)
      (fun _ h => by simp [DepartureOf, hr] at h) (fun a m hm => ?_) (.inr ⟨by simp, hps⟩)
    obtain ⟨b, hb⟩ := hhanded hm
    simp at hb
    obtain ⟨-, -, rfl, -⟩ := hb
    simp
  | joinFailed | joinAckCut | joinAckFault | leaveAckFault | removeFault => cases hret
  | joinAck json l hr hk hj hl =>
    obtain ⟨hkind, hids⟩ := hl.tells hM w.participants
    refine .arrivals (fun _ h => by simp [DepartureOf, hk] at h) hkind (fun a i => ?_) rfl
    refine (hids a i).trans ?_
    simp only [Introduction, hr, hk, true_and]
  | ignored o hr hj hu hl =>
    exact .other (fun _ _ h => hj h.2.1) (fun _ h => hl h.2.1) (by simp [mem_handedTo]) (.inl rfl)
  | relay hr hk =>
    refine .other (fun _ _ h => by simp [Introduction, hk] at h)
      (fun _ h => by simp [DepartureOf, hk] at h) (fun a m hm => ?_) (.inl rfl)
    obtain ⟨b, hb⟩ := hhanded hm
    simp at hb
    obtain ⟨-, rfl, -⟩ := hb
    simp [hk]
  | leaveAck p o hr hk hp =>
    obtain ⟨hmem, hid⟩ := mem_of_getParticipantPtr hp
    refine .departure p (fun _ _ h => by simp [Introduction, hk] at h) (fun i => ?_) (fun a m => ?_)
      rfl
    · simp [DepartureOf, hr, hk, hid]
    · simpa [mem_handedTo] using mem_handedTo_departureActs (w := w)
  | handshakeFailed b hr =>
    exact .other (fun _ _ => id) (fun _ h => by simp [DepartureOf, hr] at h)
      (by simp [mem_handedTo]) (.inl rfl)
  | leaveCut he hcb =>
    have hd : ∀ i, ¬ w.DepartureOf i e := by
      cases he
      · exact fun _ h => hcb h.2.1
      · exact fun _ h => hcb h.1
    refine .other ?_ hd (by simp [mem_handedTo]) (.inl rfl)
    cases he <;> exact fun _ _ => id
  | @leave _ s _ _ he hcb =>
    refine .departure s ?_ (fun i => ?_) (fun a m => ?_) rfl
    · cases he <;> exact fun _ _ => id
    · cases he with
      | readFailed h => simp [DepartureOf, h, hcb]
      | writeFailed => simp [DepartureOf, hcb]
    · simpa [mem_handedTo] using mem_handedTo_departureActs (w := w)
  | remove p hp =>
    obtain ⟨hmem, rfl⟩ := mem_of_getParticipantPtr hp
    refine .departure p (fun _ _ => id) (fun i => Iff.rfl) (fun a m => ?_) rfl
    rw [mem_handedTo]
    exact mem_handedTo_departureActs

theorem Hands.new (h : Hands w e ch) (a : ℕ) (i : UInt64) :
    (∃ m ∈ handedTo a ch.acts, m.Tells .participantNew i) ↔ w.Introduction a i e := by
  cases h with
  | other hn _ hk =>
    refine iff_of_false ?_ (hn a i)
    rintro ⟨m, hm, ht⟩
    exact (hk a m hm).1 ht.1
  | arrivals _ hk hn =>
    rw [← hn a i]
    constructor
    · rintro ⟨m, hm, ht⟩
      exact ⟨m, hm, ht.2⟩
    · rintro ⟨m, hm, hid⟩
      exact ⟨m, hm, hk a m hm, hid⟩
  | departure p hn _ hm =>
    refine iff_of_false ?_ (hn a i)
    rintro ⟨m, hmem, ht⟩
    obtain ⟨-, rfl⟩ := (hm a m).1 hmem
    simp [XRMessage.Tells] at ht

theorem Hands.leave (h : Hands w e ch) (a : ℕ) (i : UInt64) :
    (∃ m ∈ handedTo a ch.acts, m.Tells .participantLeave i) ↔ w.Farewell a i e := by
  cases h with
  | other _ hd hk =>
    refine iff_of_false ?_ fun h => hd i h.2.2
    rintro ⟨m, hm, ht⟩
    exact (hk a m hm).2 ht.1
  | arrivals hd hk =>
    refine iff_of_false ?_ fun h => hd i h.2.2
    rintro ⟨m, hm, ht⟩
    simp [XRMessage.Tells, hk a m hm] at ht
  | departure p _ hd hm =>
    simp only [hm, Farewell, hd]
    constructor
    · rintro ⟨m, ⟨ha, rfl⟩, -, hid⟩
      rw [ParticipantLeave.participantId_toMessage] at hid
      exact ⟨ha.1, hid ▸ ha.2, hid⟩
    · rintro ⟨ha, hne, rfl⟩
      exact ⟨_, ⟨⟨ha, hne⟩, rfl⟩, by simp [XRMessage.Tells]⟩

/-- All that the session has been handed, in order. -/
def told (w : Server) (a : ℕ) : List XRMessage := handedTo a (w.trace.map Prod.snd)

theorem told_step (hg : ch.Gives w o) (a : ℕ) :
    o.state.told a = w.told a ++ handedTo a ch.acts := by
  rw [told, hg.trace, List.map_append, List.map_map, handedTo, List.filterMap_append]
  exact congrArg _ (congrArg _ (List.map_id _))

theorem hands (hw : (serverMachine E).Reachable (.ok w)) {w' : Server}
    (hs : w.step E e = some (.ok w')) :
    ∃ ch, w.Case E e ch ∧ ch.Gives w (.ok w') ∧ Hands w e ch := by
  obtain ⟨ch, hc, hg⟩ := step_cases hs
  exact ⟨ch, hc, hg, hc.hands (members hw) (hg.returns.2 rfl)⟩

/-- What tells a session something in one step tells it over a run. -/
theorem told_run {P : Server → Event → Prop} {a : ℕ} {k : MessageHead} {i : UInt64}
    (hP : ∀ w e ch, Hands w e ch → ((∃ m ∈ handedTo a ch.acts, m.Tells k i) ↔ P w e))
    {r : List (Server × Event)} (hr : (serverMachine E).Run r (.ok w)) :
    (∃ m ∈ w.told a, m.Tells k i) ↔ ∃ x ∈ r, P x.1 x.2 := by
  refine hr.history (H := fun w => ∃ m ∈ w.told a, m.Tells k i) ?_ fun w e w' hw hs => ?_
  · rintro ⟨m, hm, -⟩
    cases hm
  · obtain ⟨ch, -, hg, hh⟩ := hands hw hs
    rw [← hP w e ch hh, ← Outcome.state_ok w', told_step hg]
    simp only [List.mem_append, or_and_right, exists_or]

theorem told_new {r : List (Server × Event)} (hr : (serverMachine E).Run r (.ok w)) (a : ℕ)
    (i : UInt64) : (∃ m ∈ w.told a, m.Tells .participantNew i) ↔
      ∃ x ∈ r, x.1.Introduction a i x.2 :=
  told_run (fun _ _ _ hh => hh.new a i) hr

theorem told_leave {r : List (Server × Event)} (hr : (serverMachine E).Run r (.ok w)) (a : ℕ)
    (i : UInt64) : (∃ m ∈ w.told a, m.Tells .participantLeave i) ↔
      ∃ x ∈ r, x.1.Farewell a i x.2 :=
  told_run (fun _ _ _ hh => hh.leave a i) hr

end Server

end XRNetwork
