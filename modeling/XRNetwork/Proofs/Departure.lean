import XRNetwork.Proofs.Auth
import XRNetwork.Lib.Stamped

/-!
# Departures

A member can be removed on four paths that do not know of each other. Two of them, a session's
`PARTICIPANT_LEAVE_ACK` and the server's `disconnect_participant`, broadcast the departure and
signal nothing; `leave`, called for every failed room read and every failed write, signals and
broadcasts it for whoever it is called with. So departures are announced as they happen exactly in
the runs where members go by a `leave` only and `leave` is called for members only
(`departure_exact_iff`).
-/

namespace XRNetwork

open Stamped

namespace Act

def signalsLeave (s : ℕ) : Act → Bool
  | .signalLeave t _ => t = s
  | _ => false

def broadcastsLeave (s : ℕ) : Act → Bool
  | .leaveBroadcast t _ => t = s
  | _ => false

def erases (s : ℕ) : Act → Bool
  | .erased t => t = s
  | _ => false

def inserts (s : ℕ) : Act → Bool
  | .inserted t => t = s
  | _ => false

end Act

/-- The session's departure is signalled and broadcast in the step that removes it from the set
and in no other, once at most, and after it was inserted. -/
structure DepartureExact (tr : List (ℕ × Act)) (s : ℕ) : Prop where
  signal : stamps (Act.signalsLeave s) tr = stamps (Act.erases s) tr
  broadcast : stamps (Act.broadcastsLeave s) tr = stamps (Act.erases s) tr
  once : (stamps (Act.erases s) tr).length ≤ 1
  inserted : ∀ t ∈ stamps (Act.erases s) tr, ∃ t' ∈ stamps (Act.inserts s) tr, t' < t

namespace Server

variable {E : Env} {w : Server} {e : Event} {ch : Change} {o : Outcome Fault Server}

/-- No `PARTICIPANT_LEAVE_ACK` and no call of `disconnect_participant` finds a member, and `leave`
is called for members only, with subscribers that return. -/
def LeavesCleanly (w : Server) : Event → Prop
  | .read s i buf _ => (w.sessions s).reads[i]? = some ⟨.room, true⟩ →
      (receivedMessage buf).kind = some .participantLeaveAck →
      w.getParticipantPtr (w.sessions s).mId = none
  | .readFailed s i c => ∀ b, (w.sessions s).reads[i]? = some ⟨.room, b⟩ →
      s ∈ w.participants ∧ c.callback = .returns
  | .writeFailed s _ c => s ∈ w.participants ∧ c.callback = .returns
  | .disconnectParticipant id => w.getParticipantPtr id = none
  | _ => True

theorem Leaves.clean_iff {c : Choice} {s : ℕ} {x : Session} (h : w.Leaves c s e x) :
    LeavesCleanly w e ↔ s ∈ w.participants ∧ c.callback = .returns := by
  cases h with
  | readFailed h => exact ⟨fun hcl => hcl _ h, fun hcl _ _ => hcl⟩
  | writeFailed => exact Iff.rfl

/-- How a step departs from the set: it does not; by a `leave`; by a `leave` cut short by its
subscribers; or with no signal. -/
inductive Departs (w : Server) (e : Event) (ch : Change) : Prop
  | none (hcl : LeavesCleanly w e)
      (ha : ∀ s, (∀ id, .signalLeave s id ∉ ch.acts) ∧ (∀ id, .leaveBroadcast s id ∉ ch.acts)
        ∧ .erased s ∉ ch.acts)
  | leave (s : ℕ) (hcl : LeavesCleanly w e ↔ s ∈ w.participants)
      (ha : ch.acts = .signalLeave s (w.sessions s).mId :: w.departureActs s)
      (hp : ch.participants = w.remaining s)
  | cut (s : ℕ) (hcl : ¬ LeavesCleanly w e)
      (ha : ch.acts = [.signalLeave s (w.sessions s).mId])
  | silent (p : ℕ) (hp : p ∈ w.participants) (hcl : ¬ LeavesCleanly w e)
      (he : .erased p ∈ ch.acts) (ha : ∀ s id, .signalLeave s id ∉ ch.acts)

theorem Case.departs (hc : w.Case E e ch) : Departs w e ch := by
  cases hc with
  | quiet _ _ _ he =>
    refine .none ?_ (by simp)
    cases e <;> trivial
  | accepted => exact .none trivial (by simp)
  | handshake rs d ms b hr => exact .none (fun h => by simp [hr] at h) (by simp)
  | refused b hr => exact .none (fun h => by simp [hr] at h) (by simp)
  | joinFailed hr => exact .none (fun h => by simp [hr] at h) (by simp)
  | joined x ps hr => exact .none (fun h => by simp [hr] at h) (by simp)
  | joinAckCut hr hk => exact .none (fun _ h => by simp [hk] at h) (by simp)
  | joinAckFault json l hr hk => exact .none (fun _ h => by simp [hk] at h) (by simp)
  | joinAck json l hr hk => exact .none (fun _ h => by simp [hk] at h) (by simp)
  | ignored b hr hj hu hl => exact .none (fun _ h => absurd h hl) (by simp)
  | relay hr hk => exact .none (fun _ h => by simp [hk] at h) (by simp)
  | leaveAckFault hr hk hp => exact .none (fun _ _ => hp) (by simp)
  | leaveAck p b hr hk hp =>
    obtain ⟨hmem, hkey⟩ := KeyedSet.mem_of_find hp
    refine .silent p hmem (fun h => ?_) (by simp [hmem]) (by simp)
    have hcl := h hr hk
    simp [hp] at hcl
  | handshakeFailed b hr => exact .none (fun _ h => by simp [hr] at h) (by simp)
  | leaveCut he hc => exact .cut _ (fun h => hc (he.clean_iff.1 h).2) rfl
  | leave he hc => exact .leave _ (he.clean_iff.trans (and_iff_left hc)) rfl rfl
  | removeFault s hp => exact .none hp (by simp)
  | remove p hp =>
    obtain ⟨hmem, hkey⟩ := KeyedSet.mem_of_find hp
    refine .silent p hmem (fun h => ?_) (by simp [hmem]) (by simp)
    simp [LeavesCleanly, hp] at h

theorem filter_signalsLeave {acts : List Act} {s : ℕ} (h : ∀ id, .signalLeave s id ∉ acts) :
    acts.filter (Act.signalsLeave s) = [] := by
  refine List.filter_eq_nil_iff.2 fun a ha => ?_
  cases a with
  | signalLeave t id =>
    simp only [Act.signalsLeave, decide_eq_true_eq]
    rintro rfl
    exact h id ha
  | _ => simp [Act.signalsLeave]

theorem filter_broadcastsLeave {acts : List Act} {s : ℕ} (h : ∀ id, .leaveBroadcast s id ∉ acts) :
    acts.filter (Act.broadcastsLeave s) = [] := by
  refine List.filter_eq_nil_iff.2 fun a ha => ?_
  cases a with
  | leaveBroadcast t id =>
    simp only [Act.broadcastsLeave, decide_eq_true_eq]
    rintro rfl
    exact h id ha
  | _ => simp [Act.broadcastsLeave]

theorem filter_erases {acts : List Act} {s : ℕ} (h : .erased s ∉ acts) :
    acts.filter (Act.erases s) = [] := by
  refine List.filter_eq_nil_iff.2 fun a ha => ?_
  cases a with
  | erased t =>
    simp only [Act.erases, decide_eq_true_eq]
    rintro rfl
    exact h ha
  | _ => simp [Act.erases]

theorem departureActs_of_mem (hM : Members w) {s : ℕ} (hs : s ∈ w.participants) :
    w.departureActs s = .erased s :: .leaveBroadcast s (w.sessions s).mId ::
      handedActs (w.remaining s) ((w.remaining s).map fun p =>
        (p, (ParticipantLeave.mk (w.sessions s).mId).toMessage)) := by
  rw [departureActs, hM.sorted.filter_key hs]
  rfl

/-- Departures so far are exact, and no member has departed. -/
structure Departures (w : Server) : Prop where
  exact : ∀ s, DepartureExact w.trace s
  present : ∀ s ∈ w.participants, stamps (Act.erases s) w.trace = []

theorem mem_participants_or_joins (hc : w.Case E e ch) {s : ℕ} (h : s ∈ ch.participants) :
    s ∈ w.participants ∨ .joinCalled s ∈ ch.acts := by
  rcases hc.set with ⟨hp, -⟩ | ⟨hj, hp, -⟩ | ⟨p, hp, -⟩ <;> rw [hp] at h
  · exact .inl h
  · rcases KeyedSet.mem_insert_imp h with rfl | h
    · exact .inr hj
    · exact .inl h
  · exact .inl (KeyedSet.mem_erase.1 h).1

theorem Departures.joins (hP : Phase w) (hM : Members w) (hD : Departures w) (hc : w.Case E e ch)
    {s : ℕ} (h : .joinCalled s ∈ ch.acts) : stamps (Act.erases s) w.trace = [] := by
  refine List.eq_nil_iff_forall_not_mem.2 fun t ht => ?_
  obtain ⟨t', ht', -⟩ := (hD.exact s).inserted t ht
  obtain ⟨a, ha, hins⟩ := mem_stamps.1 ht'
  have hdid : w.Did (.inserted s) := by
    cases a with
    | inserted p =>
      simp only [Act.inserts, decide_eq_true_eq] at hins
      exact ⟨t', hins ▸ ha⟩
    | _ => simp [Act.inserts] at hins
  exact (hP.joins hc h).2.2 (hM.joined s hdid)

theorem departures_step (hP : Phase w) (hM : Members w) (ht : ∀ x ∈ w.trace, x.1 ≤ w.clock)
    (hD : Departures w) (hc : w.Case E e ch) (hg : ch.Gives w o) (hcl : LeavesCleanly w e) :
    Departures o.state := by
  have hmono : ∀ s, stamps (Act.inserts s) w.trace ⊆ stamps (Act.inserts s) o.state.trace := by
    intro s
    rw [hg.trace, stamps_append]
    exact List.subset_append_left _ _
  cases hc.departs with
  | none _ ha =>
    have he : ∀ s, stamps (Act.erases s) o.state.trace = stamps (Act.erases s) w.trace := by
      intro s
      rw [hg.trace, stamps_append, filter_erases (ha s).2.2, List.map_nil, List.append_nil]
    refine ⟨fun s => ?_, fun s hs => ?_⟩
    · obtain ⟨h1, h2, h3, h4⟩ := hD.exact s
      refine ⟨?_, ?_, by rwa [he], fun t h => ?_⟩
      · rw [he, ← h1, hg.trace, stamps_append, filter_signalsLeave (ha s).1, List.map_nil,
          List.append_nil]
      · rw [he, ← h2, hg.trace, stamps_append, filter_broadcastsLeave (ha s).2.1, List.map_nil,
          List.append_nil]
      · obtain ⟨t', ht', hlt⟩ := h4 t (he s ▸ h)
        exact ⟨t', hmono s ht', hlt⟩
    · rw [he]
      rcases mem_participants_or_joins hc (hg.participants ▸ hs) with hs | hj
      · exact hD.present s hs
      · exact hD.joins hP hM hc hj
  | leave s hcl' ha hp =>
    have hs := hcl'.1 hcl
    rw [departureActs_of_mem hM hs] at ha
    have hold := hD.present s hs
    -- each of the three acts adds this step at `s`, and nothing elsewhere
    have hadd : ∀ {f : ℕ → Act → Bool}, (∀ s', (ch.acts.filter (f s')).map (fun _ => w.clock + 1)
        = if s = s' then [w.clock + 1] else []) → ∀ s', stamps (f s') o.state.trace
        = stamps (f s') w.trace ++ if s = s' then [w.clock + 1] else [] := by
      intro f hf s'
      rw [hg.trace, stamps_append, hf]
    have h1 := hadd (f := Act.signalsLeave) fun s' => by
      rw [ha, List.filter_cons, List.filter_cons, List.filter_cons, filter_signalsLeave (by simp)]
      by_cases h : s = s' <;> simp [Act.signalsLeave, h]
    have h2 := hadd (f := Act.broadcastsLeave) fun s' => by
      rw [ha, List.filter_cons, List.filter_cons, List.filter_cons,
        filter_broadcastsLeave (by simp)]
      by_cases h : s = s' <;> simp [Act.broadcastsLeave, h]
    have h3 := hadd (f := Act.erases) fun s' => by
      rw [ha, List.filter_cons, List.filter_cons, List.filter_cons, filter_erases (by simp)]
      by_cases h : s = s' <;> simp [Act.erases, h]
    refine ⟨fun s' => ⟨?_, ?_, ?_, fun t h => ?_⟩, fun s' hs' => ?_⟩
    · rw [h1, h3, (hD.exact s').signal]
    · rw [h2, h3, (hD.exact s').broadcast]
    · rw [h3]
      split_ifs with h
      · rw [← h, hold]
        rfl
      · simpa using (hD.exact s').once
    · rw [h3] at h
      rcases List.mem_append.1 h with h | h
      · obtain ⟨t', ht', hlt⟩ := (hD.exact s').inserted t h
        exact ⟨t', hmono s' ht', hlt⟩
      · split_ifs at h with hss
        · obtain ⟨t', ht'⟩ := hM.inserted s hs
          have hle := ht _ ht'
          refine ⟨t', hmono s' (mem_stamps.2 ⟨_, ht', by simp [Act.inserts, hss]⟩), ?_⟩
          simp only [List.mem_singleton] at h
          omega
        · simp at h
    · rw [hg.participants, hp] at hs'
      obtain ⟨hmem, hne⟩ := KeyedSet.mem_erase.1 hs'
      rw [h3, if_neg (by rintro rfl; exact hne rfl), List.append_nil]
      exact hD.present s' hmem
  | cut s hcl' => exact absurd hcl hcl'
  | silent p _ hcl' => exact absurd hcl hcl'

/-- A step that is not clean leaves an act of a departure without the others. -/
theorem clean_of_exact {tr : List (ℕ × Act)} {t : ℕ} (hc : w.Case E e ch)
    (htr : ∀ a, (t, a) ∈ tr ↔ a ∈ ch.acts) (hD : ∀ s, DepartureExact tr s) :
    LeavesCleanly w e := by
  have hsignal : ∀ s id, .signalLeave s id ∈ ch.acts → .erased s ∈ ch.acts := by
    intro s id h
    have hmem : t ∈ stamps (Act.erases s) tr := by
      rw [← (hD s).signal]
      exact mem_stamps.2 ⟨_, (htr _).2 h, by simp [Act.signalsLeave]⟩
    obtain ⟨a, ha, he⟩ := mem_stamps.1 hmem
    cases a with
    | erased p =>
      simp only [Act.erases, decide_eq_true_eq] at he
      exact he ▸ (htr _).1 ha
    | _ => simp [Act.erases] at he
  cases hc.departs with
  | none hcl => exact hcl
  | leave s hcl ha =>
    refine hcl.2 ?_
    have h := hsignal s _ (by rw [ha]; exact List.mem_cons_self)
    simp only [ha, List.mem_cons, mem_departureActs, reduceCtorEq, false_or, and_false,
      exists_false, or_false, Act.erased.injEq] at h
    obtain ⟨p, hp, -, rfl⟩ := h
    exact hp
  | cut s _ ha =>
    have h := hsignal s _ (by rw [ha]; exact List.mem_cons_self)
    simp [ha] at h
  | silent p hp _ he ha =>
    have hmem : t ∈ stamps (Act.signalsLeave p) tr := by
      rw [(hD p).signal]
      exact mem_stamps.2 ⟨_, (htr _).2 he, by simp [Act.erases]⟩
    obtain ⟨a, ha', hs⟩ := mem_stamps.1 hmem
    cases a with
    | signalLeave q id =>
      simp only [Act.signalsLeave, decide_eq_true_eq] at hs
      exact absurd ((htr _).1 ha') (ha q id)
    | _ => simp [Act.signalsLeave] at hs

end Server

open Server

/-- In a run every departure is announced as it happens if and only if members leave by `leave`
alone, and `leave` is called for members alone and with subscribers that return. -/
theorem departure_exact_iff {E : Env} {r : List (Server × Event)} {o : Outcome Fault Server}
    (hr : (serverMachine E).Run r o) :
    (∀ s, DepartureExact o.state.trace s) ↔ Machine.Steps LeavesCleanly r := by
  constructor
  · rintro h ⟨w, e⟩ hx
    obtain ⟨ch, hc, htr⟩ := mem_trace_run hr hx
    exact clean_of_exact hc htr h
  · intro hP
    refine (hr.invariant (I := Departures) ⟨fun s => ?_, by simp [serverMachine, init]⟩
      (fun w e o hw hI hcl hs => ?_) hP).exact
    · exact ⟨rfl, rfl, by simp [serverMachine, init, stamps], by simp [serverMachine, init, stamps]⟩
    · obtain ⟨ch, hc, hg⟩ := step_cases (show w.step E e = some o from hs)
      exact departures_step (phase hw) (members hw) (stamps_le hw) hI hc hg hcl

/-- A client that joins and loses its connection. -/
theorem departure_exact_iff_lost : ∃ r w, (serverMachine .counting).Run r (.ok w)
    ∧ r.map Prod.snd = [.accept (some []) 0, .read 0 0 ChatClient.credentialsAck.frame .plain,
      .readFailed 0 0 .plain]
    ∧ ∀ s, DepartureExact w.trace s := by
  have hrun : (((serverMachine .counting).restrict fun w e =>
      match e with
      | .accept _ _ => true
      | .read _ _ buf _ => (receivedMessage buf).kind ≠ some .participantLeaveAck
      | .readFailed s _ c => s ∈ w.participants ∧ c.callback = .returns
      | _ => false).exec Server.init [.accept (some []) 0,
        .read 0 0 ChatClient.credentialsAck.frame .plain, .readFailed 0 0 .plain]).any
        (Outcome.okAnd fun _ => true) = true := by
    decide +kernel
  obtain ⟨r, w, hr, hes, -⟩ := Machine.exec_okAnd hrun
  obtain ⟨hr, hsteps⟩ := Machine.restrict_run hr
  refine ⟨r, w, hr, hes, (departure_exact_iff hr).2 ?_⟩
  rintro ⟨w, e⟩ hx
  have hp := hsteps _ hx
  cases e with
  | accept => trivial
  | read s i buf c => exact fun _ hk => absurd hk (of_decide_eq_true hp)
  | readFailed s i c => exact fun _ _ => of_decide_eq_true hp
  | _ => cases hp

/-- A participant that says that it leaves. -/
def leaveAckMessage : XRMessage :=
  .ofPayload MessageHead.participantLeaveAck.code [] XRMessage.nil_fits

/-- It leaves and then its connection ends: two broadcasts and one signal, at different times. -/
theorem leaveAck_announced_twice : ∃ r w, (serverMachine .counting).Run r (.ok w)
    ∧ r.map Prod.snd = [.accept (some []) 0, .read 0 0 ChatClient.credentialsAck.frame .plain,
      .read 0 0 leaveAckMessage.frame .plain, .readFailed 0 0 .plain]
    ∧ stamps (Act.broadcastsLeave 0) w.trace = [3, 4] ∧ stamps (Act.signalsLeave 0) w.trace = [4]
    ∧ stamps (Act.erases 0) w.trace = [3] ∧ ¬ DepartureExact w.trace 0 := by
  have hrun : ((serverMachine .counting).exec Server.init [.accept (some []) 0,
      .read 0 0 ChatClient.credentialsAck.frame .plain, .read 0 0 leaveAckMessage.frame .plain,
      .readFailed 0 0 .plain]).any (Outcome.okAnd fun w =>
        stamps (Act.broadcastsLeave 0) w.trace = [3, 4]
          ∧ stamps (Act.signalsLeave 0) w.trace = [4]
          ∧ stamps (Act.erases 0) w.trace = [3]) = true := by
    decide +kernel
  obtain ⟨r, w, hr, hes, hw⟩ := Machine.exec_okAnd hrun
  obtain ⟨h1, h2, h3⟩ := of_decide_eq_true hw
  refine ⟨r, w, hr, hes, h1, h2, h3, fun h => ?_⟩
  have hb := h.broadcast
  rw [h1, h3] at hb
  cases hb

end XRNetwork
