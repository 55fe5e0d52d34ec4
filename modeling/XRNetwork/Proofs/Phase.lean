import XRNetwork.Proofs.Steps

/-!
# Phases of a session and the order of the set

A session has at most one read outstanding, a handshake read until it calls `join` and a room read
from then on, so it joins at most once (`Phase`). The set stays in the order of its members' ids
(`Sorted`), and a member has been inserted.
-/

namespace XRNetwork

namespace Server

variable {E : Env} {w : Server} {e : Event} {ch : Change} {o : Outcome Fault Server}

@[simp] theorem mem_handedActs {ps : List ℕ} {l : List (ℕ × XRMessage)} {a : Act} :
    a ∈ handedActs ps l ↔ ∃ x ∈ l, .handed x.1 x.2 (decide (x.1 ∈ ps)) = a := by
  simp [handedActs]

@[simp] theorem mem_insertActs {ps ps' : List ℕ} {s : ℕ} {a : Act} :
    a ∈ insertActs ps ps' s ↔ ps.length < ps'.length ∧ a = .inserted s := by
  unfold insertActs
  split_ifs with h <;> simp [h]

@[simp] theorem mem_departureActs {s : ℕ} {a : Act} : a ∈ w.departureActs s ↔
    (∃ p ∈ w.participants, w.key p = w.key s ∧ a = .erased p) ∨
    a = .leaveBroadcast s (w.sessions s).mId ∨ ∃ p ∈ w.remaining s,
      a = .handed p (ParticipantLeave.mk (w.sessions s).mId).toMessage true := by
  simp only [departureActs, List.mem_append, List.mem_map, List.mem_filter, decide_eq_true_eq,
    List.mem_cons, mem_handedActs, and_assoc, eq_comm (a := a)]
  refine or_congr_right (or_congr_right ?_)
  constructor
  · rintro ⟨_, ⟨p, hp, rfl⟩, rfl⟩
    exact ⟨p, hp, by simp [hp]⟩
  · rintro ⟨p, hp, rfl⟩
    exact ⟨_, ⟨p, hp, rfl⟩, by simp [hp]⟩

theorem mem_trace (hg : ch.Gives w o) {t : ℕ} {a : Act} :
    (t, a) ∈ o.state.trace ↔ (t, a) ∈ w.trace ∨ t = w.clock + 1 ∧ a ∈ ch.acts := by
  rw [hg.trace, List.mem_append, List.mem_map]
  refine or_congr_right ⟨?_, ?_⟩
  · rintro ⟨a, ha, h⟩
    cases h
    exact ⟨rfl, ha⟩
  · rintro ⟨rfl, ha⟩
    exact ⟨a, ha, rfl⟩

/-- What holds at the start and survives every case holds whatever happens. -/
theorem reachable_cases {I : Server → Prop} (h0 : I Server.init)
    (hstep : ∀ w e ch o, (serverMachine E).Reachable (.ok w) → I w → w.Case E e ch →
      ch.Gives w o → I o.state)
    (h : (serverMachine E).Reachable o) : I o.state :=
  h.invariant h0 fun w e o hw hI hs => by
    obtain ⟨ch, hc, hg⟩ := step_cases (show w.step E e = some o from hs)
    exact hstep w e ch o hw hI hc hg

/-- The act has happened. -/
def Did (w : Server) (a : Act) : Prop := ∃ t, (t, a) ∈ w.trace

theorem did_iff (hg : ch.Gives w o) {a : Act} : o.state.Did a ↔ w.Did a ∨ a ∈ ch.acts := by
  simp only [Did, mem_trace hg, exists_or, exists_eq_left]

theorem sessions_of_ne (hg : ch.Gives w o) {s : ℕ} (h : s ≠ ch.session) :
    o.state.sessions s = w.sessions s := by
  rw [hg.sessions, Function.update_of_ne h]

theorem sessions_self (hg : ch.Gives w o) : o.state.sessions ch.session = ch.record := by
  rw [hg.sessions, Function.update_self]

structure Phase (w : Server) : Prop where
  fresh : ∀ s, w.made ≤ s → (w.sessions s).reads = [] ∧ ¬ w.Did (.joinCalled s)
  one : ∀ s, (w.sessions s).reads.length ≤ 1
  handshake : ∀ s b, ⟨.handshake, b⟩ ∈ (w.sessions s).reads → ¬ w.Did (.joinCalled s)
  room : ∀ s b, ⟨.room, b⟩ ∈ (w.sessions s).reads → w.Did (.joinCalled s)

/-- What a step does to the reads of the session it is about: nothing, the first read of a fresh
session, or one read ends and at most one starts, of the same loop unless the session joins. -/
theorem Case.reads (hc : w.Case E e ch) :
    (ch.made = w.made ∧ ch.record.reads = (w.sessions ch.session).reads
      ∧ ∀ s, .joinCalled s ∉ ch.acts)
    ∨ (ch.session = w.made ∧ ch.made = w.made + 1 ∧ ch.record.reads = [⟨.handshake, true⟩]
      ∧ ∀ s, .joinCalled s ∉ ch.acts)
    ∨ ∃ i x rs, ∃ joins : Bool, ch.made = w.made ∧ (w.sessions ch.session).reads[i]? = some x
      ∧ ch.record.reads = (w.sessions ch.session).reads.eraseIdx i ++ rs ∧ rs.length ≤ 1
      ∧ (∀ s, .joinCalled s ∈ ch.acts ↔ s = ch.session ∧ joins)
      ∧ (joins → x.loop = .handshake)
      ∧ ∀ y ∈ rs, y.loop = if joins then .room else x.loop := by
  have hdep : ∀ p s, Act.joinCalled s ∉ w.departureActs p := by
    intro p s
    simp
  cases hc with
  | quiet | removeFault => exact .inl ⟨rfl, rfl, by simp⟩
  | remove p hp => exact .inl ⟨rfl, rfl, hdep _⟩
  | accepted => exact .inr (.inl ⟨rfl, rfl, rfl, by simp⟩)
  | handshake rs d ms b hr hk hrs hms =>
    refine .inr (.inr ⟨_, _, rs, false, rfl, hr, rfl, ?_, by simp, by simp, ?_⟩) <;>
      rcases hrs with rfl | rfl <;> simp
  | refused o hr =>
    exact .inr (.inr ⟨_, _, _, true, rfl, hr, rfl, by simp, by simp, by simp,
      by simp⟩)
  | joinFailed hr =>
    exact .inr (.inr ⟨_, _, _, true, rfl, hr, rfl, by simp, by simp, by simp, by simp⟩)
  | joined x ps hr _ _ _ hx =>
    refine .inr (.inr ⟨_, _, [⟨.room, true⟩], true, rfl, hr, by rw [hx]; rfl, by simp, ?_, by simp,
      by simp⟩)
    intro t
    by_cases hcb : ‹Choice›.callback = .returns <;> simp [hcb]
  | joinAckCut hr | leaveAckFault hr =>
    exact .inr (.inr ⟨_, _, _, false, rfl, hr, rfl, by simp, by simp, by simp, by simp⟩)
  | joinAckFault json l hr | joinAck json l hr =>
    exact .inr (.inr ⟨_, _, _, false, rfl, hr, rfl, by simp, by simp, by simp,
      by simp⟩)
  | ignored o hr | relay hr =>
    exact .inr (.inr ⟨_, _, _, false, rfl, hr, rfl, by simp, by simp, by simp,
      by simp⟩)
  | leaveAck p o hr =>
    exact .inr (.inr ⟨_, _, _, false, rfl, hr, rfl, by simp, by simp [hdep], by simp, by simp⟩)
  | handshakeFailed b hr =>
    exact .inr (.inr ⟨_, _, [], false, rfl, hr, rfl, by simp, by simp, by simp, by simp⟩)
  | leaveCut he =>
    cases he with
    | readFailed h =>
      exact .inr (.inr ⟨_, _, [], false, rfl, h, rfl, by simp, by simp, by simp, by simp⟩)
    | writeFailed => exact .inl ⟨rfl, rfl, by simp⟩
  | leave he =>
    cases he with
    | readFailed h =>
      exact .inr (.inr ⟨_, _, [], false, rfl, h, rfl, by simp, by simp [hdep], by simp, by simp⟩)
    | writeFailed => exact .inl ⟨rfl, rfl, by simp [hdep]⟩

theorem phase_init : Phase Server.init :=
  ⟨fun _ _ => ⟨rfl, by simp [Did, init]⟩, fun _ => by simp [init, Session.fresh],
    fun _ _ h => by simp [init, Session.fresh] at h, fun _ _ h => by simp [init, Session.fresh] at h⟩

theorem Phase.read_eq (hI : Phase w) {s i : ℕ} {x : PendingRead}
    (hx : (w.sessions s).reads[i]? = some x) :
    (w.sessions s).reads = [x] ∧ (w.sessions s).reads.eraseIdx i = [] ∧ s < w.made := by
  obtain ⟨hi, rfl⟩ := List.getElem?_eq_some_iff.1 hx
  obtain ⟨y, hy⟩ := List.length_eq_one_iff.1 (le_antisymm (hI.one s) (by omega))
  have hi0 : i = 0 := by
    have := hI.one s
    omega
  subst hi0
  refine ⟨by simp [hy], by simp [hy], not_le.1 fun hm => ?_⟩
  simp [(hI.fresh s hm).1] at hy

theorem phase_step (hI : Phase w) (hc : w.Case E e ch) (hg : ch.Gives w o) : Phase o.state := by
  rcases hc.reads with ⟨hm, hr, hj⟩ | ⟨hs, hm, hr, hj⟩ | ⟨i, x, rs, joins, hm, hx, hr, hlen, hj, hx', hrs⟩
  · have hreads : ∀ s, (o.state.sessions s).reads = (w.sessions s).reads := by
      intro s
      rcases eq_or_ne s ch.session with rfl | hne
      · rw [sessions_self hg, hr]
      · rw [sessions_of_ne hg hne]
    have hdid : ∀ s, o.state.Did (.joinCalled s) ↔ w.Did (.joinCalled s) := fun s => by
      rw [did_iff hg, or_iff_left (hj s)]
    refine ⟨?_, ?_, ?_, ?_⟩
    · simpa only [hg.made, hm, hreads, hdid] using hI.fresh
    · simpa only [hreads] using hI.one
    · simpa only [hreads, hdid] using hI.handshake
    · simpa only [hreads, hdid] using hI.room
  · have hdid : ∀ s, o.state.Did (.joinCalled s) ↔ w.Did (.joinCalled s) := fun s => by
      rw [did_iff hg, or_iff_left (hj s)]
    have hself : (o.state.sessions w.made).reads = [⟨.handshake, true⟩] := by
      rw [← hs, sessions_self hg, hr]
    have hother : ∀ s, s ≠ w.made → (o.state.sessions s).reads = (w.sessions s).reads :=
      fun s hne => by rw [sessions_of_ne hg (hs ▸ hne)]
    refine ⟨fun s h => ?_, fun s => ?_, fun s b h => ?_, fun s b h => ?_⟩
    · rw [hg.made, hm] at h
      rw [hother s (by omega), hdid]
      exact hI.fresh s (by omega)
    all_goals rcases eq_or_ne s w.made with rfl | hne
    · rw [hself]
      rfl
    · rw [hother s hne]
      exact hI.one s
    · rw [hdid]
      exact (hI.fresh _ le_rfl).2
    · rw [hdid]
      exact hI.handshake s b (hother s hne ▸ h)
    · simp [hself] at h
    · rw [hdid]
      exact hI.room s b (hother s hne ▸ h)
  · obtain ⟨hw, he, hlt⟩ := hI.read_eq hx
    have hmem : ∀ {l}, x.loop = l → (⟨l, x.onOpen⟩ : PendingRead) ∈ (w.sessions ch.session).reads := by
      rintro _ rfl
      simp [hw]
    have hself : (o.state.sessions ch.session).reads = rs := by
      rw [sessions_self hg, hr, he, List.nil_append]
    refine ⟨fun s h => ?_, fun s => ?_, fun s b h => ?_, fun s b h => ?_⟩
    · rw [hg.made, hm] at h
      rw [sessions_of_ne hg (by omega), did_iff hg, hj]
      have := hI.fresh s h
      exact ⟨this.1, fun hd => hd.elim this.2 fun ⟨hs, _⟩ => by omega⟩
    all_goals rcases eq_or_ne s ch.session with rfl | hne
    · rw [hself]
      exact hlen
    · rw [sessions_of_ne hg hne]
      exact hI.one s
    · rw [hself] at h
      have hloop := hrs _ h
      cases joins with
      | true => cases hloop
      | false =>
        rw [did_iff hg, hj, or_iff_left (by simp)]
        exact hI.handshake _ x.onOpen (hmem (by simpa using hloop.symm))
    · rw [did_iff hg, hj, or_iff_left fun h => hne h.1]
      exact hI.handshake s b (sessions_of_ne hg hne ▸ h)
    · rw [hself] at h
      have hloop := hrs _ h
      rw [did_iff hg, hj]
      cases joins with
      | true => exact .inr ⟨rfl, rfl⟩
      | false => exact .inl (hI.room _ x.onOpen (hmem (by simpa using hloop.symm)))
    · rw [did_iff hg]
      exact .inl (hI.room s b (sessions_of_ne hg hne ▸ h))

theorem phase (h : (serverMachine E).Reachable o) : Phase o.state :=
  reachable_cases phase_init (fun _ _ _ _ _ hI hc hg => phase_step hI hc hg) h

theorem Phase.joins (hI : Phase w) (hc : w.Case E e ch) {s : ℕ} (h : .joinCalled s ∈ ch.acts) :
    s = ch.session ∧ s < w.made ∧ ¬ w.Did (.joinCalled s) := by
  rcases hc.reads with ⟨-, -, hj⟩ | ⟨-, -, -, hj⟩ | ⟨i, x, rs, joins, -, hx, -, -, hj, hx', -⟩
  · exact absurd h (hj s)
  · exact absurd h (hj s)
  · obtain ⟨rfl, hjoins⟩ := (hj s).1 h
    obtain ⟨hw, -, hlt⟩ := hI.read_eq hx
    refine ⟨rfl, hlt, hI.handshake _ x.onOpen ?_⟩
    simp [hw, ← hx' hjoins]

/-- How ids change: an accepted session has none, and one that joins draws one. -/
theorem Case.ids (hc : w.Case E e ch) :
    (ch.record.mId = (w.sessions ch.session).mId ∧ ch.drawn = w.drawn)
    ∨ (ch.session = w.made ∧ ch.record.mId = 0 ∧ ch.drawn = w.drawn)
    ∨ (.joinCalled ch.session ∈ ch.acts ∧ ch.record.mId = E.rng w.drawn
      ∧ ch.drawn = w.drawn + 1) := by
  cases hc with
  | accepted => exact .inr (.inl ⟨rfl, rfl, rfl⟩)
  | joinFailed hr => exact .inr (.inr ⟨by simp, rfl, rfl⟩)
  | joined x ps hr _ _ _ hx => exact .inr (.inr ⟨by simp, by rw [hx], rfl⟩)
  | leaveCut he | leave he => cases he <;> exact .inl ⟨rfl, rfl⟩
  | _ => exact .inl ⟨rfl, rfl⟩

/-- How the set changes: not at all, by an insertion or by an erasure, each with its acts. -/
theorem Case.set (hc : w.Case E e ch) :
    (ch.participants = w.participants ∧ ∀ s, .inserted s ∉ ch.acts ∧ .erased s ∉ ch.acts)
    ∨ (.joinCalled ch.session ∈ ch.acts
      ∧ ch.participants = KeyedSet.insert
        (fun p => (Function.update w.sessions ch.session ch.record p).mId.toNat) ch.session
        w.participants
      ∧ ∀ s, (.inserted s ∈ ch.acts ↔ s = ch.session ∧ w.participants.length <
        ch.participants.length) ∧ .erased s ∉ ch.acts)
    ∨ ∃ p, ch.participants = w.remaining p
      ∧ ∀ s, .inserted s ∉ ch.acts ∧ (.erased s ∈ ch.acts ↔
        s ∈ w.participants ∧ w.key s = w.key p) := by
  cases hc with
  | joined x ps hr _ _ _ hx hps =>
    refine .inr (.inl ⟨by simp, hps, fun s => ?_⟩)
    by_cases hcb : ‹Choice›.callback = .returns <;>
      simp [hcb, and_comm]
  | leave he =>
    refine .inr (.inr ⟨_, rfl, fun s => ?_⟩)
    simp
  | leaveAck p =>
    refine .inr (.inr ⟨p, rfl, fun s => ?_⟩)
    simp
  | remove p =>
    refine .inr (.inr ⟨p, rfl, fun s => ?_⟩)
    simp
  | _ => exact .inl ⟨rfl, fun s => by simp⟩

/-- The members, in the order of their ids, all inserted by their `join`. -/
structure Members (w : Server) : Prop where
  sorted : KeyedSet.Sorted w.key w.participants
  inserted : ∀ s ∈ w.participants, w.Did (.inserted s)
  joined : ∀ s, w.Did (.inserted s) → w.Did (.joinCalled s)

theorem Members.not_mem (hM : Members w) {s : ℕ} (h : ¬ w.Did (.joinCalled s)) :
    s ∉ w.participants :=
  fun hs => h (hM.joined s (hM.inserted s hs))

theorem mId_of_joined (hP : Phase w) (hc : w.Case E e ch) (hg : ch.Gives w o) {s : ℕ}
    (hs : w.Did (.joinCalled s)) : (o.state.sessions s).mId = (w.sessions s).mId := by
  rcases eq_or_ne s ch.session with rfl | hne
  · rw [sessions_self hg]
    rcases hc.ids with ⟨h, -⟩ | ⟨h, -⟩ | ⟨h, -⟩
    · exact h
    · exact absurd hs (hP.fresh _ h.ge).2
    · exact absurd hs (hP.joins hc h).2.2
  · rw [sessions_of_ne hg hne]

theorem members_step (hP : Phase w) (hM : Members w) (hc : w.Case E e ch) (hg : ch.Gives w o) :
    Members o.state := by
  have hkey : ∀ s ∈ w.participants, o.state.key s = w.key s := fun s hs =>
    congrArg UInt64.toNat (mId_of_joined hP hc hg (hM.joined s (hM.inserted s hs)))
  have hsorted : KeyedSet.Sorted o.state.key w.participants :=
    (KeyedSet.sorted_congr hkey).2 hM.sorted
  rcases hc.set with ⟨hp, ha⟩ | ⟨hj, hp, ha⟩ | ⟨p, hp, ha⟩
  · refine ⟨by rwa [hg.participants, hp], fun s hs => ?_, fun s hs => ?_⟩
    · rw [hg.participants, hp] at hs
      exact (did_iff hg).2 (.inl (hM.inserted s hs))
    · rw [did_iff hg, or_iff_left (ha s).1] at hs
      exact (did_iff hg).2 (.inl (hM.joined s hs))
  · have hp' : o.state.participants = KeyedSet.insert o.state.key ch.session w.participants := by
      rw [hg.participants, hp, key_def, hg.sessions]
    refine ⟨hp' ▸ hsorted.insert _, fun s hs => ?_, fun s hs => ?_⟩
    · rw [did_iff hg]
      rcases hsorted.insert_cases ch.session with ⟨-, h⟩ | h
      · rcases List.mem_cons.1 (h.mem_iff.1 (hp' ▸ hs)) with rfl | hs
        · refine .inr ((ha _).1.2 ⟨rfl, ?_⟩)
          rw [← hg.participants, hp', h.length_eq]
          simp
        · exact .inl (hM.inserted s hs)
      · exact .inl (hM.inserted s (by rwa [hp', h] at hs))
    · rw [did_iff hg] at hs ⊢
      rcases hs with hs | hs
      · exact .inl (hM.joined s hs)
      · obtain ⟨rfl, -⟩ := (ha s).1.1 hs
        exact .inr hj
  · have hp' : o.state.participants = w.remaining p := by rw [hg.participants, hp]
    refine ⟨hp' ▸ hsorted.filter _, fun s hs => ?_, fun s hs => ?_⟩
    · rw [hp'] at hs
      exact (did_iff hg).2 (.inl (hM.inserted s (KeyedSet.mem_erase.1 hs).1))
    · rw [did_iff hg, or_iff_left (ha s).1] at hs
      exact (did_iff hg).2 (.inl (hM.joined s hs))

theorem members (h : (serverMachine E).Reachable o) : Members o.state := by
  refine reachable_cases ⟨List.Pairwise.nil, by simp [init], by simp [init, Did]⟩ ?_ h
  intro w e ch o hw hM hc hg
  exact members_step (phase hw) hM hc hg

theorem stamps_le (h : (serverMachine E).Reachable o) :
    ∀ x ∈ o.state.trace, x.1 ≤ o.state.clock := by
  refine reachable_cases (I := fun w => ∀ x ∈ w.trace, x.1 ≤ w.clock) (by simp [init])
    (fun w e ch o _ hI _ hg => ?_) h
  rintro ⟨t, a⟩ h
  rw [hg.clock]
  rcases (mem_trace hg).1 h with h | ⟨rfl, -⟩
  · exact (hI _ h).trans (Nat.le_succ _)
  · exact le_rfl

/-- Later steps write nothing under an earlier number. -/
structure Extends (w w' : Server) : Prop where
  clock : w.clock ≤ w'.clock
  trace : ∀ t a, t ≤ w.clock → ((t, a) ∈ w'.trace ↔ (t, a) ∈ w.trace)

/-- What a run's trace holds of one of its steps is what the step wrote. -/
theorem mem_trace_run {r : List (Server × Event)} (hr : (serverMachine E).Run r o)
    (h : (w, e) ∈ r) : ∃ ch, w.Case E e ch ∧
      ∀ a, (w.clock + 1, a) ∈ o.state.trace ↔ a ∈ ch.acts := by
  obtain ⟨r₀, -, hw, -, -⟩ := hr.before h
  obtain ⟨o₁, hs, hext⟩ := hr.after (R := Extends) (fun _ => ⟨le_rfl, fun _ _ _ => Iff.rfl⟩)
    (fun _ _ _ h h' => ⟨h.clock.trans h'.clock, fun t a ht =>
      (h'.trace t a (ht.trans h.clock)).trans (h.trace t a ht)⟩) (fun w e o _ hs => by
      obtain ⟨ch, -, hg⟩ := step_cases (show w.step E e = some o from hs)
      refine ⟨by rw [hg.clock]; omega, fun t a ht => ?_⟩
      rw [mem_trace hg, or_iff_left fun h => by omega]) h
  obtain ⟨ch, hc, hg⟩ := step_cases (show w.step E e = some o₁ from hs)
  refine ⟨ch, hc, fun a => ?_⟩
  rw [hext.trace _ _ hg.clock.ge, mem_trace hg]
  refine ⟨fun h => ?_, fun h => .inr ⟨rfl, h⟩⟩
  rcases h with h | ⟨-, h⟩
  · have hle := stamps_le ⟨r₀, hw⟩ _ h
    simp only [Outcome.state_ok] at hle
    omega
  · exact h

end Server

end XRNetwork
