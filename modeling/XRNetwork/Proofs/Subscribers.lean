import XRNetwork.Proofs.Identity

/-!
# Subscribers that throw

`leave` signals before it erases, and what a subscriber throws ends it there, caught: the member
stays. `join` signals after it has inserted, and what a subscriber throws ends it and its caller:
the member stays too, but never hears of it. Both are complete exactly when the subscribers do not
throw, or nothing was to be done (`subscribers_iff`).
-/

namespace XRNetwork

namespace Server

variable {E : Env} {w : Server} {c : Choice}

/-- If `leave` has returned, the member is gone and the members left have been told. -/
def LeaveComplete (w : Server) (p : ℕ) (o : Outcome Fault Server) : Prop :=
  ∀ w', o = .ok w' → p ∉ w'.participants ∧ ∀ q ∈ w'.participants,
    .handed q (ParticipantLeave.mk (w.sessions p).mId).toMessage true ∈ newActs w o

/-- `join` has returned to its caller and the session is a member, or the set is as it was. -/
def JoinComplete (w : Server) (s : ℕ) (o : Outcome Fault Server) : Prop :=
  (∃ w', o = .ok w' ∧ s ∈ w'.participants) ∨ o.state.participants = w.participants

/-- `join` has nobody to insert: the room is full, the socket closed or the id drawn taken. -/
def NothingToInsert (E : Env) (w : Server) (s : ℕ) : Prop :=
  w.maxParticipants.toNat ≤ w.participants.length ∨ (w.sides s).isOpen = false
    ∨ ∃ q ∈ w.participants, (w.sessions q).mId = E.rng w.drawn

theorem leaveComplete_iff (hw : KeyedSet.Sorted w.key w.participants) {p : ℕ}
    (hp : p ∈ w.participants) : LeaveComplete w p (w.leave c p) ↔ c.callback ≠ .throws := by
  unfold LeaveComplete leave
  rcases hc : c.callback with _ | _ | _
  · refine iff_of_true ?_ (by simp)
    obtain ⟨sides, h⟩ := depart_eq (w.log (.signalLeave p (w.sessions p).mId)) p
    have hsame : SameRoom w (w.log (.signalLeave p (w.sessions p).mId)) :=
      ⟨rfl, fun _ => rfl, fun _ => rfl⟩
    rw [log_sessions, hsame.remaining, hsame.departureActs] at h
    simp only [h]
    rintro w' hw'
    have hacts : newActs w (.ok w') = .signalLeave p (w.sessions p).mId :: w.departureActs p := by
      obtain rfl := Outcome.ok.inj hw'
      simp [newActs]
    obtain rfl := Outcome.ok.inj hw'
    refine ⟨fun hmem => ?_, fun q hq => ?_⟩
    · exact ((hw.mem_erase_key hp).1 hmem).2 rfl
    · rw [hacts]
      exact List.mem_cons_of_mem _ (mem_departureActs.2 (.inr (.inr ⟨q, hq, rfl⟩)))
  · refine iff_of_false (fun h => ?_) (by simp)
    exact (h _ rfl).1 hp
  · exact iff_of_true (by simp) (by simp)

/-- The server as `join` has it when it inserts the session: it has its id, and its info. -/
def joining (E : Env) (s : ℕ) (w : Server) : Server :=
  ((w.log (.joinCalled s)).drawId E s).fillInfo s

theorem key_joining_self (s : ℕ) : (w.joining E s).key s = (E.rng w.drawn).toNat := by
  simp [joining, key, drawId, fillInfo, setSession]

theorem key_joining_of_ne {s q : ℕ} (h : q ≠ s) : (w.joining E s).key q = w.key q := by
  simp [joining, key, drawId, fillInfo, setSession, h]

theorem join_eq {s : ℕ} (hroom : w.participants.length < w.maxParticipants.toNat)
    (hopen : (w.sides s).isOpen = true) : ∃ w', w'.participants =
        KeyedSet.insert (w.joining E s).key s w.participants
      ∧ w.join E c s = if c.callback = .returns then .ok w' else .fault .exception w' := by
  unfold join
  simp only []
  rw [if_neg (by simpa using hroom), if_pos (by simpa [drawId, setSession] using hopen)]
  exact ⟨_, rfl, rfl⟩

theorem joinComplete_iff (hw : KeyedSet.Sorted w.key w.participants) {s : ℕ}
    (hs : s ∉ w.participants) :
    JoinComplete w s (w.join E c s) ↔ c.callback = .returns ∨ NothingToInsert E w s := by
  unfold JoinComplete NothingToInsert
  by_cases hfull : w.maxParticipants.toNat ≤ w.participants.length
  · simp [join, hfull, disconnect, setSide]
  by_cases hopen : (w.sides s).isOpen = true
  swap
  · simp [join, hfull, hopen, drawId, setSession]
  have hkey : ∀ q ∈ w.participants, (w.joining E s).key q = w.key q := by
    intro q hq
    refine key_joining_of_ne ?_
    rintro rfl
    exact hs hq
  have hsorted : KeyedSet.Sorted (w.joining E s).key w.participants :=
    (KeyedSet.sorted_congr hkey).2 hw
  obtain ⟨w', hps, hjoin⟩ := join_eq (E := E) (c := c) (not_le.1 hfull) hopen
  have hstate : (w.join E c s).state.participants = w'.participants := by
    rw [hjoin]
    split_ifs <;> rfl
  by_cases htaken : ∃ q ∈ w.participants, (w.sessions q).mId = E.rng w.drawn
  · refine iff_of_true (.inr ?_) (.inr (.inr (.inr htaken)))
    obtain ⟨q, hq, hid⟩ := htaken
    rw [hstate, hps]
    refine hsorted.insert_of_taken hq ?_
    rw [hkey q hq, key_joining_self, ← hid, key]
  · have hfree : ∀ q ∈ w.participants, (w.joining E s).key q ≠ (w.joining E s).key s := by
      intro q hq hk
      rw [hkey q hq, key_joining_self] at hk
      exact htaken ⟨q, hq, UInt64.toNat_inj.1 hk⟩
    have hperm := KeyedSet.insert_perm hfree
    have hmem : s ∈ w'.participants := by
      rw [hps]
      exact hperm.mem_iff.2 List.mem_cons_self
    have hchanged : w'.participants ≠ w.participants := fun h => hs (h ▸ hmem)
    rw [hstate, hjoin]
    simp only [hfull, hopen, htaken, hchanged, or_false, Bool.true_eq_false]
    constructor
    · rintro ⟨w'', h, -⟩
      split_ifs at h with hc
      exact hc
    · intro hc
      rw [if_pos hc]
      exact ⟨w', rfl, hmem⟩

end Server

open Server

/-- In every state of the room, whatever the subscribers do: a `leave` that returns has erased the
member and told the others exactly when they have not thrown what it catches, and a `join` has
inserted the session and returned, or left the set alone, exactly when they have returned or there
was nobody to insert. -/
theorem subscribers_iff {E : Env} {w : Server} {c : Choice}
    (hw : KeyedSet.Sorted w.key w.participants) :
    (∀ p ∈ w.participants, LeaveComplete w p (w.leave c p) ↔ c.callback ≠ .throws)
    ∧ ∀ s ∉ w.participants,
      JoinComplete w s (w.join E c s) ↔ c.callback = .returns ∨ NothingToInsert E w s :=
  ⟨fun _ hp => leaveComplete_iff hw hp, fun _ hs => joinComplete_iff hw hs⟩

/-- Subscribers that throw a `std::exception`. -/
def Choice.throwing : Choice := { Choice.plain with callback := .throws }

/-- In a room of two, with subscribers that return. -/
theorem subscribers_iff_two : ∃ w, (serverMachine .counting).Reachable (.ok w)
    ∧ w.participants = [0, 1] ∧ LeaveComplete w 0 (w.leave .plain 0)
    ∧ JoinComplete w 2 (w.join .counting .plain 2) := by
  have hrun : ((serverMachine .counting).exec Server.init (joins 2)).any
      (Outcome.okAnd fun w => w.participants = [0, 1]) = true := by
    decide +kernel
  obtain ⟨r, w, hr, -, hw⟩ := Machine.exec_okAnd hrun
  have hps := of_decide_eq_true hw
  have h := subscribers_iff (E := .counting) (c := .plain) (members ⟨r, hr⟩).sorted
  exact ⟨w, ⟨r, hr⟩, hps, (h.1 0 (by simp [hps])).2 (by decide),
    (h.2 2 (by simp [hps])).2 (.inl rfl)⟩

/-- With subscribers that throw, the member whose read has failed stays, and nobody is told; and a
session that joins is a member of the room, while the handler that made it join is gone. -/
theorem subscribers_corrupt : ∃ w, (serverMachine .counting).Reachable (.ok w)
    ∧ w.participants = [0, 1] ∧ ¬ LeaveComplete w 0 (w.leave .throwing 0)
    ∧ (w.sides 2).isOpen = true ∧ ¬ JoinComplete w 2 (w.join .counting .throwing 2) := by
  have hrun : ((serverMachine .counting).exec Server.init (joins 2 ++ [.accept (some []) 0])).any
      (Outcome.okAnd fun w => w.participants = [0, 1] ∧ (w.sides 2).isOpen = true
        ∧ 2 ∈ (w.join .counting .throwing 2).state.participants
        ∧ ((w.join .counting .throwing 2).okAnd fun _ => true) = false) = true := by
    decide +kernel
  obtain ⟨r, w, hr, -, hw⟩ := Machine.exec_okAnd hrun
  obtain ⟨hps, hopen, hmem, hthrows⟩ := of_decide_eq_true hw
  refine ⟨w, ⟨r, hr⟩, hps, fun h => ?_, hopen, ?_⟩
  · exact (h _ rfl).1 (by simp [log, hps])
  · rintro (⟨w', h, -⟩ | h)
    · rw [h] at hthrows
      cases hthrows
    · simp [h, hps] at hmem

end XRNetwork
