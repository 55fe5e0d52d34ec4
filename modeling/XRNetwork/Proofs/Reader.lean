import XRNetwork.Proofs.Departure
import XRNetwork.Proofs.Roster

/-!
# The read loops of a session

The two loops read into one buffer, and the first hands over to the second inside a handler. A
session has one read outstanding at most, the handover happens once, and as long as the subscribers
return a member is always being read from (`single_reader`).
-/

namespace XRNetwork

open Stamped

namespace Act

def callsJoin (s : ℕ) : Act → Bool
  | .joinCalled t => t = s
  | _ => false

def draws (s : ℕ) : Act → Bool
  | .drew t _ => t = s
  | _ => false

end Act

namespace Server

variable {E : Env} {w : Server} {e : Event} {ch : Change} {o : Outcome Fault Server}

/-- The subscribers the handler may call return. -/
def CallbacksReturn (_ : Server) (e : Event) : Prop := ∀ c ∈ e.choice, c.callback = .returns

instance : Decidable (CallbacksReturn w e) :=
  inferInstanceAs (Decidable (∀ c ∈ e.choice, c.callback = .returns))

theorem Leaves.returns {c : Choice} {s : ℕ} {x : Session} (he : w.Leaves c s e x)
    (hcb : CallbacksReturn w e) : c.callback = .returns := by
  cases he <;> exact hcb c rfl

theorem filter_callsJoin {acts : List Act} {s : ℕ} (h : .joinCalled s ∉ acts) :
    acts.filter (Act.callsJoin s) = [] := by
  refine List.filter_eq_nil_iff.2 fun a ha => ?_
  cases a with
  | joinCalled t =>
    simp only [Act.callsJoin, decide_eq_true_eq]
    rintro rfl
    exact h ha
  | _ => simp [Act.callsJoin]

theorem filter_draws {acts : List Act} {s : ℕ} (h : ∀ id, .drew s id ∉ acts) :
    acts.filter (Act.draws s) = [] := by
  refine List.filter_eq_nil_iff.2 fun a ha => ?_
  cases a with
  | drew t id =>
    simp only [Act.draws, decide_eq_true_eq]
    rintro rfl
    exact h id ha
  | _ => simp [Act.draws]

theorem length_filter_cons {p : Act → Bool} {a : Act} {acts : List Act} (h : acts.filter p = []) :
    ((a :: acts).filter p).length ≤ 1 := by
  rw [List.filter_cons, h]
  split_ifs <;> simp

/-- A session is read from, joins, draws an id, and what follows is neither. -/
theorem once_of_draws {acts : List Act} {t : ℕ} {loop : ReadLoop} {m : XRMessage} {id : UInt64}
    (s : ℕ) (hj : ∀ t, .joinCalled t ∉ acts) (hd : ∀ t id, .drew t id ∉ acts) :
    ((Act.received t loop m :: .joinCalled t :: .drew t id :: acts).filter
        (Act.callsJoin s)).length ≤ 1
      ∧ ((Act.received t loop m :: .joinCalled t :: .drew t id :: acts).filter
        (Act.draws s)).length ≤ 1 := by
  constructor
  · rw [List.filter_cons_of_neg (by simp [Act.callsJoin])]
    exact length_filter_cons (filter_callsJoin (by simp [hj]))
  · rw [List.filter_cons_of_neg (by simp [Act.draws]), List.filter_cons_of_neg (by simp [Act.draws])]
    exact length_filter_cons (filter_draws (hd s))

/-- A step calls `join` once, if at all, and draws one id, if any. -/
theorem Case.joins_once (hc : w.Case E e ch) (s : ℕ) :
    (ch.acts.filter (Act.callsJoin s)).length ≤ 1
      ∧ (ch.acts.filter (Act.draws s)).length ≤ 1 := by
  cases hc with
  | refused =>
    constructor
    · rw [List.filter_cons_of_neg (by simp [Act.callsJoin])]
      exact length_filter_cons (filter_callsJoin (by simp))
    · rw [filter_draws (by simp)]
      simp
  | joinFailed => exact once_of_draws s (by simp) (by simp)
  | joined =>
    refine once_of_draws s (fun t => ?_) (fun t id => ?_) <;>
      by_cases hcb : ‹Choice›.callback = .returns <;> simp [hcb]
  | _ =>
    rw [filter_callsJoin (by simp), filter_draws (by simp)]
    simp

/-- At most one entry of a kind is written: there is none yet, or the step adds none. -/
theorem once_step {p : Act → Bool} (hg : ch.Gives w o) (hw : (stamps p w.trace).length ≤ 1)
    (hch : (ch.acts.filter p).length ≤ 1)
    (h : ch.acts.filter p = [] ∨ stamps p w.trace = []) :
    (stamps p o.state.trace).length ≤ 1 := by
  rw [hg.trace, stamps_append, List.length_append, List.length_map]
  rcases h with h | h <;> simp only [h, List.length_nil] <;> omega

/-- Each session has joined once at most, and drawn an id once at most. -/
structure Joins (w : Server) : Prop where
  joined : ∀ s, (stamps (Act.callsJoin s) w.trace).length ≤ 1
  drew : ∀ s, (stamps (Act.draws s) w.trace).length ≤ 1

theorem stamps_callsJoin {s : ℕ} (h : ¬ w.Did (.joinCalled s)) :
    stamps (Act.callsJoin s) w.trace = [] := by
  refine List.eq_nil_iff_forall_not_mem.2 fun t ht => ?_
  obtain ⟨a, ha, hp⟩ := mem_stamps.1 ht
  cases a with
  | joinCalled t' =>
    simp only [Act.callsJoin, decide_eq_true_eq] at hp
    exact h ⟨t, hp ▸ ha⟩
  | _ => simp [Act.callsJoin] at hp

theorem stamps_draws {s : ℕ} (h : ¬ w.Drew s) : stamps (Act.draws s) w.trace = [] := by
  refine List.eq_nil_iff_forall_not_mem.2 fun t ht => ?_
  obtain ⟨a, ha, hp⟩ := mem_stamps.1 ht
  cases a with
  | drew t' id =>
    simp only [Act.draws, decide_eq_true_eq] at hp
    exact h ⟨id, t, hp ▸ ha⟩
  | _ => simp [Act.draws] at hp

theorem joins_step (hP : Phase w) (hI : Ids E w) (hJ : Joins w) (hc : w.Case E e ch)
    (hg : ch.Gives w o) : Joins o.state := by
  have honce := hc.joins_once
  refine ⟨fun s => once_step hg (hJ.joined s) (honce s).1 ?_,
    fun s => once_step hg (hJ.drew s) (honce s).2 ?_⟩
  · by_cases h : .joinCalled s ∈ ch.acts
    · exact .inr (stamps_callsJoin (hP.joins hc h).2.2)
    · exact .inl (filter_callsJoin h)
  · cases hc.enrols with
    | stays _ _ hd | departs _ _ _ hd => exact .inl (filter_draws (hd s))
    | draws hn _ hd =>
      rcases eq_or_ne s ch.session with rfl | hne
      · exact .inr (stamps_draws (hI.draws hP hc hn).1)
      · exact .inl (filter_draws fun id h => hne ((hd s).1 ⟨id, h⟩))

theorem joins_once (h : (serverMachine E).Reachable o) : Joins o.state :=
  reachable_cases ⟨by simp [init, stamps], by simp [init, stamps]⟩
    (fun _ _ _ _ hw hJ hc hg => joins_step (phase hw) (ids hw) hJ hc hg) h

/-- A handler that returns starts the next read of a session that stays a member. -/
theorem rearms_step (hP : Phase w) (hM : Members w) (hcb : CallbacksReturn w e)
    (hA : ∀ s ∈ w.participants, (w.sessions s).reads ≠ []) (hc : w.Case E e ch)
    (hret : ch.returns = true) (hs : ch.session ∈ ch.participants) : ch.record.reads ≠ [] := by
  -- whoever is read from by the handshake is no member
  have hhs : ∀ {s i b}, (w.sessions s).reads[i]? = some (PendingRead.mk .handshake b) →
      s ∉ w.participants := fun hr => hM.not_mem (hP.handshake _ _ (List.mem_of_getElem? hr))
  cases hc with
  | quiet s | remove s => exact hA _ (by first | exact hs | exact (KeyedSet.mem_erase.1 hs).1)
  | accepted => simp
  | handshake rs d ms b hr | handshakeFailed b hr => exact absurd hs (hhs hr)
  | joined x ps hr _ _ _ hx => simp [hx, readOver]
  | joinFailed | joinAckCut | joinAckFault | leaveAckFault | removeFault => cases hret
  | refused | joinAck | ignored | relay | leaveAck => simp [readOver]
  | leaveCut he hc => exact absurd (he.returns hcb) hc
  | leave => exact absurd rfl (KeyedSet.mem_erase.1 hs).2

theorem armed_step (hP : Phase w) (hM : Members w) (hcb : CallbacksReturn w e)
    (hA : ∀ s ∈ w.participants, (w.sessions s).reads ≠ []) {w' : Server} (hc : w.Case E e ch)
    (hg : ch.Gives w (.ok w')) : ∀ s ∈ w'.participants, (w'.sessions s).reads ≠ [] := by
  intro s hs
  have hs : s ∈ ch.participants := hg.participants ▸ hs
  rcases eq_or_ne s ch.session with rfl | hne
  · rw [show w'.sessions ch.session = _ from sessions_self hg]
    exact rearms_step hP hM hcb hA hc (hg.returns.2 rfl) hs
  · rw [show w'.sessions s = _ from sessions_of_ne hg hne]
    refine hA s ((mem_participants_or_joins hc hs).resolve_right fun hj => hne ?_)
    exact (hP.joins hc hj).1

end Server

open Server

/-- In every run with subscribers that return, a crash at its end included, a session has at most
one read outstanding, no handshake read once it has had a room read, and has joined and drawn an id
at most once; and between handlers every member has one read outstanding. -/
theorem single_reader {E : Env} {r : List (Server × Event)} {o : Outcome Fault Server}
    (hr : (serverMachine E).Run r o) (hcb : Machine.Steps CallbacksReturn r) :
    (∀ s, (o.state.sessions s).reads.length ≤ 1)
    ∧ (∀ x ∈ r, ∀ s b, ⟨.room, b⟩ ∈ (x.1.sessions s).reads →
      ∀ b', ⟨.handshake, b'⟩ ∉ (o.state.sessions s).reads)
    ∧ (∀ s, (stamps (Act.callsJoin s) o.state.trace).length ≤ 1
      ∧ (stamps (Act.draws s) o.state.trace).length ≤ 1)
    ∧ ∀ w, o = .ok w → ∀ s ∈ w.participants, ∃ b, (w.sessions s).reads = [⟨.room, b⟩] := by
  have hP : Phase o.state := phase ⟨r, hr⟩
  have hJ : Joins o.state := joins_once ⟨r, hr⟩
  refine ⟨hP.one, fun x hx s b hroom b' hhs => ?_, fun s => ⟨hJ.joined s, hJ.drew s⟩, ?_⟩
  · obtain ⟨r₀, -, hw, -, -⟩ := hr.before hx
    refine hP.handshake s b' hhs ?_
    refine hr.later (R := fun w w' => w.Did (.joinCalled s) → w'.Did (.joinCalled s))
      (fun _ => id) (fun _ _ _ h h' => h' ∘ h) (fun w e o _ hs hd => ?_) hx
      ((phase ⟨r₀, hw⟩).room s b hroom)
    obtain ⟨ch, -, hg⟩ := step_cases (show w.step E e = some o from hs)
    exact (did_iff hg).2 (.inl hd)
  · rintro w rfl s hs
    have hM : Members w := members ⟨r, hr⟩
    have hA := hr.invariant_ok (I := fun w => ∀ s ∈ w.participants, (w.sessions s).reads ≠ [])
      (by simp [serverMachine, init]) (fun w e w' hw hA hcb hs => by
        obtain ⟨ch, hc, hg⟩ := step_cases (show w.step E e = some (.ok w') from hs)
        exact armed_step (phase hw) (members hw) hcb hA hc hg) hcb s hs
    obtain ⟨⟨loop, b⟩, hreads⟩ := List.length_eq_one_iff.1
      (le_antisymm (hP.one s) (List.length_pos_iff.2 hA))
    cases loop with
    | handshake =>
      refine absurd (hM.joined s (hM.inserted s hs)) (hP.handshake s b ?_)
      exact hreads ▸ List.mem_cons_self
    | room => exact ⟨b, hreads⟩

/-- Of two clients the first says that it leaves and stays connected. -/
def firstLeaves : List Event := joins 2 ++ [.read 0 0 leaveAckMessage.frame .plain]

theorem single_reader_left : ∃ r w, (serverMachine .counting).Run r (.ok w)
    ∧ r.map Prod.snd = firstLeaves ∧ w.participants = [1]
    ∧ (w.sessions 0).reads.length ≤ 1 ∧ ∃ b, (w.sessions 1).reads = [⟨.room, b⟩] := by
  have hrun : (((serverMachine .counting).restrict fun w e => CallbacksReturn w e).exec Server.init
      firstLeaves).any (Outcome.okAnd fun w => w.participants = [1]) = true := by
    decide +kernel
  obtain ⟨r, w, hr, hes, hw⟩ := Machine.exec_okAnd hrun
  obtain ⟨hr, hsteps⟩ := Machine.restrict_run hr
  have hps : w.participants = [1] := of_decide_eq_true hw
  have hcb : Machine.Steps CallbacksReturn r := fun x hx => of_decide_eq_true (hsteps x hx)
  obtain ⟨hone, -, -, harmed⟩ := single_reader hr hcb
  exact ⟨r, w, hr, hes, hps, hone 0, harmed w rfl 1 (by simp [hps])⟩

end XRNetwork
