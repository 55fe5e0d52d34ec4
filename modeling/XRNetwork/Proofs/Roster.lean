import XRNetwork.Proofs.Told
import XRNetwork.Lib.Since

/-!
# The set as a register

The set is keyed by a field that `join` overwrites, and `erase` goes by the key. As long as the
`rng` never yields zero or a value twice, a session that has drawn an id shares it with no other,
joined or not (`Ids`). Then an insertion never fails, an erasure takes out the session it is called
with and no other, and the set holds the sessions that have drawn and not left since
(`roster_exact`).
-/

namespace XRNetwork

/-- The first `n` values of the room's `rng` are distinct, and none of them is the id of a session
that has not joined. -/
def Env.DistinctDraws (E : Env) (n : ℕ) : Prop :=
  ∀ i < n, E.rng i ≠ 0 ∧ ∀ j < i, E.rng j ≠ E.rng i

instance (E : Env) (n : ℕ) : Decidable (E.DistinctDraws n) := Nat.decidableBallLT _ _

theorem Env.DistinctDraws.inj {E : Env} {n i j : ℕ} (h : E.DistinctDraws n) (hi : i < n) (hj : j < n)
    (he : E.rng i = E.rng j) : i = j := by
  rcases lt_trichotomy i j with hlt | rfl | hlt
  · exact absurd he ((h j hj).2 i hlt)
  · rfl
  · exact absurd he.symm ((h i hi).2 j hlt)

theorem Env.DistinctDraws.mono {E : Env} {m n : ℕ} (h : E.DistinctDraws n) (hle : m ≤ n) :
    E.DistinctDraws m := fun i hi => h i (by omega)

namespace Server

variable {E : Env} {w : Server} {e : Event} {ch : Change} {o : Outcome Fault Server}

/-- The session's `join` has passed the capacity test. -/
def Drew (w : Server) (s : ℕ) : Prop := ∃ id, w.Did (.drew s id)

/-- It has, and since then neither `leave` nor `disconnect_participant` has removed the session. -/
def OnRoster (w : Server) (s : ℕ) : Prop :=
  Since (fun a => ∃ id, a = .drew s id) (fun a => ∀ id, a ≠ .leaveBroadcast s id)
    (w.trace.map Prod.snd)

/-- What a step does to the set: nothing; the session draws and, unless the step faults, is
inserted; or a session is removed. -/
inductive Enrols (w : Server) (E : Env) (ch : Change) : Prop
  | stays (hn : ch.drawn = w.drawn) (hp : ch.participants = w.participants)
      (hd : ∀ s id, .drew s id ∉ ch.acts) (hl : ∀ s id, .leaveBroadcast s id ∉ ch.acts)
  | draws (hn : ch.drawn = w.drawn + 1)
      (hp : ch.participants = KeyedSet.insert
          (fun p => (Function.update w.sessions ch.session ch.record p).mId.toNat) ch.session
          w.participants ∨ ch.participants = w.participants ∧ ch.returns = false)
      (hd : ∀ s, (∃ id, .drew s id ∈ ch.acts) ↔ s = ch.session)
      (hl : ∀ s id, .leaveBroadcast s id ∉ ch.acts)
  | departs (p : ℕ) (hn : ch.drawn = w.drawn) (hp : ch.participants = w.remaining p)
      (hd : ∀ s id, .drew s id ∉ ch.acts) (hl : ∀ s, (∃ id, .leaveBroadcast s id ∈ ch.acts) ↔ s = p)

theorem Case.enrols (hc : w.Case E e ch) : w.Enrols E ch := by
  cases hc with
  | joinFailed hr => exact .draws rfl (.inr ⟨rfl, rfl⟩) (by simp) (by simp)
  | joined x ps hr _ _ _ hx hps =>
    refine .draws rfl (.inl hps) (fun s => ?_) fun s id => ?_ <;>
      by_cases hcb : ‹Choice›.callback = .returns <;> simp [hcb]
  | leaveAck p =>
    refine .departs p rfl rfl (by simp) fun s => ?_
    simp
  | leave he =>
    refine .departs _ rfl rfl (by simp) fun s => ?_
    simp
  | remove p =>
    refine .departs p rfl rfl (by simp) fun s => ?_
    simp
  | _ => exact .stays rfl rfl (by simp) (by simp)

theorem drawn_le (hc : w.Case E e ch) (hg : ch.Gives w o) : w.drawn ≤ o.state.drawn := by
  rw [hg.drawn]
  rcases hc.ids with ⟨-, h⟩ | ⟨-, -, h⟩ | ⟨-, -, h⟩ <;> omega

theorem drew_step (hg : ch.Gives w o) {s : ℕ} :
    o.state.Drew s ↔ w.Drew s ∨ ∃ id, .drew s id ∈ ch.acts := by
  unfold Drew
  simp only [did_iff hg, exists_or]

/-- Who has which id: a session that has drawn one has it to itself, all others have none. -/
structure Ids (E : Env) (w : Server) : Prop where
  joined : ∀ s, w.Drew s → w.Did (.joinCalled s)
  drawn : ∀ s, w.Drew s → ∃ i < w.drawn, (w.sessions s).mId = E.rng i
  none : ∀ s, ¬ w.Drew s → (w.sessions s).mId = 0
  inj : E.DistinctDraws w.drawn → ∀ s t, w.Drew s → w.Drew t →
    (w.sessions s).mId = (w.sessions t).mId → s = t
  member : ∀ s ∈ w.participants, w.Drew s

theorem ids_init : Ids E Server.init where
  joined := by simp [Drew, Did, init]
  drawn := by simp [Drew, Did, init]
  none _ _ := rfl
  inj := by simp [Drew, Did, init]
  member := by simp [init]

/-- The session that draws has not drawn before, and has the new id now. -/
theorem Ids.draws (hP : Phase w) (hI : Ids E w) (hc : w.Case E e ch)
    (hn : ch.drawn = w.drawn + 1) : ¬ w.Drew ch.session ∧ ch.record.mId = E.rng w.drawn
      ∧ .joinCalled ch.session ∈ ch.acts := by
  rcases hc.ids with ⟨-, h⟩ | ⟨-, -, h⟩ | ⟨hj, hid, -⟩
  · omega
  · omega
  · exact ⟨fun hd => (hP.joins hc hj).2.2 (hI.joined _ hd), hid, hj⟩

theorem mId_of_not_draws (hP : Phase w) (hI : Ids E w) (hc : w.Case E e ch) (hg : ch.Gives w o)
    {s : ℕ} (hs : s ≠ ch.session ∨ ch.drawn = w.drawn) :
    (o.state.sessions s).mId = (w.sessions s).mId := by
  rcases eq_or_ne s ch.session with rfl | hne
  · rw [sessions_self hg]
    have hn := hs.resolve_left fun h => h rfl
    rcases hc.ids with ⟨h, -⟩ | ⟨h, h0, -⟩ | ⟨-, -, h⟩
    · exact h
    · rw [h0, hI.none]
      intro hd
      exact (hP.fresh _ h.ge).2 (hI.joined _ hd)
    · omega
  · rw [sessions_of_ne hg hne]

theorem ids_step (hP : Phase w) (hI : Ids E w) (hc : w.Case E e ch) (hg : ch.Gives w o) :
    Ids E o.state := by
  have hmono : ∀ {a}, w.Did a → o.state.Did a := fun h => (did_iff hg).2 (.inl h)
  -- all but the drawing case keep the ids and who has drawn
  have key : ch.drawn = w.drawn → (∀ s id, .drew s id ∉ ch.acts) →
      (∀ s ∈ ch.participants, s ∈ w.participants) → Ids E o.state := by
    intro hn hd hp
    have hdrew : ∀ s, o.state.Drew s ↔ w.Drew s := fun s => by
      rw [drew_step hg, or_iff_left]
      rintro ⟨id, h⟩
      exact hd s id h
    have hid : ∀ s, (o.state.sessions s).mId = (w.sessions s).mId := fun s =>
      mId_of_not_draws hP hI hc hg (.inr hn)
    refine ⟨fun s h => hmono (hI.joined s ((hdrew s).1 h)), ?_, ?_, ?_, fun s hs => ?_⟩
    · simpa only [hdrew, hid, hg.drawn, hn] using hI.drawn
    · simpa only [hdrew, hid] using hI.none
    · simpa only [hdrew, hid, hg.drawn, hn] using hI.inj
    · rw [hg.participants] at hs
      exact (hdrew s).2 (hI.member s (hp s hs))
  cases hc.enrols with
  | stays hn hp hd => exact key hn hd fun s hs => hp ▸ hs
  | departs p hn hp hd =>
    refine key hn hd fun s hs => ?_
    rw [hp] at hs
    exact (KeyedSet.mem_erase.1 hs).1
  | draws hn hp hd =>
    obtain ⟨hnd, hself, hj⟩ := hI.draws hP hc hn
    have hdrew : ∀ s, o.state.Drew s ↔ w.Drew s ∨ s = ch.session := fun s => by
      rw [drew_step hg, hd]
    have hself : (o.state.sessions ch.session).mId = E.rng w.drawn := by
      rw [sessions_self hg, hself]
    have hid : ∀ s, s ≠ ch.session → (o.state.sessions s).mId = (w.sessions s).mId := fun s h =>
      mId_of_not_draws hP hI hc hg (.inl h)
    have hold : ∀ s, w.Drew s → s ≠ ch.session := fun s hs h => hnd (h ▸ hs)
    refine ⟨fun s h => ?_, fun s h => ?_, fun s h => ?_, fun hE s t hs ht he => ?_, fun s hs => ?_⟩
    · rcases (hdrew s).1 h with h | rfl
      · exact hmono (hI.joined s h)
      · exact (did_iff hg).2 (.inr hj)
    · rw [hg.drawn, hn]
      rcases (hdrew s).1 h with h | rfl
      · obtain ⟨i, hi, hs⟩ := hI.drawn s h
        exact ⟨i, by omega, by rw [hid s (hold s h), hs]⟩
      · exact ⟨w.drawn, by omega, hself⟩
    · rw [hdrew, not_or] at h
      rw [hid s h.2, hI.none s h.1]
    · rw [hg.drawn, hn] at hE
      have hfresh : ∀ s, w.Drew s → (o.state.sessions s).mId ≠ E.rng w.drawn := by
        intro s hs h
        obtain ⟨i, hi, hsi⟩ := hI.drawn s hs
        rw [hid s (hold s hs), hsi] at h
        exact hi.ne (hE.inj (by omega) (by omega) h)
      rcases (hdrew s).1 hs with hs | rfl <;> rcases (hdrew t).1 ht with ht | rfl
      · rw [hid s (hold s hs), hid t (hold t ht)] at he
        exact hI.inj (hE.mono (Nat.le_succ _)) s t hs ht he
      · exact absurd (he.trans hself) (hfresh s hs)
      · exact absurd (he.symm.trans hself) (hfresh t ht)
      · rfl
    · rw [hg.participants] at hs
      rw [hdrew]
      rcases hp with hp | ⟨hp, -⟩ <;> rw [hp] at hs
      · rcases KeyedSet.mem_insert_imp hs with rfl | hs
        · exact .inr rfl
        · exact .inl (hI.member s hs)
      · exact .inl (hI.member s hs)

theorem ids (h : (serverMachine E).Reachable o) : Ids E o.state :=
  reachable_cases ids_init (fun _ _ _ _ hw hI hc hg => ids_step (phase hw) hI hc hg) h

theorem Ids.key_ne (hI : Ids E w) (hE : E.DistinctDraws w.drawn) {s t : ℕ} (hs : w.Drew s)
    (hne : t ≠ s) : w.key s ≠ w.key t := by
  intro h
  have he : (w.sessions s).mId = (w.sessions t).mId := UInt64.toNat_inj.1 h
  by_cases ht : w.Drew t
  · exact hne (hI.inj hE t s ht hs he.symm)
  · obtain ⟨i, hi, hsi⟩ := hI.drawn s hs
    rw [hI.none t ht, hsi] at he
    exact (hE i hi).1 he

theorem Ids.mem_remaining (hI : Ids E w) (hE : E.DistinctDraws w.drawn) {s p : ℕ} :
    s ∈ w.remaining p ↔ s ∈ w.participants ∧ s ≠ p := by
  rw [remaining, KeyedSet.mem_erase]
  refine and_congr_right fun hs => ⟨?_, fun hne => hI.key_ne hE (hI.member s hs) hne.symm⟩
  rintro h rfl
  exact h rfl

theorem acts_step (hg : ch.Gives w o) :
    o.state.trace.map Prod.snd = w.trace.map Prod.snd ++ ch.acts := by
  rw [hg.trace, List.map_append, List.map_map]
  exact congrArg _ (List.map_id _)

/-- A session gets on the roster when it draws an id, and off when its departure is broadcast. -/
theorem onRoster_step (hc : w.Case E e ch) (hg : ch.Gives w o) (s : ℕ) : o.state.OnRoster s ↔
    (∃ id, .drew s id ∈ ch.acts) ∨ w.OnRoster s ∧ ∀ id, .leaveBroadcast s id ∉ ch.acts := by
  have hstays : (∀ a ∈ ch.acts, ∀ id, a ≠ .leaveBroadcast s id) ↔
      ∀ id, .leaveBroadcast s id ∉ ch.acts :=
    ⟨fun h id hid => h _ hid id rfl, fun h a ha id hid => h id (hid ▸ ha)⟩
  unfold OnRoster
  rw [acts_step hg, since_append, hstays]
  refine or_congr_left ⟨fun h => ?_, ?_⟩
  · obtain ⟨_, ha, id, rfl⟩ := h.exists_mem
    exact ⟨id, ha⟩
  · rintro ⟨id, hid⟩
    refine since_of_forall (hstays.2 ?_) ⟨_, hid, id, rfl⟩
    -- no step is both
    cases hc.enrols with
    | stays _ _ hd | departs _ _ _ hd => exact absurd hid (hd s id)
    | draws _ _ _ hl => exact hl s

/-- Nobody has the new id, so the insertion takes place. -/
theorem Ids.mem_insert (hP : Phase w) (hI : Ids E w) (hI' : Ids E o.state) (hc : w.Case E e ch)
    (hg : ch.Gives w o) (hE : E.DistinctDraws o.state.drawn) (hn : ch.drawn = w.drawn + 1)
    (hp : ch.participants = KeyedSet.insert
      (fun p => (Function.update w.sessions ch.session ch.record p).mId.toNat) ch.session
      w.participants) (s : ℕ) :
    s ∈ o.state.participants ↔ s = ch.session ∨ s ∈ w.participants := by
  obtain ⟨hnd, -, -⟩ := hI.draws hP hc hn
  have hfree : ∀ p ∈ w.participants, o.state.key p ≠ o.state.key ch.session := by
    intro p hp
    have hdrew := hI.member p hp
    refine hI'.key_ne hE ?_ fun h => hnd (h ▸ hdrew)
    exact (drew_step hg).2 (.inl hdrew)
  rw [hg.participants, hp, ← hg.sessions]
  exact (KeyedSet.insert_perm hfree).mem_iff.trans List.mem_cons

theorem roster_step (hP : Phase w) (hI : Ids E w) {w' : Server} (hI' : Ids E w')
    (hc : w.Case E e ch) (hg : ch.Gives w (.ok w')) (hE : E.DistinctDraws w'.drawn)
    (hR : ∀ s, s ∈ w.participants ↔ w.OnRoster s) (s : ℕ) :
    s ∈ w'.participants ↔ w'.OnRoster s := by
  have hp' : w'.participants = ch.participants := hg.participants
  have hn' : w'.drawn = ch.drawn := hg.drawn
  have hret : ch.returns = true := hg.returns.2 rfl
  have hstep := onRoster_step hc hg s
  simp only [Outcome.state_ok] at hstep
  rw [hstep, ← hR]
  cases hc.enrols with
  | stays hn hp hd hl =>
    rw [hp', hp, or_iff_right (fun ⟨id, h⟩ => hd s id h), and_iff_left (hl s)]
  | departs p hn hp hd hl =>
    rw [hp', hp, hI.mem_remaining (hn ▸ hn' ▸ hE), or_iff_right (fun ⟨id, h⟩ => hd s id h),
      ← not_exists, hl]
  | draws hn hp hd hl =>
    rw [hd, and_iff_left (hl s)]
    have hp := hp.resolve_right fun h => by simp [h.2] at hret
    exact hI.mem_insert (o := .ok w') hP hI' hc hg hE hn hp s

theorem roster {r : List (Server × Event)} (hr : (serverMachine E).Run r (.ok w))
    (hE : E.DistinctDraws w.drawn) (s : ℕ) : s ∈ w.participants ↔ w.OnRoster s := by
  refine hr.invariant_ok (I := fun w => E.DistinctDraws w.drawn →
      ∀ s, s ∈ w.participants ↔ w.OnRoster s) (P := fun _ _ => True) ?_ ?_ (fun _ _ => trivial) hE s
  · intro _ s
    simp [serverMachine, init, OnRoster, Since]
  · intro w e w' hw hR _ hs hE
    obtain ⟨ch, hc, hg⟩ := step_cases (show w.step E e = some (.ok w') from hs)
    exact roster_step (phase hw) (ids hw) (ids (hw.step hs)) hc hg hE
      (hR (hE.mono (drawn_le hc hg)))

theorem mId_of_member {r : List (Server × Event)} (hr : (serverMachine E).Run r o)
    (h : (w, e) ∈ r) {s : ℕ} (hs : s ∈ w.participants) :
    (o.state.sessions s).mId = (w.sessions s).mId := by
  obtain ⟨r₀, -, hw, -, -⟩ := hr.before h
  have hM : Members w := members ⟨r₀, hw⟩
  have hkeep := hr.later (R := fun w w' => w.Did (.joinCalled s) → w'.Did (.joinCalled s)
    ∧ (w'.sessions s).mId = (w.sessions s).mId) (fun _ h => ⟨h, rfl⟩)
    (fun _ _ _ h h' hd =>
      let ⟨hd', he⟩ := h hd
      ⟨(h' hd').1, (h' hd').2.trans he⟩)
    (fun w e o hw hs hd => by
      obtain ⟨ch, hc, hg⟩ := step_cases (show w.step E e = some o from hs)
      exact ⟨(did_iff hg).2 (.inl hd), mId_of_joined (phase hw) hc hg hd⟩) h
  exact (hkeep (hM.joined s (hM.inserted s hs))).2

/-- The state that calls of `leave`, each with a session, leave behind. -/
def leaves (w : Server) (calls : List (Choice × ℕ)) : Server :=
  calls.foldl (fun w x => (w.leave x.1 x.2).state) w

/-- `leave` changes no id and takes out members with the session's id at most. -/
theorem leave_state (w : Server) (c : Choice) (p : ℕ) :
    (w.leave c p).state.sessions = w.sessions ∧
      ∀ q ∈ w.participants, w.key q ≠ w.key p → q ∈ (w.leave c p).state.participants := by
  unfold leave
  rcases c.callback
  · obtain ⟨sides, h⟩ := depart_eq (w.log (.signalLeave p (w.sessions p).mId)) p
    simp only [log_sessions] at h
    simp only [h, Outcome.state_ok, true_and]
    exact fun q hq hne => KeyedSet.mem_erase.2 ⟨hq, hne⟩
  · exact ⟨rfl, fun q hq _ => hq⟩
  · exact ⟨rfl, fun q hq _ => hq⟩

theorem mem_leaves {q : ℕ} : ∀ (calls : List (Choice × ℕ)) (w : Server), q ∈ w.participants →
    (∀ x ∈ calls, w.key q ≠ w.key x.2) → q ∈ (w.leaves calls).participants
  | [], _, hq, _ => hq
  | (c, p) :: calls, w, hq, h => by
    obtain ⟨hs, hp⟩ := leave_state w c p
    have hkey : (w.leave c p).state.key = w.key := by
      rw [key_def, hs, key_def]
    refine mem_leaves calls (w.leave c p).state (hp q hq (h _ List.mem_cons_self)) ?_
    rw [hkey]
    exact fun x hx => h x (List.mem_cons_of_mem _ hx)

theorem getParticipantPtr_eq_some (hM : Members w) {id : UInt64} {p : ℕ} :
    w.getParticipantPtr id = some p ↔ p ∈ w.participants ∧ (w.sessions p).mId = id := by
  refine ⟨mem_of_getParticipantPtr, ?_⟩
  rintro ⟨hp, rfl⟩
  exact hM.sorted.find_key hp

end Server

open Server

/-- In every run of distinct draws the members are in strict order of their ids; between handlers
they are the sessions whose `join` has passed the capacity test and that have not been removed
since; a member keeps its id; a lookup finds the one member with the id, if there is one; and
however often `leave` is called, and with whom, nobody else goes. -/
theorem roster_exact {E : Env} {r : List (Server × Event)} {o : Outcome Fault Server}
    (hr : (serverMachine E).Run r o) (hE : E.DistinctDraws o.state.drawn) :
    (o.state.participants.Pairwise fun p q => (o.state.sessions p).mId < (o.state.sessions q).mId)
    ∧ (∀ w, o = .ok w → ∀ s, s ∈ w.participants ↔ w.OnRoster s)
    ∧ (∀ x ∈ r, ∀ s ∈ x.1.participants, (o.state.sessions s).mId = (x.1.sessions s).mId)
    ∧ (∀ id p, o.state.getParticipantPtr id = some p ↔
      p ∈ o.state.participants ∧ (o.state.sessions p).mId = id
        ∧ ∀ q ∈ o.state.participants, (o.state.sessions q).mId = id → q = p)
    ∧ (∀ id, o.state.getParticipantPtr id = none ↔
      ∀ p ∈ o.state.participants, (o.state.sessions p).mId ≠ id)
    ∧ ∀ calls : List (Choice × ℕ), ∀ q ∈ o.state.participants, (∀ x ∈ calls, x.2 ≠ q) →
      q ∈ (o.state.leaves calls).participants := by
  have hM : Members o.state := members ⟨r, hr⟩
  have hI : Ids E o.state := ids ⟨r, hr⟩
  refine ⟨hM.sorted, ?_, fun x hx s hs => mId_of_member hr hx hs, fun id p => ?_,
    fun id => getParticipantPtr_eq_none, fun calls q hq hne => ?_⟩
  · rintro w rfl
    exact roster hr hE
  · rw [getParticipantPtr_eq_some hM]
    refine and_congr_right fun hp => (and_iff_left_of_imp ?_).symm
    rintro rfl q hq he
    exact (hM.mId_inj hq hp).1 he
  · exact mem_leaves calls _ hq fun x hx => hI.key_ne hE (hI.member q hq) (hne x hx)

/-- Of two clients the second is disconnected, then its connection ends, and a third joins. -/
def secondReplaced : List Event :=
  joins 2 ++ [.disconnectParticipant 2, .readFailed 1 0 .plain, .accept (some []) 0,
    .read 2 0 ChatClient.credentialsAck.frame .plain]

theorem roster_exact_replaced : ∃ r w, (serverMachine .counting).Run r (.ok w)
    ∧ r.map Prod.snd = secondReplaced ∧ w.participants = [0, 2]
    ∧ (∀ s, w.OnRoster s ↔ s = 0 ∨ s = 2)
    ∧ ∀ c, 0 ∈ (w.leaves [(c, 1), (c, 2), (c, 1)]).participants := by
  have hrun : ((serverMachine .counting).exec Server.init secondReplaced).any
      (Outcome.okAnd fun w => w.participants = [0, 2] ∧ w.drawn = 3) = true := by
    decide +kernel
  obtain ⟨r, w, hr, hes, hw⟩ := Machine.exec_okAnd hrun
  obtain ⟨hps, hdrawn⟩ := of_decide_eq_true hw
  have hE : Env.counting.DistinctDraws w.drawn := by
    rw [hdrawn]
    decide +kernel
  obtain ⟨-, hon, -, -, -, hleaves⟩ := roster_exact hr hE
  refine ⟨r, w, hr, hes, hps, fun s => ?_, fun c => hleaves _ 0 (by simp [hps]) (by simp)⟩
  rw [← hon w rfl s, hps]
  simp

end XRNetwork
