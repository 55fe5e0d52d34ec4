import XRNetwork.Proofs.Told
import XRNetwork.Lib.Since

/-!
# Views

A member's view is what the frames handed to it leave it with: the ids it has been told of and not
been told the departure of since. As long as participants join as themselves, views agree with the
set: a member sees other members only, and all that have joined as it has (`view_agreement`). That
the ids drawn are distinct is not needed: the set does not hold two sessions with one id.
-/

namespace XRNetwork

namespace Server

variable {E : Env} {w w' : Server} {e : Event} {ch : Change}

/-- The ids of which the session was told, with no later word of their departure. -/
def view (w : Server) (a : ℕ) : Set UInt64 :=
  {i | Since (fun m => m.Tells .participantNew i) (fun m => ¬ m.Tells .participantLeave i)
    (w.told a)}

/-- A `PARTICIPANT_JOIN_ACK` of the session has been processed. -/
def Introduced (w : Server) (s : ℕ) : Prop := ∃ id, w.Did (.initNewParticipant s id)

/-- A `PARTICIPANT_JOIN_ACK` carries the id of the session it is read from. -/
def JoinsAsItself (w : Server) : Event → Prop
  | .read s i buf _ => (w.sessions s).reads[i]? = some ⟨.room, true⟩ →
      (receivedMessage buf).kind = some .participantJoinAck →
      (receivedMessage buf).participantId = (w.sessions s).mId
  | _ => True

/-- An introduction adds to a view, a farewell takes away. -/
theorem mem_view_step (hg : ch.Gives w (.ok w')) (hh : Hands w e ch) (a : ℕ) (i : UInt64) :
    i ∈ w'.view a ↔ w.Introduction a i e ∨ i ∈ w.view a ∧ ¬ w.Farewell a i e := by
  have htold : w'.told a = w.told a ++ handedTo a ch.acts := told_step hg a
  have hleave : (∀ m ∈ handedTo a ch.acts, ¬ m.Tells .participantLeave i) ↔
      ¬ w.Farewell a i e := by
    rw [← hh.leave a i]
    push Not
    rfl
  unfold view
  rw [Set.mem_ofPred_eq, htold, since_append, hleave, ← hh.new a i]
  refine or_congr ⟨Since.exists_mem, fun hn => ?_⟩ Iff.rfl
  -- no step is both
  have hnd := ((hh.new a i).1 hn).not_departureOf (j := i)
  exact since_of_forall (hleave.2 fun hf => hnd hf.2.2) hn

theorem Case.introduces (hc : w.Case E e ch) {s : ℕ} {id : UInt64}
    (h : .initNewParticipant s id ∈ ch.acts) :
    ∃ i buf c, e = .read s i buf c ∧ (w.sessions s).reads[i]? = some ⟨.room, true⟩
      ∧ (receivedMessage buf).kind = some .participantJoinAck
      ∧ (receivedMessage buf).participantId = id := by
  cases hc with
  | joinAckFault json l hr hk | joinAck json l hr hk =>
    simp at h
    obtain ⟨rfl, rfl⟩ := h
    exact ⟨_, _, _, rfl, hr, hk, rfl⟩
  | joined =>
    by_cases hcb : ‹Choice›.callback = .returns <;> simp [hcb] at h
  | _ => simp at h

/-- Views hold other members, belong to sessions that have been members, and of two members that
were introduced each is in the other's. -/
structure Views (w : Server) : Prop where
  others : ∀ a ∈ w.participants, ∀ i ∈ w.view a,
    ∃ b ∈ w.participants, b ≠ a ∧ (w.sessions b).mId = i
  inserted : ∀ a, ∀ i ∈ w.view a, w.Did (.inserted a)
  joined : ∀ a, w.Introduced a → w.Did (.joinCalled a)
  agree : ∀ a ∈ w.participants, ∀ b ∈ w.participants, a ≠ b → w.Introduced a → w.Introduced b →
    (w.sessions b).mId ∈ w.view a

theorem introduced_step (hg : ch.Gives w (.ok w')) {s : ℕ} :
    w'.Introduced s ↔ w.Introduced s ∨ ∃ id, .initNewParticipant s id ∈ ch.acts := by
  unfold Introduced
  have hdid := fun id => did_iff hg (a := .initNewParticipant s id)
  simp only [Outcome.state_ok] at hdid
  simp only [hdid, exists_or]

/-- The members after a step were members before it, but for one that joins. -/
theorem Hands.members (hP : Phase w) (hc : w.Case E e ch)
    (hg : ch.Gives w (.ok w')) (hh : Hands w e ch) {a : ℕ} (ha : a ∈ w'.participants) :
    (a ∈ w.participants ∧ ∀ i, w.DepartureOf i e → (w.sessions a).mId ≠ i)
      ∨ ¬ w.Did (.joinCalled a) ∧ ∀ i, ¬ w.Introduction a i e := by
  have hp' : w'.participants = ch.participants := hg.participants
  rw [hp'] at ha
  cases hh with
  | other hn hd _ hp =>
    rcases hp with hp | ⟨hj, hp⟩
    · exact .inl ⟨hp ▸ ha, fun i h => absurd h (hd i)⟩
    · rcases KeyedSet.mem_insert_imp (hp ▸ ha) with rfl | ha
      · exact .inr ⟨(hP.joins hc hj).2.2, hn _⟩
      · exact .inl ⟨ha, fun i h => absurd h (hd i)⟩
  | arrivals hd _ _ hp => exact .inl ⟨hp ▸ ha, fun i h => absurd h (hd i)⟩
  | departure p _ hd _ hp =>
    obtain ⟨ha, hne⟩ := mem_remaining.1 (hp ▸ ha)
    exact .inl ⟨ha, fun i h => (hd i).1 h ▸ hne⟩

theorem Hands.stays (hg : ch.Gives w (.ok w')) (hh : Hands w e ch) {b : ℕ}
    (hb : b ∈ w.participants) (hd : ¬ w.DepartureOf (w.sessions b).mId e) :
    b ∈ w'.participants := by
  have hp' : w'.participants = ch.participants := hg.participants
  rw [hp']
  cases hh with
  | other _ _ _ hp =>
    rcases hp with hp | ⟨-, hp⟩
    · rwa [hp]
    · rw [hp]
      exact KeyedSet.mem_insert_of_mem hb
  | arrivals _ _ _ hp => rwa [hp]
  | departure p _ hd' _ hp =>
    rw [hp]
    exact mem_remaining.2 ⟨hb, fun h => hd ((hd' _).2 h.symm)⟩

theorem views_step (hM : Members w) (hP : Phase w) (hV : Views w) (hc : w.Case E e ch)
    (hg : ch.Gives w (.ok w')) (hh : Hands w e ch) (hown : JoinsAsItself w e) : Views w' := by
  have hmId : ∀ {s}, w.Did (.joinCalled s) → (w'.sessions s).mId = (w.sessions s).mId :=
    mId_of_joined hP hc hg
  have hjoined : ∀ {s}, s ∈ w.participants → w.Did (.joinCalled s) := fun hs =>
    hM.joined _ (hM.inserted _ hs)
  have hdid : ∀ {x}, w.Did x → w'.Did x := fun h => (did_iff hg).2 (.inl h)
  refine ⟨fun a ha i hi => ?_, fun a i hi => ?_, fun a ha => ?_, fun a ha b hb hne hia hib => ?_⟩
  · rw [mem_view_step hg hh] at hi
    rcases hh.members hP hc hg ha with ⟨ha, -⟩ | ⟨hnj, hn⟩
    · -- whoever is seen now is a member, and one that has not left
      obtain ⟨b, hb, hba, rfl, hd⟩ : ∃ b ∈ w.participants, b ≠ a ∧ (w.sessions b).mId = i
          ∧ ¬ w.DepartureOf i e := by
        rcases hi with hi | ⟨hi, hf⟩
        · have hd := hi.not_departureOf (j := i)
          cases e with
          | read =>
            obtain ⟨-, -, -, hne, ⟨b, hb, rfl⟩, -⟩ := hi
            exact ⟨b, hb, fun h => hne (h ▸ rfl), rfl, hd⟩
          | _ => cases hi
        · obtain ⟨b, hb, hba, rfl⟩ := hV.others a ha i hi
          exact ⟨b, hb, hba, rfl, fun hd => hf ⟨ha, fun h => hba ((hM.mId_inj hb ha).1 h.symm), hd⟩⟩
      exact ⟨b, hh.stays hg hb hd, hba, hmId (hjoined hb)⟩
    · rcases hi with hi | ⟨hi, -⟩
      · exact absurd hi (hn i)
      · exact absurd (hM.joined _ (hV.inserted a i hi)) hnj
  · rcases (mem_view_step hg hh a i).1 hi with hi | ⟨hi, -⟩
    · cases e with
      | read => exact hdid (hM.inserted a hi.2.2.1)
      | _ => cases hi
    · exact hdid (hV.inserted a i hi)
  · rcases (introduced_step hg).1 ha with ha | ⟨id, ha⟩
    · exact hdid (hV.joined a ha)
    · obtain ⟨i, buf, c, -, hr, -⟩ := hc.introduces ha
      exact hdid (hP.room a true (List.mem_of_getElem? hr))
  · have hroom : ∀ {s i : ℕ}, (w.sessions s).reads[i]? = some ⟨.room, true⟩ → w.Did (.joinCalled s) :=
      fun hr => hP.room _ true (List.mem_of_getElem? hr)
    have hmember : ∀ {s}, s ∈ w'.participants → w'.Introduced s →
        s ∈ w.participants ∧ ∀ i, w.DepartureOf i e → (w.sessions s).mId ≠ i := by
      intro s hs hi
      refine (hh.members hP hc hg hs).resolve_right fun hn => hn.1 ?_
      rcases (introduced_step hg).1 hi with hi | ⟨id, hi⟩
      · exact hV.joined s hi
      · obtain ⟨i, buf, c, -, hr, -⟩ := hc.introduces hi
        exact hroom hr
    obtain ⟨ha, -⟩ := hmember ha hia
    obtain ⟨hb, hstay⟩ := hmember hb hib
    have hid : (w.sessions a).mId ≠ (w.sessions b).mId := fun h => hne ((hM.mId_inj ha hb).1 h)
    rw [mem_view_step hg hh, hmId (hjoined hb)]
    rcases (introduced_step hg).1 hia with hia | ⟨id, hia⟩
    · rcases (introduced_step hg).1 hib with hib | ⟨id, hib⟩
      · exact .inr ⟨hV.agree a ha b hb hne hia hib, fun hf => hstay _ hf.2.2 rfl⟩
      · obtain ⟨i, buf, c, rfl, hr, hk, -⟩ := hc.introduces hib
        exact .inl ⟨hr, hk, ha, hid, ⟨b, hb, rfl⟩, .inl (hown hr hk)⟩
    · obtain ⟨i, buf, c, rfl, hr, hk, -⟩ := hc.introduces hia
      exact .inl ⟨hr, hk, ha, hid, ⟨b, hb, rfl⟩, .inr (hown hr hk)⟩

theorem views_init : Views Server.init where
  others := by simp [init]
  inserted a i h := h.elim
  joined a h := by simp [Introduced, Did, init] at h
  agree := by simp [init]

end Server

open Server

/-- Between any two handlers of a run whose `PARTICIPANT_JOIN_ACK`s carry their own sessions' ids,
every member's view holds ids of other members only, and the ids of all that have been introduced
if it has been. -/
theorem view_agreement {E : Env} {r : List (Server × Event)} {w : Server}
    (hr : (serverMachine E).Run r (.ok w)) (hP : Machine.Steps JoinsAsItself r) :
    ∀ a ∈ w.participants,
      (∀ i ∈ w.view a, ∃ b ∈ w.participants, b ≠ a ∧ (w.sessions b).mId = i)
      ∧ ∀ b ∈ w.participants, a ≠ b → w.Introduced a → w.Introduced b →
        (w.sessions b).mId ∈ w.view a := by
  have hV : Views w := hr.invariant_ok views_init (fun w e w' hw hV hown hs => by
    obtain ⟨ch, hc, hg, hh⟩ := hands hw hs
    exact views_step (members hw) (phase hw) hV hc hg hh hown) hP
  exact fun a ha => ⟨hV.others a ha, hV.agree a ha⟩

/-- Three clients join, each as itself, and the second loses its connection. -/
def threeJoin : List Event :=
  joins 3 ++ [.read 0 0 (joinAckMessage 1).frame .plain, .read 1 0 (joinAckMessage 2).frame .plain,
    .read 2 0 (joinAckMessage 3).frame .plain, .readFailed 1 0 .plain]

/-- The first and the third then see each other, and nobody else. -/
theorem view_agreement_three : ∃ r w, (serverMachine .counting).Run r (.ok w)
    ∧ r.map Prod.snd = threeJoin ∧ w.participants = [0, 2]
    ∧ w.view 0 = {3} ∧ w.view 2 = {1} := by
  have hrun : (((serverMachine .counting).restrict fun w e =>
      match e with
      | .read s _ buf _ => (receivedMessage buf).kind = some .participantJoinAck →
          (receivedMessage buf).participantId = (w.sessions s).mId
      | _ => true).exec Server.init threeJoin).any (Outcome.okAnd fun w =>
        w.participants = [0, 2] ∧ (w.sessions 0).mId = 1 ∧ (w.sessions 2).mId = 3
          ∧ ∀ s ∈ [0, 2], w.trace.any (fun x => match x.2 with
            | .initNewParticipant t _ => s = t
            | _ => false) = true) = true := by
    decide +kernel
  obtain ⟨r, w, hr, hes, hw⟩ := Machine.exec_okAnd hrun
  obtain ⟨hr, hsteps⟩ := Machine.restrict_run hr
  obtain ⟨hps, hid0, hid2, hin⟩ := of_decide_eq_true hw
  have hown : Machine.Steps JoinsAsItself r := by
    rintro ⟨w, e⟩ hx
    have hp := hsteps _ hx
    cases e with
    | read s i buf c => exact fun _ hk => of_decide_eq_true hp hk
    | _ => trivial
  have hintro : ∀ s ∈ [0, 2], w.Introduced s := by
    intro s hs
    obtain ⟨⟨t, act⟩, hx, hact⟩ := List.any_eq_true.1 (hin s hs)
    cases act with
    | initNewParticipant s' id =>
      obtain rfl : s = s' := of_decide_eq_true hact
      exact ⟨id, t, hx⟩
    | _ => cases hact
  have hview := view_agreement hr hown
  have h0 := hview 0 (by simp [hps])
  have h2 := hview 2 (by simp [hps])
  refine ⟨r, w, hr, hes, hps, ?_, ?_⟩
  · refine Set.eq_singleton_iff_unique_mem.2 ⟨?_, fun i hi => ?_⟩
    · rw [← hid2]
      exact h0.2 2 (by simp [hps]) (by simp) (hintro 0 (by simp)) (hintro 2 (by simp))
    · obtain ⟨b, hb, hne, rfl⟩ := h0.1 i hi
      obtain rfl : b = 2 := by simpa [hps, hne] using hb
      exact hid2
  · refine Set.eq_singleton_iff_unique_mem.2 ⟨?_, fun i hi => ?_⟩
    · rw [← hid0]
      exact h2.2 0 (by simp [hps]) (by simp) (hintro 2 (by simp)) (hintro 0 (by simp))
    · obtain ⟨b, hb, hne, rfl⟩ := h2.1 i hi
      obtain rfl : b = 0 := by simpa [hps, hne] using hb
      exact hid0

end XRNetwork
