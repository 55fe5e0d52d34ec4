import XRNetwork.Proofs.Heard
import XRNetwork.Proofs.Roster

/-!
# What becomes of a session's updates

As long as every update is read from a session that has joined and carries its id, an update is
handed on in the step that reads it and never later. So what a session is told of another's updates
is an unbroken stretch of them, from when it joins to when it leaves (`Relayed`).
-/

namespace XRNetwork

/-- The updates among the messages. -/
def updatesIn (l : List XRMessage) : List XRMessage :=
  l.filter fun m => m.kind = some .participantUpdateAck

/-- The updates among them that carry the id. -/
def updatesOf (id : UInt64) (l : List XRMessage) : List XRMessage :=
  l.filter fun m => m.Tells .participantUpdateAck id

theorem mem_updatesIn {l : List XRMessage} {m : XRMessage} :
    m ∈ updatesIn l ↔ m ∈ l ∧ m.kind = some .participantUpdateAck := by simp [updatesIn]

theorem updatesIn_append (l l' : List XRMessage) :
    updatesIn (l ++ l') = updatesIn l ++ updatesIn l' := List.filter_append ..

theorem updatesOf_append (id : UInt64) (l l' : List XRMessage) :
    updatesOf id (l ++ l') = updatesOf id l ++ updatesOf id l' := List.filter_append ..

theorem updatesOf_eq_nil {id : UInt64} {l : List XRMessage}
    (h : ∀ m ∈ updatesIn l, m.participantId ≠ id) : updatesOf id l = [] := by
  refine List.filter_eq_nil_iff.2 fun m hm ht => ?_
  obtain ⟨hk, hid⟩ : m.Tells .participantUpdateAck id := of_decide_eq_true ht
  exact h m (mem_updatesIn.2 ⟨hm, hk⟩) hid

theorem updatesOf_eq_nil_of_nil {id : UInt64} {l : List XRMessage} (h : updatesIn l = []) :
    updatesOf id l = [] :=
  updatesOf_eq_nil (by simp [h])

namespace Server

variable {E : Env} {w w' : Server} {e : Event} {ch : Change} {a b : ℕ}

/-- An update is read by the room loop of a session that was inserted, and carries its id. -/
def OwnUpdate (w : Server) (e : Event) : Prop :=
  ∀ s i buf c, e = .read s i buf c → (receivedMessage buf).kind = some .participantUpdateAck →
    (w.sessions s).reads[i]? = some ⟨.room, true⟩ ∧ w.Did (.inserted s)
      ∧ (receivedMessage buf).participantId = (w.sessions s).mId

/-- No update is read and none is handed out, or an update is read from a session and handed to the
members with other ids. -/
inductive Passes (w : Server) (ch : Change) : Prop
  | none (hh : ∀ s, updatesIn (heardFrom s ch.acts) = [])
      (ht : ∀ a, updatesIn (handedTo a ch.acts) = [])
  | update (s : ℕ) (m : XRMessage) (hk : m.kind = some .participantUpdateAck)
      (hin : w.Did (.inserted s)) (hid : m.participantId = (w.sessions s).mId)
      (hh : ∀ t, heardFrom t ch.acts = if t = s then [m] else [])
      (ht : ∀ a, handedTo a ch.acts = if a ∈ w.others (w.sessions s).mId then [m] else [])
      (hp : ch.participants = w.participants)

theorem Case.passes (hM : Members w) (hc : w.Case E e ch) (hg : ch.Gives w (.ok w'))
    (hs : w.step E e = some (.ok w')) (hown : w.OwnUpdate e) : w.Passes ch := by
  by_cases hread : ∃ s i buf c, e = .read s i buf c
      ∧ (receivedMessage buf).kind = some .participantUpdateAck
  · obtain ⟨s, i, buf, c, rfl, hk⟩ := hread
    obtain ⟨hr, hin, hid⟩ := hown s i buf c rfl hk
    refine .update s (receivedMessage buf) hk hin hid (fun t => ?_) (fun a => ?_) ?_
    · by_cases hts : t = s
      · rw [if_pos hts, hts, hc.heard_read]
      · have hne : (Event.read s i buf c).reader ≠ some t := by simpa [Event.reader] using Ne.symm hts
        rw [if_neg hts, hc.heard_of_ne hne]
    · rw [← newActs_eq hg, step_updateAck hM hr hk hs]
    · cases hc with
      | quiet _ _ _ he => cases he
      | leaveCut he | leave he => cases he
      | leaveAck _ _ _ hk' => simp [hk] at hk'
      | joined _ _ hr' => simp [hr] at hr'
      | _ => rfl
  · push Not at hread
    refine .none (fun s => ?_) fun a => ?_
    · by_cases hes : e.reader = some s
      · cases e with
        | read t i buf c =>
          obtain rfl : t = s := Option.some.inj hes
          rw [hc.heard_read]
          simp [updatesIn, hread t i buf c rfl]
        | _ => cases hes
      · rw [hc.heard_of_ne hes]
        rfl
    · refine List.filter_eq_nil_iff.2 fun m hm hk => ?_
      have hk : m.kind = some .participantUpdateAck := of_decide_eq_true hk
      obtain ⟨d, hd⟩ := mem_handedTo.1 hm
      rcases hc.updates with hno | ⟨s, i, buf, c, rfl, hacts⟩
      · exact hno a m d hd hk
      · rw [hacts] at hd
        simp at hd
        exact hread s i buf c rfl (hd.2.1 ▸ hk)

theorem Case.inserted_drew (hc : w.Case E e ch) {s : ℕ} (h : .inserted s ∈ ch.acts) :
    ∃ id, .drew s id ∈ ch.acts := by
  cases hc with
  | @joined t i buf c x ps =>
    have hst : s = t := by
      by_cases hcb : c.callback = .returns <;> simp [hcb] at h <;> exact h.2
    exact ⟨E.rng w.drawn, by simp [hst]⟩
  | _ => simp at h

theorem inserted_drew {o : Outcome Fault Server} (h : (serverMachine E).Reachable o) {s : ℕ} :
    o.state.Did (.inserted s) → o.state.Drew s := by
  refine reachable_cases (I := fun w => w.Did (.inserted s) → w.Drew s) (by simp [Did, init])
    (fun w e ch o _ hI hc hg hin => ?_) h
  rw [drew_step hg]
  exact ((did_iff hg).1 hin).imp hI hc.inserted_drew

/-- What `a` was told of updates comes from other sessions; and of those of `b` it was told none
before it joined, all that were read since as long as it is a member, and an unbroken stretch of
them in any case. -/
structure Relayed (a b : ℕ) (w : Server) : Prop where
  source : ∀ m ∈ updatesIn (w.told a), ∃ c, c ≠ a ∧ w.Did (.inserted c)
    ∧ m.participantId = (w.sessions c).mId
  before : ¬ w.Did (.inserted a) → updatesIn (w.told a) = []
  during : a ∈ w.participants → w.Did (.inserted b) →
    updatesOf (w.sessions b).mId (w.told a) <:+ updatesIn (w.heard b)
  stretch : w.Did (.inserted b) →
    updatesOf (w.sessions b).mId (w.told a) <:+: updatesIn (w.heard b)

theorem Relayed.step (h : Relayed a b w) (hne : b ≠ a) (hw : (serverMachine E).Reachable (.ok w))
    (hs : w.step E e = some (.ok w')) (hown : w.OwnUpdate e) (hE : E.DistinctDraws w'.drawn) :
    Relayed a b w' := by
  obtain ⟨ch, hc, hg⟩ := step_cases hs
  have hP : Phase w := phase hw
  have hM : Members w := members hw
  have hw' : (serverMachine E).Reachable (.ok w') := hw.step hs
  have hI' : Ids E w' := ids hw'
  have htold : w'.told a = w.told a ++ handedTo a ch.acts := told_step hg a
  have hheard : w'.heard b = w.heard b ++ heardFrom b ch.acts := heard_step hg b
  have hdid : ∀ {x}, w'.Did x ↔ w.Did x ∨ x ∈ ch.acts := did_iff hg
  have hid : ∀ {c}, w.Did (.inserted c) → (w'.sessions c).mId = (w.sessions c).mId := fun hin =>
    mId_of_joined hP hc hg (hM.joined _ hin)
  have hinj : ∀ {c d}, w'.Did (.inserted c) → w'.Did (.inserted d) →
      (w'.sessions c).mId = (w'.sessions d).mId → c = d := fun hc hd =>
    hI'.inj hE _ _ (inserted_drew hw' hc) (inserted_drew hw' hd)
  have hpass := hc.passes hM hg hs hown
  have hsource : ∀ m ∈ updatesIn (w'.told a), ∃ c, c ≠ a ∧ w.Did (.inserted c)
      ∧ m.participantId = (w'.sessions c).mId := by
    intro m hm
    rw [htold, updatesIn_append] at hm
    rcases List.mem_append.1 hm with hm | hm
    · obtain ⟨c, hca, hin, hpid⟩ := h.source m hm
      exact ⟨c, hca, hin, hpid.trans (hid hin).symm⟩
    · cases hpass with
      | none _ ht => simp [ht a] at hm
      | update s x hk hin hxid _ ht =>
        rw [ht a] at hm
        split_ifs at hm with hother
        · obtain rfl : m = x := by simpa using (mem_updatesIn.1 hm).1
          refine ⟨s, ?_, hin, hxid.trans (hid hin).symm⟩
          rintro rfl
          exact (mem_others.1 hother).2 rfl
        · simp [updatesIn] at hm
  have hnew : ¬ w.Did (.inserted b) → w'.Did (.inserted b) →
      updatesOf (w'.sessions b).mId (w'.told a) = [] := by
    intro hno hin
    refine updatesOf_eq_nil fun m hm heq => ?_
    obtain ⟨c, -, hc, hpid⟩ := hsource m hm
    exact hno (hinj (hdid.2 (.inl hc)) hin (hpid.symm.trans heq) ▸ hc)
  -- `b`'s updates grow by what `a` is told of them, or misses because it is no member
  have hgrow : w.Did (.inserted b) → ∃ x, updatesIn (w'.heard b) = updatesIn (w.heard b) ++ x
      ∧ updatesOf (w'.sessions b).mId (w'.told a) = updatesOf (w.sessions b).mId (w.told a)
        ++ if a ∈ w.participants then x else [] := by
    intro hin
    rw [htold, hheard, updatesIn_append, updatesOf_append, hid hin]
    cases hpass with
    | none hh ht => exact ⟨[], by rw [hh b], by rw [updatesOf_eq_nil_of_nil (ht a), ite_self]⟩
    | update s m hk hins hmid hh ht =>
      rw [hh b, ht a]
      by_cases hbs : b = s
      · subst hbs
        have hiff : a ∈ w.others (w.sessions b).mId ↔ a ∈ w.participants := by
          refine ⟨fun h => (mem_others.1 h).1, fun hmem => mem_others.2 ⟨hmem, fun heq => hne ?_⟩⟩
          have hina := hM.inserted a hmem
          refine (hinj (hdid.2 (.inl hina)) (hdid.2 (.inl hin)) ?_).symm
          rw [hid hina, hid hin, heq]
        refine ⟨[m], by rw [if_pos rfl]; simp [updatesIn, hk], ?_⟩
        simp only [hiff]
        split_ifs
        · simp [updatesOf, XRMessage.Tells, hk, hmid]
        · rfl
      · refine ⟨[], by rw [if_neg hbs]; rfl, ?_⟩
        rw [ite_self]
        have hother : m.participantId ≠ (w.sessions b).mId := by
          intro heq
          refine hbs (hinj (hdid.2 (.inl hin)) (hdid.2 (.inl hins)) ?_)
          rw [hid hin, hid hins, ← hmid, heq]
        split_ifs
        · simp [updatesOf, XRMessage.Tells, hother]
        · rfl
  refine ⟨fun m hm => ?_, fun hno => ?_, fun hmem hin => ?_, fun hin => ?_⟩
  · obtain ⟨c, hca, hins, hpid⟩ := hsource m hm
    exact ⟨c, hca, hdid.2 (.inl hins), hpid⟩
  · have hno' : ¬ w.Did (.inserted a) := fun h => hno (hdid.2 (.inl h))
    rw [htold, updatesIn_append, h.before hno', List.nil_append]
    cases hpass with
    | none _ ht => exact ht a
    | update s m _ _ _ _ ht =>
      rw [ht a, if_neg fun hother => hno' (hM.inserted a (mem_others.1 hother).1)]
      rfl
  all_goals by_cases hin' : w.Did (.inserted b)
  · obtain ⟨x, hx, hT⟩ := hgrow hin'
    rw [hx, hT]
    by_cases hold : a ∈ w.participants
    · obtain ⟨t, ht⟩ := h.during hold hin'
      rw [if_pos hold]
      exact ⟨t, by rw [← ht, List.append_assoc]⟩
    · -- it joins in this step, for the first time
      have hjoins := (mem_participants_or_joins hc (hg.participants ▸ hmem)).resolve_left hold
      have hno : ¬ w.Did (.inserted a) := fun hin => (hP.joins hc hjoins).2.2 (hM.joined a hin)
      rw [if_neg hold, List.append_nil, updatesOf_eq_nil_of_nil (h.before hno)]
      exact List.nil_suffix
  · rw [hnew hin' hin]
    exact List.nil_suffix
  · obtain ⟨x, hx, hT⟩ := hgrow hin'
    rw [hx, hT]
    by_cases hold : a ∈ w.participants
    · obtain ⟨t, ht⟩ := h.during hold hin'
      rw [if_pos hold]
      exact ⟨t, [], by rw [← ht, List.append_nil, List.append_assoc]⟩
    · rw [if_neg hold, List.append_nil]
      exact (h.stretch hin').trans (List.prefix_append _ _).isInfix
  · rw [hnew hin' hin]
    exact List.nil_infix

theorem relayed_init (a b : ℕ) : Relayed a b Server.init where
  source := by simp [told, init, handedTo, updatesIn]
  before := fun _ => rfl
  during := by simp [init]
  stretch := by simp [Did, init]

end Server

end XRNetwork
