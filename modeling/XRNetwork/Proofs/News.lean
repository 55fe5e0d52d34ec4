import XRNetwork.News
import XRNetwork.Proofs.Roster

/-!
# The server keeps an audience

Seen by what its members are told, a run of the server is the row of its deeds (`deeds_exec`). They
are the same for all members, so members that stay are told of them in one order
(`news_in_one_order`).
-/

namespace XRNetwork

theorem XRMessage.news_eq_none {m : XRMessage} (hn : m.kind ≠ some .participantNew)
    (hl : m.kind ≠ some .participantLeave) (hu : m.kind ≠ some .participantUpdateAck) :
    m.news = none := by
  unfold news
  split <;> first | contradiction | rfl

theorem ParticipantLeave.news_toMessage (x : ParticipantLeave) :
    x.toMessage.news = some (.left x.participantId) := by
  simp [XRMessage.news]

namespace Server

variable {E : Env} {w w' : Server} {e : Event} {ch : Change} {o : Outcome Fault Server}

/-- The room, as its members see it. -/
def audience (w : Server) : Audience ℕ News where
  members := {s | s ∈ w.participants}
  inbox a := (w.told a).filterMap XRMessage.news

/-- The audience after a step, by the set and by what has been handed out. -/
theorem audience_of (hg : ch.Gives w (.ok w')) {g : Audience ℕ News}
    (hm : ∀ a, a ∈ g.members ↔ a ∈ ch.participants)
    (hi : ∀ a, g.inbox a = w.audience.inbox a ++ (handedTo a ch.acts).filterMap XRMessage.news) :
    w'.audience = g := by
  have hp : w'.participants = ch.participants := hg.participants
  refine Audience.ext (Set.ext fun a => ?_) (funext fun a => ?_)
  · rw [hm, ← hp]
    rfl
  · have ht : w'.told a = w.told a ++ handedTo a ch.acts := told_step hg a
    rw [hi]
    show (w'.told a).filterMap XRMessage.news = _
    rw [ht, List.filterMap_append]
    rfl

/-- A step that brings no news and keeps the set. -/
theorem audience_same (hg : ch.Gives w (.ok w')) (hp : ch.participants = w.participants)
    (hn : ∀ a, ∀ m ∈ handedTo a ch.acts, m.news = none) : w'.audience = w.audience := by
  refine audience_of hg (fun a => by rw [hp]; rfl) fun a => ?_
  rw [List.filterMap_eq_nil_iff.2 (hn a), List.append_nil]

theorem AnnouncesSession.news {x : XRMessage} {q : ℕ} (h : w.AnnouncesSession x q) :
    x.news = some (w.arrival q) := by
  have hx := h.1
  simp [XRMessage.news, hx.kind, hx.participantId, hx.descriptor, arrival]

theorem news_of_announces {l : List XRMessage} {qs : List ℕ}
    (h : List.Forall₂ w.AnnouncesSession l qs) :
    l.filterMap XRMessage.news = qs.map w.arrival := by
  induction h with
  | nil => rfl
  | cons h _ ih => rw [List.filterMap_cons_some h.news, ih, List.map_cons]

/-! ## What the deeds come to -/

theorem exec_farewell (hM : Members w) (p : ℕ) :
    (audienceMachine ℕ News).exec w.audience (w.farewell (w.sessions p).mId) = some (.ok
      ⟨{a | a ∈ w.remaining p}, fun a => w.audience.inbox a ++
        if a ∈ w.remaining p then [.left (w.sessions p).mId] else []⟩) := by
  have htell : ∀ g : Audience ℕ News, g.inbox = w.audience.inbox →
      (∀ a, a ∈ g.members ↔ a ∈ w.remaining p) →
      (audienceMachine ℕ News).exec g [.cast ∅ (.left (w.sessions p).mId)] = some (.ok
        ⟨{a | a ∈ w.remaining p}, fun a => w.audience.inbox a ++
          if a ∈ w.remaining p then [.left (w.sessions p).mId] else []⟩) := by
    intro g hin hg
    refine Machine.exec_singleton.2 (congrArg (some ∘ Outcome.ok) (Audience.ext (Set.ext hg) ?_))
    funext a
    by_cases ha : a ∈ w.remaining p
    · simp [Audience.tell, (hg a).2 ha, AudienceEvent.part, hin, ha]
    · have ha' : a ∉ g.members := fun h => ha ((hg a).1 h)
      simp [Audience.tell, ha', hin, ha]
  unfold farewell
  rcases hp : w.getParticipantPtr (w.sessions p).mId with _ | q
  · refine htell w.audience rfl fun a => ?_
    rw [mem_remaining]
    refine (and_iff_left_of_imp fun ha hid => ?_).symm
    have := (getParticipantPtr_eq_some hM).2 ⟨ha, hid⟩
    simp [hp] at this
  · obtain ⟨hmem, hid⟩ := mem_of_getParticipantPtr hp
    refine Machine.exec_append.2 ⟨_, Machine.exec_singleton.2 (Audience.step_leave hmem), ?_⟩
    refine htell _ rfl fun a => ?_
    rw [mem_remaining]
    refine and_congr_right fun ha => not_congr ?_
    have ha : a ∈ w.participants := ha
    rw [Set.mem_singleton_iff, ← hM.mId_inj ha hmem, hid]

theorem exec_introduction {p : ℕ} (hp : p ∈ w.participants) :
    (audienceMachine ℕ News).exec w.audience (w.introduction p) = some (.ok
      ⟨w.audience.members, fun a => w.audience.inbox a ++
        if a ∈ w.participants then
          if a = p then (w.participants.filter fun q => q ≠ p).map w.arrival else [w.arrival p]
        else []⟩) := by
  have hp' : p ∈ w.audience.members := hp
  refine Machine.exec_cons_ok.2 ⟨w.audience.tell (.cast {p} (w.arrival p)), rfl,
    Machine.exec_singleton.2 ?_⟩
  refine (Audience.step_send (g := w.audience.tell _) hp').trans
    (congrArg (some ∘ Outcome.ok) (Audience.ext rfl (funext fun a => ?_)))
  by_cases hmem : a ∈ w.participants
  · have ha : a ∈ w.audience.members := hmem
    by_cases hap : a = p <;> simp [Audience.tell, AudienceEvent.part, ha, hmem, hap, hp, hp']
  · have ha : a ∉ w.audience.members := hmem
    simp [Audience.tell, ha, hmem]

theorem handedTo_departureActs (hM : Members w) (p a : ℕ) :
    handedTo a (w.departureActs p) = if a ∈ w.remaining p then
      [(ParticipantLeave.mk (w.sessions p).mId).toMessage] else [] := by
  have hnd : (w.remaining p).Nodup := (hM.sorted.erase _).nodup
  have hskip : handedTo a (w.departureActs p) = handedTo a (handedActs (w.remaining p)
      ((w.remaining p).map fun q => (q, (ParticipantLeave.mk (w.sessions p).mId).toMessage))) := by
    simp [departureActs, handedTo, List.filterMap_append]
  rw [hskip, handedTo_handedActs, snd_of_pairs hnd]

theorem deeds_nil (hg : ch.Gives w (.ok w')) (hd : w.deeds e = [])
    (hp : ch.participants = w.participants) (hn : ∀ a, ∀ m ∈ handedTo a ch.acts, m.news = none) :
    (audienceMachine ℕ News).exec w.audience (w.deeds e) = some (.ok w'.audience) := by
  rw [hd, audience_same hg hp hn]
  rfl

/-- The departure of a session's id. -/
theorem deeds_departure (hM : Members w) (hg : ch.Gives w (.ok w')) {p : ℕ}
    (hd : w.deeds e = w.farewell (w.sessions p).mId) (hp : ch.participants = w.remaining p)
    (ha : ∀ a, handedTo a ch.acts = handedTo a (w.departureActs p)) :
    (audienceMachine ℕ News).exec w.audience (w.deeds e) = some (.ok w'.audience) := by
  rw [hd]
  refine (exec_farewell hM p).trans (congrArg (some ∘ Outcome.ok)
    (audience_of hg (fun a => by rw [hp]; rfl) fun a => ?_).symm)
  rw [ha, handedTo_departureActs hM]
  refine congrArg (w.audience.inbox a ++ ·) ?_
  split_ifs
  · simp [ParticipantLeave.news_toMessage]
  · rfl

theorem deeds_joined (hM : Members w) (hP : Phase w) (hI : Ids E w) (hI' : Ids E w')
    (hc : w.Case E e ch) (hg : ch.Gives w (.ok w')) (hE : E.DistinctDraws w'.drawn)
    (hj : .joinCalled ch.session ∈ ch.acts) (hn : ch.drawn = w.drawn + 1)
    (hps : ch.participants = KeyedSet.insert
      (fun p => (Function.update w.sessions ch.session ch.record p).mId.toNat) ch.session
      w.participants)
    (hd : w.deeds e = [.enter ch.session]) (hh : ∀ a, ∀ m ∈ handedTo a ch.acts, m.news = none) :
    (audienceMachine ℕ News).exec w.audience (w.deeds e) = some (.ok w'.audience) := by
  have hnew : ch.session ∉ w.participants := fun hs =>
    (hP.joins hc hj).2.2 (hM.joined _ (hM.inserted _ hs))
  have hp' : w'.participants = ch.participants := hg.participants
  rw [hd]
  refine Machine.exec_singleton.2 ((Audience.step_enter hnew).trans
    (congrArg (some ∘ Outcome.ok) (audience_of hg (fun a => ?_) fun a => ?_).symm))
  · rw [← hp']
    exact (hI.mem_insert (o := .ok w') hP hI' hc hg hE hn hps a).symm
  · rw [List.filterMap_eq_nil_iff.2 (hh a), List.append_nil]

theorem deeds_joinAck (hM : Members w) (hg : ch.Gives w (.ok w')) {s : ℕ} {json : Bytes} {c : Choice}
    {id : UInt64} {l : List (ℕ × XRMessage)} (hl : (w.described s json).Introduces c id l)
    (hd : ∀ p, w.getParticipantPtr id = some p → w.deeds e = (w.described s json).introduction p)
    (hp : ch.participants = w.participants)
    (hh : ∀ a, handedTo a ch.acts = handedTo a (handedActs w.participants l)) :
    (audienceMachine ℕ News).exec w.audience (w.deeds e) = some (.ok w'.audience) := by
  obtain ⟨p, x, list, hmem, hid, hx, hlist, hself, hothers, hnone⟩ :=
    hl.handedTo (hM.described s json) w.participants
  rw [hd p ((getParticipantPtr_eq_some hM).2 ⟨hmem, by rw [← hid, described_mId]⟩)]
  refine (exec_introduction (w := w.described s json) hmem).trans
    (congrArg (some ∘ Outcome.ok) (audience_of hg (fun a => by rw [hp]; rfl) fun a => ?_).symm)
  rw [hh]
  refine congrArg (w.audience.inbox a ++ ·) ?_
  by_cases ha : a ∈ w.participants
  · rw [if_pos (show a ∈ (w.described s json).participants from ha)]
    split_ifs with hap
    · rw [hap, hself, news_of_announces hlist]
    · rw [hothers a ha hap]
      simp [hx.news]
  · rw [if_neg (show a ∉ (w.described s json).participants from ha), hnone a ha]
    rfl

theorem deeds_relay (hM : Members w) (hI : Ids E w) (hE : E.DistinctDraws w.drawn)
    (hg : ch.Gives w (.ok w')) {s : ℕ} {m : XRMessage} (hk : m.kind = some .participantUpdateAck)
    (hd : w.deeds e = [.cast {s} (.update m)]) (hp : ch.participants = w.participants)
    (hh : ∀ a, handedTo a ch.acts = handedTo a (handedActs w.participants
      ((w.others (w.sessions s).mId).map fun p => (p, m)))) :
    (audienceMachine ℕ News).exec w.audience (w.deeds e) = some (.ok w'.audience) := by
  have hnd : (w.others (w.sessions s).mId).Nodup := hM.sorted.nodup.filter _
  rw [hd]
  refine Machine.exec_singleton.2
    (congrArg (some ∘ Outcome.ok) (audience_of hg (fun a => by rw [hp]; rfl) fun a => ?_).symm)
  rw [hh, handedTo_handedActs, snd_of_pairs hnd]
  -- whoever has another id is another session
  have ho : a ∈ w.others (w.sessions s).mId ↔ a ∈ w.participants ∧ a ≠ s := by
    rw [← hI.mem_remaining hE, mem_remaining, mem_others]
  by_cases ha : a ∈ w.participants
  · have ha' : a ∈ w.audience.members := ha
    by_cases has : a = s
    · rw [if_neg fun h => (ho.1 h).2 has]
      simp [Audience.tell, AudienceEvent.part, has]
    · rw [if_pos (ho.2 ⟨ha, has⟩)]
      simp [Audience.tell, ha', AudienceEvent.part, has, XRMessage.news, hk]
  · have ha' : a ∉ w.audience.members := ha
    rw [if_neg fun h => ha (ho.1 h).1]
    simp [Audience.tell, ha']

/-- What a step does is its deeds. -/
theorem Case.deeds (hM : Members w) (hP : Phase w) (hI : Ids E w) (hI' : Ids E w')
    (hc : w.Case E e ch) (hg : ch.Gives w (.ok w')) (hE : E.DistinctDraws w'.drawn) :
    (audienceMachine ℕ News).exec w.audience (w.deeds e) = some (.ok w'.audience) := by
  have hret : ch.returns = true := hg.returns.2 rfl
  have hE' : E.DistinctDraws w.drawn := hE.mono (drawn_le hc hg)
  have hc' := hc
  cases hc with
  | quiet s d b he =>
    refine deeds_nil hg ?_ rfl (by simp [mem_handedTo])
    cases e <;> first | rfl | cases he
  | accepted ip t ms b hms =>
    refine deeds_nil hg rfl rfl fun a m hm => ?_
    obtain ⟨b, hb⟩ := mem_handedTo.1 hm
    simp at hb
    exact XRMessage.news_eq_none (by simp [hms m hb.1]) (by simp [hms m hb.1])
      (by simp [hms m hb.1])
  | handshake rs d ms b hr hk hrs hms =>
    refine deeds_nil hg ?_ rfl fun a m hm => ?_
    · simp only [Server.deeds, hr, Option.map_some]
      split <;> first | rfl | contradiction
    · obtain ⟨b, hb⟩ := mem_handedTo.1 hm
      simp at hb
      exact XRMessage.news_eq_none (by simp [hms m hb.1]) (by simp [hms m hb.1])
        (by simp [hms m hb.1])
  | refused o hr hk hfull =>
    refine deeds_nil hg ?_ rfl fun a m hm => ?_
    · simp only [Server.deeds, hr, hk, Option.map_some, if_neg hfull.not_gt]
    · obtain ⟨b, hb⟩ := mem_handedTo.1 hm
      simp at hb
      obtain ⟨-, rfl, -⟩ := hb
      exact XRMessage.news_eq_none (by simp) (by simp) (by simp)
  | joinFailed | joinAckCut | joinAckFault | leaveAckFault | removeFault => cases hret
  | joined x ps hr hk hgood hroom hx hps =>
    refine deeds_joined hM hP hI hI' hc' hg hE (by simp) rfl hps ?_ fun a m hm => ?_
    · simp only [Server.deeds, hr, hk, Option.map_some, if_pos hroom]
      rfl
    · obtain ⟨b, hb⟩ := mem_handedTo.1 hm
      simp at hb
      obtain ⟨-, -, rfl, -⟩ := hb
      exact XRMessage.news_eq_none (by simp) (by simp) (by simp)
  | joinAck json l hr hk hj hl =>
    refine deeds_joinAck hM hg hl (fun p hp => ?_) rfl fun a => by simp [handedTo]
    simp only [Server.deeds, hr, hk, Option.map_some, hj, hp]
    rfl
  | ignored o hr hj hu hl =>
    refine deeds_nil hg ?_ rfl (by simp [mem_handedTo])
    simp only [Server.deeds, hr, Option.map_some]
    split <;> first | rfl | contradiction
  | @relay s i buf c hr hk =>
    refine deeds_relay hM hI hE' hg (s := s) hk ?_ rfl fun a => by simp [handedTo]
    simp only [Server.deeds, hr, hk, Option.map_some]
  | leaveAck p o hr hk hp =>
    obtain ⟨-, hid⟩ := mem_of_getParticipantPtr hp
    refine deeds_departure hM hg (p := p) ?_ rfl fun a => by simp [handedTo]
    simp only [Server.deeds, hr, hk, Option.map_some, hid]
  | handshakeFailed b hr =>
    refine deeds_nil hg ?_ rfl (by simp [mem_handedTo])
    simp only [Server.deeds, hr, Option.map_some]
  | leaveCut he hcb =>
    refine deeds_nil hg ?_ rfl (by simp [mem_handedTo])
    cases he with
    | readFailed h => simp only [Server.deeds, h, Option.map_some, if_neg hcb]
    | writeFailed => simp only [Server.deeds, if_neg hcb]
  | @leave _ s c x he hcb =>
    refine deeds_departure hM hg (p := s) ?_ rfl fun a => by simp [handedTo]
    cases he with
    | readFailed h => simp only [Server.deeds, h, Option.map_some, if_pos hcb]
    | writeFailed => simp only [Server.deeds, if_pos hcb]
  | remove p hp =>
    obtain ⟨-, hid⟩ := mem_of_getParticipantPtr hp
    refine deeds_departure hM hg (p := p) ?_ rfl fun a => rfl
    simp only [Server.deeds, hid]

/-- A run of the server is its deeds. -/
theorem deeds_exec {r : List (Server × Event)} (hr : (serverMachine E).Run r (.ok w))
    (hE : E.DistinctDraws w.drawn) :
    (audienceMachine ℕ News).exec .empty (r.flatMap fun x => x.1.deeds x.2)
      = some (.ok w.audience) := by
  generalize ho : Outcome.ok w = o at hr
  induction hr generalizing w with
  | nil =>
    cases ho
    refine congrArg (some ∘ Outcome.ok) (Audience.ext (Set.ext fun a => ?_) rfl)
    simp [Audience.empty, audience, serverMachine, Server.init]
  | snoc hr hs ih =>
    subst ho
    obtain ⟨ch, hc, hg⟩ := step_cases hs
    have hI := ids ⟨_, hr⟩
    have hI' := ids ⟨_, hr.snoc hs⟩
    have hexec := ih (hE.mono (drawn_le hc hg)) rfl
    rw [List.flatMap_append, List.flatMap_singleton]
    exact Machine.exec_append.2
      ⟨_, hexec, hc.deeds (members ⟨_, hr⟩) (phase ⟨_, hr⟩) hI hI' hg hE⟩

end Server

open Server

/-- Seen by what its members are told, every run of distinct draws is the row of the deeds of its
steps; and as long as a member stays, it is told its part of the deeds, the same for all members and
in the same order, and nothing else of arrivals, departures and updates. -/
theorem news_in_one_order {E : Env} {r : List (Server × Event)} {w : Server}
    (hr : (serverMachine E).Run r (.ok w)) (hE : E.DistinctDraws w.drawn) :
    (audienceMachine ℕ News).exec .empty (r.flatMap fun x => x.1.deeds x.2)
      = some (.ok w.audience)
    ∧ ∀ r₁ r₂ v, r = r₁ ++ r₂ → (serverMachine E).Run r₁ (.ok v) → ∀ a ∈ v.participants,
      .leave a ∉ (r₂.flatMap fun x => x.1.deeds x.2) → a ∈ w.participants
      ∧ (w.told a).filterMap XRMessage.news = (v.told a).filterMap XRMessage.news
        ++ (r₂.flatMap fun x => x.1.deeds x.2).flatMap (AudienceEvent.part a) := by
  have hexec := deeds_exec hr hE
  refine ⟨hexec, ?_⟩
  rintro r₁ r₂ v rfl hr₁ a ha hstays
  rw [List.flatMap_append] at hexec
  obtain ⟨g, hexec₁, hexec₂⟩ := Machine.exec_append.1 hexec
  have hle : v.drawn ≤ w.drawn := hr.le_of_prefix
    (R := fun v w => v.drawn ≤ w.drawn) hr₁ (fun _ => le_rfl)
    (fun _ _ _ => le_trans) fun v e o _ hs => by
      obtain ⟨ch, hc, hg⟩ := step_cases hs
      exact drawn_le hc hg
  rw [deeds_exec hr₁ (hE.mono hle)] at hexec₁
  obtain rfl : v.audience = g := by simpa using hexec₁
  exact Audience.stretch hexec₂ ha hstays

/-- Two join, the second is introduced, and the first loses its connection. -/
def secondStays : List Event :=
  joins 2 ++ [.read 1 0 (joinAckMessage 2).frame .plain, .readFailed 0 0 .plain]

theorem news_in_one_order_second : ∃ r w, (serverMachine .counting).Run r (.ok w)
    ∧ r.map Prod.snd = secondStays ∧ w.participants = [1]
    ∧ (audienceMachine ℕ News).exec .empty (r.flatMap fun x => x.1.deeds x.2)
      = some (.ok w.audience) := by
  have hrun : ((serverMachine .counting).exec Server.init secondStays).any
      (Outcome.okAnd fun w => w.participants = [1] ∧ w.drawn = 2) = true := by
    decide +kernel
  obtain ⟨r, w, hr, hes, hw⟩ := Machine.exec_okAnd hrun
  obtain ⟨hps, hdrawn⟩ := of_decide_eq_true hw
  have hE : Env.counting.DistinctDraws w.drawn := by
    rw [hdrawn]
    decide +kernel
  exact ⟨r, w, hr, hes, hps, (news_in_one_order hr hE).1⟩

end XRNetwork
