import XRNetwork.Proofs.Relay

/-!
# Who a frame speaks for

The room announces the participant whose id a `PARTICIPANT_JOIN_ACK` carries, and relays an update
with the id it carries; both are the client's to choose. So a member is announced as itself exactly
when it gives its own id, or the id of the only other member, who is then told the same
(`speaks_for_itself_iff`).
-/

namespace XRNetwork

/-- The messages handed to the session, in order. -/
def handedTo (a : ℕ) (acts : List Act) : List XRMessage :=
  acts.filterMap fun
    | .handed dst m _ => if dst = a then some m else none
    | _ => none

namespace Server

variable {E : Env} {w : Server} {e : Event} {ch : Change} {o : Outcome Fault Server}

/-- What a step has written to the trace. -/
def newActs (w : Server) (o : Outcome Fault Server) : List Act :=
  (o.state.trace.drop w.trace.length).map Prod.snd

theorem newActs_eq (hg : ch.Gives w o) : newActs w o = ch.acts := by
  rw [newActs, hg.trace, List.drop_left, List.map_map]
  exact List.map_id _

/-- A `PARTICIPANT_JOIN_ACK` from the member `s` has announced `s`, with the descriptor it sent, to
every other member, the other members to `s`, and nobody else to anybody else. -/
structure JoinAnnounced (w : Server) (s : ℕ) (m : XRMessage) (o : Outcome Fault Server) :
    Prop where
  returns : o = .ok o.state
  others : ∀ a ∈ w.participants, a ≠ s → ∃ x d, handedTo a (newActs w o) = [x]
    ∧ m.json = some d ∧ Announces x (w.sessions s).mId d
  self : List.Forall₂ (fun x q => Announces x (w.sessions q).mId (w.sessions q).mDescriptor)
    (handedTo s (newActs w o)) (w.participants.filter fun q => q ≠ s)
  nobody : ∀ a, a ∉ w.participants → handedTo a (newActs w o) = []

/-- The updates handed out carry the id of the session they come from. -/
def UpdateAttributed (w : Server) (s : ℕ) (o : Outcome Fault Server) : Prop :=
  ∀ a, ∀ x ∈ handedTo a (newActs w o), x.participantId = (w.sessions s).mId

/-- The message and the descriptors fit their buffers, and the id given is the session's own, or
that of the only other member. -/
structure JoinAckFits (w : Server) (s : ℕ) (m : XRMessage) : Prop where
  json : ∃ d, m.json = some d ∧ d.length ≤ 20480
  descriptors : ∀ q ∈ w.participants, q ≠ s → (w.sessions q).mDescriptor.length ≤ 20480
  id : m.participantId = (w.sessions s).mId ∨ ∃ p ∈ w.participants, p ≠ s
    ∧ m.participantId = (w.sessions p).mId ∧ ∀ q ∈ w.participants, q = s ∨ q = p

/-- The id given is the session's own, or there is nobody to tell. -/
def UpdateAckFits (w : Server) (s : ℕ) (m : XRMessage) : Prop :=
  m.participantId = (w.sessions s).mId ∨ ∀ q ∈ w.participants, q = s

theorem handedTo_handedActs (ps : List ℕ) (l : List (ℕ × XRMessage)) (a : ℕ) :
    handedTo a (handedActs ps l) = (l.filter fun x => x.1 = a).map Prod.snd := by
  rw [handedTo, handedActs, List.filterMap_map, ← List.filterMap_eq_map, List.filterMap_filter]
  refine List.filterMap_congr fun x _ => ?_
  by_cases h : x.1 = a <;> simp [h]

/-- The message announces the session with as much of its descriptor as its size has in 32 bits,
which fits the buffer. -/
def AnnouncesSession (w : Server) (x : XRMessage) (q : ℕ) : Prop :=
  Announces x (w.sessions q).mId
      ((w.sessions q).mDescriptor.take ((w.sessions q).mDescriptor.length % 2 ^ 32))
    ∧ (w.sessions q).mDescriptor.length % 2 ^ 32 ≤ 20480

theorem announcesSession_describe {newp x : ParticipantNew} {q : ℕ}
    (h : newp.describe (w.sessions q).mId (w.sessions q).mDescriptor = some x) :
    w.AnnouncesSession x.toMessage q :=
  ⟨announces_describe h, describe_fits h⟩

theorem AnnouncesSession.eq {x : XRMessage} {q : ℕ} (h : w.AnnouncesSession x q)
    (hlt : (w.sessions q).mDescriptor.length < 2 ^ 32) :
    Announces x (w.sessions q).mId (w.sessions q).mDescriptor := by
  have h1 := h.1
  rwa [Nat.mod_eq_of_lt hlt, List.take_length] at h1

/-- If what is announced is the whole descriptor, it fits the buffer. -/
theorem AnnouncesSession.length_le {x : XRMessage} {q : ℕ} {id : UInt64}
    (h : w.AnnouncesSession x q) (h' : Announces x id (w.sessions q).mDescriptor) :
    (w.sessions q).mDescriptor.length ≤ 20480 := by
  have heq := Option.some.inj (h.1.descriptor.symm.trans h'.descriptor)
  have hle := List.take_eq_self_iff _ |>.1 heq
  exact hle.trans h.2

theorem playerList_forall₂ (self : UInt64) : ∀ {ps : List ℕ} {newp : ParticipantNew}
    {list : List ParticipantNew}, w.playerList self newp ps = some list →
    List.Forall₂ w.AnnouncesSession (list.map ParticipantNew.toMessage)
      (ps.filter fun q => (w.sessions q).mId ≠ self)
  | [], _, list, h => by
    obtain rfl : [] = list := by simpa [playerList] using h
    exact .nil
  | p :: ps, newp, list, h => by
    rw [playerList] at h
    rw [List.filter_cons]
    by_cases hself : self = (w.sessions p).mId
    · rw [if_pos hself] at h
      rw [if_neg (by simp [hself])]
      exact playerList_forall₂ self h
    · rw [if_neg hself] at h
      rw [if_pos (by simpa using Ne.symm hself)]
      rcases hd : newp.describe (w.sessions p).mId (w.sessions p).mDescriptor with _ | x <;>
        rw [hd] at h
      · cases h
      · obtain ⟨list', hl, rfl⟩ := Option.map_eq_some_iff.1 h
        exact .cons (announcesSession_describe hd) (playerList_forall₂ self hl)

theorem playerList_isSome (self : UInt64) : ∀ {ps : List ℕ} (newp : ParticipantNew),
    (∀ q ∈ ps, (w.sessions q).mId ≠ self →
      (w.sessions q).mDescriptor.length % 2 ^ 32 ≤ 20480) →
    ∃ list, w.playerList self newp ps = some list
  | [], _, _ => ⟨[], rfl⟩
  | p :: ps, newp, h => by
    rw [playerList]
    by_cases hself : self = (w.sessions p).mId
    · rw [if_pos hself]
      exact playerList_isSome self newp fun q hq => h q (List.mem_cons_of_mem _ hq)
    · rw [if_neg hself]
      have hp := h p List.mem_cons_self (Ne.symm hself)
      rcases hd : newp.describe (w.sessions p).mId (w.sessions p).mDescriptor with _ | x
      · exact absurd (describe_eq_none.1 hd) hp.not_gt
      · obtain ⟨list, hl⟩ := playerList_isSome self x fun q hq => h q (List.mem_cons_of_mem _ hq)
        exact ⟨x :: list, by simp [hl]⟩

theorem Members.mId_inj (hM : Members w) {p q : ℕ} (hp : p ∈ w.participants)
    (hq : q ∈ w.participants) : (w.sessions p).mId = (w.sessions q).mId ↔ p = q := by
  constructor
  · intro h
    exact hM.sorted.eq_of_key_eq hp hq (congrArg UInt64.toNat h)
  · rintro rfl
    rfl

theorem Members.filter_mId (hM : Members w) {p : ℕ} (hp : p ∈ w.participants) :
    (w.participants.filter fun q => (w.sessions q).mId ≠ (w.sessions p).mId) =
      w.participants.filter fun q => q ≠ p :=
  List.filter_congr fun q hq => by simp only [ne_eq, hM.mId_inj hq hp]

theorem mem_of_getParticipantPtr {id : UInt64} {p : ℕ} (h : w.getParticipantPtr id = some p) :
    p ∈ w.participants ∧ (w.sessions p).mId = id := by
  obtain ⟨hp, hk⟩ := KeyedSet.mem_of_find h
  exact ⟨hp, UInt64.toNat_inj.1 hk⟩

/-- What a `JOIN_ACK` hands out when it returns: the participant `p` with the id given is announced
to the other members, and they to it. -/
theorem Introduces.handedTo (hM : Members w) {c : Choice} {id : UInt64}
    {l : List (ℕ × XRMessage)} (h : w.Introduces c id l) (ps : List ℕ) :
    ∃ p x list, p ∈ w.participants ∧ (w.sessions p).mId = id ∧ w.AnnouncesSession x p
      ∧ List.Forall₂ w.AnnouncesSession list (w.participants.filter fun q => q ≠ p)
      ∧ XRNetwork.handedTo p (handedActs ps l) = list
      ∧ (∀ a ∈ w.participants, a ≠ p → XRNetwork.handedTo a (handedActs ps l) = [x])
      ∧ ∀ a, a ∉ w.participants → XRNetwork.handedTo a (handedActs ps l) = [] := by
  obtain ⟨p, newp, list, hp, hd, hl, rfl⟩ := h
  obtain ⟨hmem, rfl⟩ := mem_of_getParticipantPtr hp
  have hothers : w.others (w.sessions p).mId = w.participants.filter fun q => q ≠ p :=
    hM.filter_mId hmem
  have hnd : (w.participants.filter fun q => q ≠ p).Nodup := hM.sorted.nodup.filter _
  refine ⟨p, newp.toMessage, list.map ParticipantNew.toMessage, hmem, rfl,
    announcesSession_describe hd, ?_, ?_, fun a ha hne => ?_, fun a ha => ?_⟩
  · rw [← hM.filter_mId hmem]
    exact playerList_forall₂ _ hl
  all_goals rw [handedTo_handedActs, List.filter_append, List.map_append, hothers,
    snd_of_pairs hnd, List.filter_map, List.map_map]
  · simp [Function.comp_def]
  · simp [ha, hne, hne.symm]
  · have hne : p ≠ a := fun h => ha (h ▸ hmem)
    simp [ha, hne]

theorem Members.described (hM : Members w) (s : ℕ) (json : Bytes) :
    Members (w.described s json) := by
  have hsame : (w.described s json).key = w.key := by
    funext p
    rcases eq_or_ne p s with rfl | h <;> simp [key, Server.described, setSession, *]
  exact ⟨hsame ▸ hM.sorted, hM.inserted, hM.joined⟩

theorem described_mId (s p : ℕ) (json : Bytes) :
    ((w.described s json).sessions p).mId = (w.sessions p).mId := by
  rcases eq_or_ne p s with rfl | h <;> simp [Server.described, setSession, *]

theorem described_self (s : ℕ) (json : Bytes) :
    ((w.described s json).sessions s).mDescriptor = json := by
  simp [Server.described, setSession]

theorem described_of_ne {s p : ℕ} (json : Bytes) (h : p ≠ s) :
    (w.described s json).sessions p = w.sessions p := by
  simp [Server.described, setSession, h]

theorem length_le_of_json {m : XRMessage} {d : Bytes} (h : m.json = some d) :
    d.length ≤ 65536 := by
  rw [XRMessage.json, XRMessage.copy] at h
  split_ifs at h with hlt
  obtain rfl := Option.some.inj h
  rw [List.length_take]
  omega

theorem step_joinAck {s i : ℕ} {buf : Buffer 65536} {c : Choice}
    (hr : (w.sessions s).reads[i]? = some ⟨.room, true⟩)
    (hk : (receivedMessage buf).kind = some .participantJoinAck)
    (hs : w.step E (.read s i buf c) = some o) :
    (o ≠ .ok o.state ∧ ∀ json, (receivedMessage buf).json = some json →
      ∀ l, ¬ (w.described s json).Introduces c (receivedMessage buf).participantId l)
    ∨ ∃ json l, (receivedMessage buf).json = some json ∧ o = .ok o.state
      ∧ (w.described s json).Introduces c (receivedMessage buf).participantId l
      ∧ ∀ a, handedTo a (newActs w o) = handedTo a (handedActs w.participants l) := by
  obtain ⟨ch, hc, hg⟩ := step_cases hs
  cases hc with
  | quiet _ _ _ he => cases he
  | handshake _ _ _ _ hr' | refused _ hr' | joinFailed hr' | joined _ _ hr' => simp [hr] at hr'
  | joinAckCut _ _ hj =>
    refine .inl ⟨fun h => by simpa using hg.returns.2 h, fun json hj' => ?_⟩
    simp [hj] at hj'
  | joinAckFault json l _ _ hj _ hno =>
    refine .inl ⟨fun h => by simpa using hg.returns.2 h, fun json' hj' => ?_⟩
    obtain rfl : json = json' := by simpa [hj] using hj'
    exact hno
  | joinAck json l _ _ hj hl =>
    refine .inr ⟨json, l, hj, hg.returns.1 rfl, hl, fun a => ?_⟩
    rw [newActs_eq hg]
    rfl
  | ignored _ _ hj => exact absurd hk hj
  | relay _ hk' | leaveAckFault _ hk' | leaveAck _ _ _ hk' => simp [hk] at hk'
  | leaveCut he | leave he => cases he

/-- What the step that reads a `PARTICIPANT_UPDATE_ACK` in the room loop hands out. -/
theorem step_updateAck {s i : ℕ} {buf : Buffer 65536} {c : Choice} (hM : Members w)
    (hr : (w.sessions s).reads[i]? = some ⟨.room, true⟩)
    (hk : (receivedMessage buf).kind = some .participantUpdateAck)
    (hs : w.step E (.read s i buf c) = some o) (a : ℕ) :
    handedTo a (newActs w o) =
      if a ∈ w.others (w.sessions s).mId then [receivedMessage buf] else [] := by
  have hnd : (w.others (w.sessions s).mId).Nodup := hM.sorted.nodup.filter _
  obtain ⟨ch, hc, hg⟩ := step_cases hs
  rw [newActs_eq hg]
  cases hc with
  | quiet _ _ _ he => cases he
  | handshake _ _ _ _ hr' | refused _ hr' | joinFailed hr' | joined _ _ hr' => simp [hr] at hr'
  | relay =>
    rw [← snd_of_pairs hnd, ← handedTo_handedActs w.participants]
    rfl
  | ignored _ _ _ hu => exact absurd hk hu
  | joinAckCut _ hk' | joinAckFault _ _ _ hk' | joinAck _ _ _ hk' | leaveAckFault _ hk'
  | leaveAck _ _ _ hk' => simp [hk] at hk'
  | leaveCut he | leave he => cases he

theorem exists_of_forall₂ {α β : Type*} {R S : α → β → Prop} {l : List α} {l' : List β} {b : β}
    (h : List.Forall₂ R l l') (h' : List.Forall₂ S l l') (hb : b ∈ l') :
    ∃ a ∈ l, R a b ∧ S a b := by
  induction h with
  | nil => simp at hb
  | cons hr _ ih =>
    obtain ⟨hs, h'⟩ := List.forall₂_cons.1 h'
    rcases List.mem_cons.1 hb with rfl | hb
    · exact ⟨_, List.mem_cons_self, hr, hs⟩
    · obtain ⟨a, ha, hab⟩ := ih h' hb
      exact ⟨a, List.mem_cons_of_mem _ ha, hab⟩

theorem Members.others_pair (hM : Members w) {s p : ℕ} (hp : p ∈ w.participants) (hne : p ≠ s)
    (h : ∀ q ∈ w.participants, q = s ∨ q = p) : (w.participants.filter fun q => q ≠ s) = [p] := by
  rw [← hM.sorted.filter_key hp]
  refine List.filter_congr fun q hq => ?_
  rcases h q hq with rfl | rfl
  · have hk : w.key q ≠ w.key p := fun hk => hne (hM.sorted.eq_of_key_eq hp hq hk.symm)
    simp [hk]
  · simp [hne]

theorem announces_described {s : ℕ} {json : Bytes} {x : XRMessage}
    (h : (w.described s json).AnnouncesSession x s) (hlt : json.length ≤ 65536) :
    Announces x (w.sessions s).mId json ∧ json.length ≤ 20480 := by
  have hlen := h.2
  have hx := h.eq (by rw [described_self]; omega)
  rw [described_mId, described_self] at hx
  rw [described_self] at hlen
  exact ⟨hx, by omega⟩

theorem announces_of_ne {s q : ℕ} {json : Bytes} {x : XRMessage}
    (h : (w.described s json).AnnouncesSession x q) (hne : q ≠ s) : w.AnnouncesSession x q := by
  rwa [AnnouncesSession, described_of_ne json hne] at h

theorem AnnouncesSession.announces {x : XRMessage} {q : ℕ} (h : w.AnnouncesSession x q)
    (hle : (w.sessions q).mDescriptor.length ≤ 20480) :
    Announces x (w.sessions q).mId (w.sessions q).mDescriptor :=
  h.eq (by omega)

theorem joinAnnounced_of_fits {s i : ℕ} {buf : Buffer 65536} {c : Choice} (hM : Members w)
    (hs : s ∈ w.participants) (hr : (w.sessions s).reads[i]? = some ⟨.room, true⟩)
    (hk : (receivedMessage buf).kind = some .participantJoinAck)
    (hstep : w.step E (.read s i buf c) = some o) (hfit : JoinAckFits w s (receivedMessage buf)) :
    JoinAnnounced w s (receivedMessage buf) o := by
  obtain ⟨d, hd, hlen⟩ := hfit.json
  have hM' := hM.described s d
  -- whoever is named is a member, and no descriptor is too long
  obtain ⟨p, hp, hid⟩ : ∃ p ∈ w.participants,
      (w.sessions p).mId = (receivedMessage buf).participantId := by
    rcases hfit.id with h | ⟨p, hp, -, h, -⟩
    · exact ⟨s, hs, h.symm⟩
    · exact ⟨p, hp, h.symm⟩
  have hdesc : ∀ q ∈ w.participants,
      ((w.described s d).sessions q).mDescriptor.length % 2 ^ 32 ≤ 20480 := by
    intro q hq
    refine (Nat.mod_le _ _).trans ?_
    rcases eq_or_ne q s with rfl | hne
    · rwa [described_self]
    · rw [described_of_ne d hne]
      exact hfit.descriptors q hq hne
  have hptr : (w.described s d).getParticipantPtr (receivedMessage buf).participantId = some p := by
    have hfind := hM'.sorted.find_key (show p ∈ (w.described s d).participants from hp)
    rwa [key, described_mId, hid] at hfind
  rcases step_joinAck hr hk hstep with ⟨-, hno⟩ | ⟨json, l, hj, hok, hl, hto⟩
  · exfalso
    rcases hn : (ParticipantNew.default 0 c.stackNew).describe (receivedMessage buf).participantId
        ((w.described s d).sessions p).mDescriptor with _ | newp
    · exact absurd (describe_eq_none.1 hn) (hdesc p hp).not_gt
    · obtain ⟨list, hlist⟩ := playerList_isSome (w := w.described s d)
        ((w.described s d).sessions p).mId (.default 0 c.stackList) fun q hq _ => hdesc q hq
      exact hno d hd _ ⟨p, newp, list, hptr, hn, hlist, rfl⟩
  obtain rfl : json = d := by simpa [hj] using hd
  obtain ⟨p', x, list, hp', hid', hx, hlist, hself, hothers, hnone⟩ :=
    hl.handedTo hM' w.participants
  rw [described_mId] at hid'
  obtain rfl : p' = p := (hM.mId_inj hp' hp).1 (hid'.trans hid.symm)
  have hrest : ∀ {y q}, (w.described s json).AnnouncesSession y q →
      q ∈ w.participants.filter (fun q => q ≠ s) →
      Announces y (w.sessions q).mId (w.sessions q).mDescriptor := by
    intro y q hy hq
    obtain ⟨hq, hne⟩ := List.mem_filter.1 hq
    have hne := of_decide_eq_true hne
    exact (announces_of_ne hy hne).announces (hfit.descriptors q hq hne)
  have hnobody : ∀ a, a ∉ w.participants → handedTo a (newActs w o) = [] := by
    intro a ha
    rw [hto, hnone a ha]
  rcases eq_or_ne p' s with rfl | hne
  · refine ⟨hok, fun a ha hne => ⟨x, json, ?_, hj, ?_⟩, ?_, hnobody⟩
    · rw [hto, hothers a ha hne]
    · exact (announces_described hx (length_le_of_json hj)).1
    · rw [hto, hself]
      rw [List.forall₂_iff_zip] at hlist ⊢
      exact ⟨hlist.1, fun h => hrest (hlist.2 h) (List.of_mem_zip h).2⟩
  · -- the only other member was named, and is told of `s` by the list
    have hall : ∀ q ∈ w.participants, q = s ∨ q = p' := by
      rcases hfit.id with h | ⟨q, hq, -, hqid, hall⟩
      · exact absurd ((hM.mId_inj hp hs).1 (hid.trans h)) hne
      · obtain rfl : q = p' := (hM.mId_inj hq hp).1 (hqid.symm.trans hid.symm)
        exact hall
    have hps : (w.participants.filter fun q => q ≠ p') = [s] :=
      hM.others_pair hs hne.symm fun q hq => (hall q hq).symm
    have hpp := hM.others_pair hp hne hall
    have hlist' : List.Forall₂ (w.described s json).AnnouncesSession list [s] := hps ▸ hlist
    obtain ⟨y, _, hy, hnil, rfl⟩ := List.forall₂_cons_right_iff.1 hlist'
    obtain rfl := List.forall₂_nil_right_iff.1 hnil
    refine ⟨hok, fun a ha hne' => ⟨y, json, ?_, hj, ?_⟩, ?_, hnobody⟩
    · obtain rfl : a = p' := (hall a ha).resolve_left hne'
      rw [hto, hself]
    · exact (announces_described hy (length_le_of_json hj)).1
    · rw [hto, hothers s hs hne.symm, hpp]
      refine List.Forall₂.cons (hrest hx ?_) .nil
      rw [hpp]
      exact List.mem_cons_self

theorem fits_of_joinAnnounced {s i : ℕ} {buf : Buffer 65536} {c : Choice} (hM : Members w)
    (hs : s ∈ w.participants) (hr : (w.sessions s).reads[i]? = some ⟨.room, true⟩)
    (hk : (receivedMessage buf).kind = some .participantJoinAck)
    (hstep : w.step E (.read s i buf c) = some o)
    (hann : JoinAnnounced w s (receivedMessage buf) o) : JoinAckFits w s (receivedMessage buf) := by
  rcases step_joinAck hr hk hstep with ⟨hno, -⟩ | ⟨json, l, hj, -, hl, hto⟩
  · exact absurd hann.returns hno
  obtain ⟨p, x, list, hp, hid, hx, hlist, hself, hothers, -⟩ :=
    hl.handedTo (hM.described s json) w.participants
  rw [described_mId] at hid
  rcases eq_or_ne p s with rfl | hne
  · refine ⟨⟨json, hj, (announces_described hx (length_le_of_json hj)).2⟩, fun q hq hne => ?_,
      .inl hid.symm⟩
    have hann := hann.self
    rw [hto, hself] at hann
    obtain ⟨y, -, hy, hy'⟩ := exists_of_forall₂ hlist hann (b := q)
      (List.mem_filter.2 ⟨hq, by simpa using hne⟩)
    exact (announces_of_ne hy hne).length_le hy'
  · have hall : ∀ q ∈ w.participants, q = s ∨ q = p := by
      intro q hq
      by_contra h
      push Not at h
      -- a third member is told of `p`
      obtain ⟨y, d, hy, -, hyd⟩ := hann.others q hq h.1
      rw [hto, hothers q hq h.2] at hy
      obtain rfl : x = y := List.singleton_inj.1 hy
      have hpid := (announces_of_ne hx hne).1.participantId
      exact hne ((hM.mId_inj hp hs).1 (hpid.symm.trans hyd.participantId))
    refine ⟨⟨json, hj, ?_⟩, fun q hq hqs => ?_, .inr ⟨p, hp, hne, hid.symm, hall⟩⟩
    · have hlist' : List.Forall₂ (w.described s json).AnnouncesSession list [s] :=
        (hM.others_pair hs hne.symm fun q hq => (hall q hq).symm) ▸ hlist
      obtain ⟨y, _, hy, -, -⟩ := List.forall₂_cons_right_iff.1 hlist'
      exact (announces_described hy (length_le_of_json hj)).2
    · obtain rfl : q = p := (hall q hq).resolve_left hqs
      have hann := hann.self
      rw [hto, hothers s hs hne.symm, hM.others_pair hq hne hall] at hann
      exact (announces_of_ne hx hne).length_le (List.forall₂_cons.1 hann).1

theorem updateAttributed_iff {s i : ℕ} {buf : Buffer 65536} {c : Choice} (hM : Members w)
    (hs : s ∈ w.participants) (hr : (w.sessions s).reads[i]? = some ⟨.room, true⟩)
    (hk : (receivedMessage buf).kind = some .participantUpdateAck)
    (hstep : w.step E (.read s i buf c) = some o) :
    UpdateAttributed w s o ↔ UpdateAckFits w s (receivedMessage buf) := by
  unfold UpdateAttributed UpdateAckFits
  simp only [step_updateAck hM hr hk hstep]
  constructor
  · intro h
    refine or_iff_not_imp_right.2 fun hother => ?_
    push Not at hother
    obtain ⟨q, hq, hne⟩ := hother
    refine h q _ ?_
    rw [if_pos (mem_others.2 ⟨hq, fun hid => hne ((hM.mId_inj hq hs).1 hid)⟩)]
    exact List.mem_cons_self
  · intro h a x hx
    split_ifs at hx with ha
    · obtain rfl := List.mem_singleton.1 hx
      obtain ⟨ha, hne⟩ := mem_others.1 ha
      refine h.resolve_right fun hall => hne ?_
      rw [hall a ha]
    · cases hx

end Server

open Server

/-- Whatever id a member's frame gives, the room announces the member, and relays its update, as
the member itself if and only if the frame fits. -/
theorem speaks_for_itself_iff {E : Env} {w : Server} {s i : ℕ} {buf : Buffer 65536} {c : Choice}
    {o : Outcome Fault Server} (hw : (serverMachine E).Reachable (.ok w))
    (hs : s ∈ w.participants) (hr : (w.sessions s).reads[i]? = some ⟨.room, true⟩)
    (hstep : w.step E (.read s i buf c) = some o) :
    (((receivedMessage buf).kind = some .participantJoinAck →
        JoinAnnounced w s (receivedMessage buf) o) ∧
      ((receivedMessage buf).kind = some .participantUpdateAck → UpdateAttributed w s o)) ↔
    (((receivedMessage buf).kind = some .participantJoinAck →
        JoinAckFits w s (receivedMessage buf)) ∧
      ((receivedMessage buf).kind = some .participantUpdateAck →
        UpdateAckFits w s (receivedMessage buf))) := by
  have hM : Members w := members hw
  refine and_congr (forall_congr' fun hk => ?_) (forall_congr' fun hk => ?_)
  · exact ⟨fits_of_joinAnnounced hM hs hr hk hstep, joinAnnounced_of_fits hM hs hr hk hstep⟩
  · exact updateAttributed_iff hM hs hr hk hstep

/-- A participant that gives the id when it joins, and no descriptor. -/
def joinAckMessage (id : UInt64) : XRMessage :=
  .ofPayload MessageHead.participantJoinAck.code (LittleEndian.encode 8 id.toNat) (by simp)

/-- Clients join: each is accepted and gives its credentials. -/
def joins (n : ℕ) : List Event :=
  ((List.range n).map fun _ => .accept (some []) 0)
    ++ (List.range n).map fun s => .read s 0 ChatClient.credentialsAck.frame .plain

/-- The first of three members gives its own id. -/
theorem speaks_for_itself_iff_three : ∃ w o, (serverMachine .counting).Reachable (.ok w)
    ∧ w.participants = [0, 1, 2]
    ∧ w.step .counting (.read 0 0 (joinAckMessage 1).frame .plain) = some o
    ∧ JoinAnnounced w 0 (receivedMessage (joinAckMessage 1).frame) o := by
  have hrun : ((serverMachine .counting).exec Server.init (joins 3)).any
      (Outcome.okAnd fun w => w.participants = [0, 1, 2]
        ∧ (w.sessions 0).reads = [⟨.room, true⟩] ∧ (w.sessions 0).mId = 1
        ∧ ∀ q ∈ w.participants, (w.sessions q).mDescriptor = []) = true := by
    decide +kernel
  have hkind : (receivedMessage (joinAckMessage 1).frame).kind = some .participantJoinAck := by
    decide +kernel
  have hid : (receivedMessage (joinAckMessage 1).frame).participantId = 1 := by
    decide +kernel
  have hjson : (receivedMessage (joinAckMessage 1).frame).json = some [] := by
    decide +kernel
  obtain ⟨r, w, hr, -, hw⟩ := Machine.exec_okAnd hrun
  obtain ⟨hps, hreads, hmId, hdesc⟩ := of_decide_eq_true hw
  have hread : (w.sessions 0).reads[0]? = some ⟨.room, true⟩ := by
    rw [hreads]
    rfl
  have hstep : ∃ o, w.step .counting (.read 0 0 (joinAckMessage 1).frame .plain) = some o := by
    simp only [Server.step, hread]
    exact ⟨_, rfl⟩
  obtain ⟨o, ho⟩ := hstep
  refine ⟨w, o, ⟨r, hr⟩, hps, ho, ?_⟩
  refine ((speaks_for_itself_iff ⟨r, hr⟩ (by simp [hps]) hread ho).2 ⟨fun _ => ?_, fun h => ?_⟩).1
    hkind
  · exact ⟨⟨[], hjson, by simp⟩, fun q hq _ => by simp [hdesc q hq], .inl (hid.trans hmId.symm)⟩
  · simp [hkind] at h

/-- It gives the id of the second, joining or with an update, and the third is told of the second. -/
theorem speaks_for_another : ∃ w o o', (serverMachine .counting).Reachable (.ok w)
    ∧ w.participants = [0, 1, 2] ∧ (w.sessions 0).mId = 1
    ∧ w.step .counting (.read 0 0 (joinAckMessage 2).frame .plain) = some o
    ∧ (handedTo 2 (newActs w o)).map XRMessage.participantId = [2]
    ∧ ¬ JoinAnnounced w 0 (receivedMessage (joinAckMessage 2).frame) o
    ∧ w.step .counting (.read 0 0 (ChatClient.updateAck 2 0 (.zero 12)).frame .plain) = some o'
    ∧ (handedTo 2 (newActs w o')).map XRMessage.participantId = [2]
    ∧ ¬ UpdateAttributed w 0 o' := by
  have hrun : ((serverMachine .counting).exec Server.init (joins 3)).any
      (Outcome.okAnd fun w => w.participants = [0, 1, 2] ∧ (w.sessions 0).mId = 1
        ∧ ((w.step .counting (.read 0 0 (joinAckMessage 2).frame .plain)).any fun o =>
          (handedTo 2 (newActs w o)).map XRMessage.participantId = [2]) = true
        ∧ ((w.step .counting
            (.read 0 0 (ChatClient.updateAck 2 0 (.zero 12)).frame .plain)).any fun o =>
          (handedTo 2 (newActs w o)).map XRMessage.participantId = [2]) = true) = true := by
    decide +kernel
  obtain ⟨r, w, hr, -, hw⟩ := Machine.exec_okAnd hrun
  obtain ⟨hps, hmId, ho, ho'⟩ := of_decide_eq_true hw
  obtain ⟨o, hs, hto⟩ := (Option.any_eq_true _ _).1 ho
  obtain ⟨o', hs', hto'⟩ := (Option.any_eq_true _ _).1 ho'
  have hto := of_decide_eq_true hto
  have hto' := of_decide_eq_true hto'
  refine ⟨w, o, o', ⟨r, hr⟩, hps, hmId, hs, hto, fun h => ?_, hs', hto', fun h => ?_⟩
  · obtain ⟨x, d, hx, -, hxd⟩ := h.others 2 (by simp [hps]) (by simp)
    simp [hx, hxd.participantId, hmId] at hto
  · obtain ⟨x, hx, hid⟩ := List.mem_map.1 (show (2 : UInt64) ∈ _ by rw [hto']; simp)
    have hatt := h 2 x hx
    simp [hid, hmId] at hatt

end XRNetwork
