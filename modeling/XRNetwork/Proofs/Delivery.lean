import XRNetwork.Proofs.Descriptors

/-!
# How a descriptor gets to the others

A member that describes itself is announced with its descriptor to every other member before
anything can go wrong. A member that joins later is told of it from what the room has stored, and
with it of everybody else; the list is made before any of it is sent, so that one descriptor too
long for the announcement, or the newcomer's own, keeps all of them from it
(`descriptor_delivery_iff`).
-/

namespace XRNetwork

open LittleEndian

/-- The message decodes to a `PARTICIPANT_NEW` with this id, these descriptor bytes and their
number. -/
structure DecodesNew (x : XRMessage) (id : UInt64) (d : Bytes) : Prop where
  announces : Announces x id d
  descriptorBuffersize : field 8 4 x.payload = d.length

theorem Announces.decodes {x : XRMessage} {id : UInt64} {d : Bytes} (h : Announces x id d) :
    DecodesNew x id d := by
  -- the two structs have their size and buffer in the same place
  have hd : Inbound.participantJoinAck.copied x = some d := h.descriptor
  exact ⟨h, (Inbound.length_copied hd).symm⟩

namespace Server

variable {E : Env} {w : Server} {e : Event} {ch : Change} {o : Outcome Fault Server}
  {r : List (Server × Event)} {s i t j : ℕ} {buf : Buffer 65536} {c : Choice} {d : Bytes}

/-- The room loop of the session reads a `PARTICIPANT_JOIN_ACK`. -/
def JoinAckBy (w : Server) (s : ℕ) : Event → Prop
  | .read t i buf _ => t = s ∧ (w.sessions s).reads[i]? = some ⟨.room, true⟩
      ∧ (receivedMessage buf).kind = some .participantJoinAck
  | _ => False

/-- The member's own `PARTICIPANT_JOIN_ACK` arrives, with the descriptor `d`. -/
structure Describes (w : Server) (s i : ℕ) (buf : Buffer 65536) (d : Bytes) : Prop where
  member : s ∈ w.participants
  read : (w.sessions s).reads[i]? = some ⟨.room, true⟩
  kind : (receivedMessage buf).kind = some .participantJoinAck
  id : (receivedMessage buf).participantId = (w.sessions s).mId
  json : (receivedMessage buf).json = some d
  fits : d.length ≤ 20480

/-- Every other member has been handed the descriptor. -/
def ToOthers (w : Server) (s : ℕ) (d : Bytes) (o : Outcome Fault Server) : Prop :=
  ∀ a ∈ w.participants, a ≠ s → ∃ x ∈ handedTo a (newActs w o), DecodesNew x (w.sessions s).mId d

/-- The session stays a member through these steps and does not describe itself again. -/
def Stays (s : ℕ) (r : List (Server × Event)) (w : Server) : Prop :=
  s ∈ w.participants ∧ ∀ x ∈ r, s ∈ x.1.participants ∧ ¬ x.1.JoinAckBy s x.2

/-- The newcomer names the session; or it names itself, and neither its own descriptor nor any
third member's is longer than the announcement's buffer. -/
def ListFits (w : Server) (s t : ℕ) (buf : Buffer 65536) : Prop :=
  ∃ d, (receivedMessage buf).json = some d
    ∧ ((receivedMessage buf).participantId = (w.sessions s).mId
      ∨ (receivedMessage buf).participantId = (w.sessions t).mId ∧ d.length ≤ 20480
        ∧ ∀ q ∈ w.participants, q ≠ s → q ≠ t →
          (w.sessions q).mDescriptor.length % 2 ^ 32 ≤ 20480)

theorem introduces_of_fits {id : UInt64} {p : ℕ} (hp : w.getParticipantPtr id = some p)
    (h : ∀ q ∈ w.participants, (w.sessions q).mDescriptor.length % 2 ^ 32 ≤ 20480) :
    ∃ l, w.Introduces c id l := by
  obtain ⟨hmem, -⟩ := mem_of_getParticipantPtr hp
  rcases hn : (ParticipantNew.default 0 c.stackNew).describe id (w.sessions p).mDescriptor
    with _ | newp
  · exact absurd (describe_eq_none.1 hn) (h p hmem).not_gt
  · obtain ⟨list, hlist⟩ := playerList_isSome (w := w) (w.sessions p).mId (.default 0 c.stackList)
      fun q hq _ => h q hq
    exact ⟨_, p, newp, list, hp, hn, hlist, rfl⟩

theorem Introduces.fits (hM : Members w) {id : UInt64} {l : List (ℕ × XRMessage)}
    (h : w.Introduces c id l) :
    ∀ q ∈ w.participants, (w.sessions q).mDescriptor.length % 2 ^ 32 ≤ 20480 := by
  intro q hq
  obtain ⟨p, newp, list, hp, hd, hl, -⟩ := h
  obtain ⟨hmem, -⟩ := mem_of_getParticipantPtr hp
  rcases eq_or_ne q p with rfl | hne
  · exact describe_fits hd
  · have hlist := playerList_forall₂ _ hl
    rw [hM.filter_mId hmem] at hlist
    obtain ⟨x, -, hx, -⟩ := exists_of_forall₂ hlist hlist (b := q)
      (List.mem_filter.2 ⟨hq, by simpa using hne⟩)
    exact hx.2

/-- What a `PARTICIPANT_JOIN_ACK` hands out, whether it returns or not. -/
def Hand (w : Server) (c : Choice) (id : UInt64) (l : List (ℕ × XRMessage)) : Prop :=
  w.Introduces c id l ∨ (∀ l, ¬ w.Introduces c id l) ∧ l = w.announcements c id

/-- One frame about `p` tells a member of `q` if `q` is `p`. -/
theorem AnnouncesSession.iff_eq (hM : Members w) {x : XRMessage} {p q : ℕ}
    (hx : w.AnnouncesSession x p) (hp : p ∈ w.participants) (hq : q ∈ w.participants) :
    w.AnnouncesSession x q ↔ p = q := by
  constructor
  · intro h
    exact (hM.mId_inj hp hq).1 (hx.1.participantId.symm.trans h.1.participantId)
  · rintro rfl
    exact hx

/-- Of two members, one is told of the other when the other is named and its descriptor fits, or
when it is named itself and all descriptors fit. -/
theorem Hand.told_iff (hM : Members w) {id : UInt64} {l : List (ℕ × XRMessage)}
    (h : w.Hand c id l) {a q : ℕ} (ha : a ∈ w.participants) (hq : q ∈ w.participants)
    (hne : q ≠ a) (ps : List ℕ) :
    (∃ x ∈ XRNetwork.handedTo a (handedActs ps l), w.AnnouncesSession x q) ↔
      id = (w.sessions q).mId ∧ (w.sessions q).mDescriptor.length % 2 ^ 32 ≤ 20480
      ∨ id = (w.sessions a).mId
        ∧ ∀ p ∈ w.participants, (w.sessions p).mDescriptor.length % 2 ^ 32 ≤ 20480 := by
  rcases h with hl | ⟨hno, rfl⟩
  · have hfits := hl.fits hM
    obtain ⟨p, x, list, hp, rfl, hx, hlist, hself, hothers, -⟩ := hl.handedTo hM ps
    simp only [hM.mId_inj hp hq, hM.mId_inj hp ha, hfits q hq, and_true]
    rcases eq_or_ne a p with rfl | hap
    · -- the one named is told of all the others
      obtain ⟨y, hy, hyq, -⟩ := exists_of_forall₂ hlist hlist (b := q)
        (List.mem_filter.2 ⟨hq, by simpa using hne⟩)
      exact iff_of_true ⟨y, hself ▸ hy, hyq⟩ (.inr ⟨rfl, hfits⟩)
    · rw [hothers a ha hap]
      simp only [List.mem_singleton, exists_eq_left, hap.symm, false_and, or_false]
      exact hx.iff_eq hM hp hq
  · rcases hptr : w.getParticipantPtr id with _ | p
    · have hnone := getParticipantPtr_eq_none.1 hptr
      simp [announcements, hptr, handedTo, (hnone q hq).symm, (hnone a ha).symm]
    obtain ⟨hp, rfl⟩ := mem_of_getParticipantPtr hptr
    -- the list cannot be made, since some descriptor does not fit
    have hcut : ¬ ∀ p ∈ w.participants, (w.sessions p).mDescriptor.length % 2 ^ 32 ≤ 20480 := by
      intro h
      obtain ⟨l, hl⟩ := introduces_of_fits (c := c) hptr h
      exact hno l hl
    simp only [hcut, and_false, or_false, hM.mId_inj hp hq]
    unfold announcements
    simp only [hptr]
    rcases hn : (ParticipantNew.default 0 c.stackNew).describe (w.sessions p).mId
        (w.sessions p).mDescriptor with _ | newp
    · have hlong := describe_eq_none.1 hn
      simp only [handedActs_nil]
      refine iff_of_false (by simp [XRNetwork.handedTo]) ?_
      rintro ⟨rfl, hle⟩
      omega
    · have hothers : (w.others (w.sessions p).mId).Nodup := hM.sorted.nodup.filter _
      simp only [handedTo_handedActs, snd_of_pairs hothers]
      have hmem : a ∈ w.others (w.sessions p).mId ↔ a ≠ p := by
        rw [mem_others, Ne, hM.mId_inj ha hp, and_iff_right ha]
      rcases eq_or_ne a p with rfl | hap
      · rw [if_neg fun h => hmem.1 h rfl]
        refine iff_of_false (by simp) ?_
        rintro ⟨h, -⟩
        exact hne h.symm
      · rw [if_pos (hmem.2 hap)]
        simp only [List.mem_singleton, exists_eq_left,
          (announcesSession_describe hn).iff_eq hM hp hq]
        refine ⟨?_, fun h => h.1⟩
        rintro rfl
        exact ⟨rfl, describe_fits hn⟩

theorem joinAck_hands (hr : (w.sessions s).reads[i]? = some ⟨.room, true⟩)
    (hk : (receivedMessage buf).kind = some .participantJoinAck)
    (hs : w.step E (.read s i buf c) = some o) :
    ((receivedMessage buf).json = none ∧ ∀ a, handedTo a (newActs w o) = [])
    ∨ ∃ json l, (receivedMessage buf).json = some json
      ∧ (w.described s json).Hand c (receivedMessage buf).participantId l
      ∧ ∀ a, handedTo a (newActs w o) = handedTo a (handedActs w.participants l) := by
  obtain ⟨ch, hc, hg⟩ := step_cases hs
  rw [newActs_eq hg]
  cases hc with
  | quiet _ _ _ he => cases he
  | handshake _ _ _ _ hr' | refused _ hr' | joinFailed hr' | joined _ _ hr' => simp [hr] at hr'
  | joinAckCut _ _ hj => exact .inl ⟨hj, fun a => rfl⟩
  | joinAckFault json l _ _ hj _ hno hto => exact .inr ⟨json, l, hj, .inr ⟨hno, hto⟩, fun a => rfl⟩
  | joinAck json l _ _ hj hl => exact .inr ⟨json, l, hj, .inl hl, fun a => rfl⟩
  | ignored _ _ hj => exact absurd hk hj
  | relay _ hk' | leaveAckFault _ hk' | leaveAck _ _ _ hk' => simp [hk] at hk'
  | leaveCut he | leave he => cases he

theorem decodesNew_iff {x : XRMessage} (hle : (w.sessions s).mDescriptor.length ≤ 20480) :
    DecodesNew x (w.sessions s).mId (w.sessions s).mDescriptor ↔ w.AnnouncesSession x s := by
  refine ⟨fun h => ⟨?_, (Nat.mod_le _ _).trans hle⟩, fun h => (h.announces hle).decodes⟩
  rw [Nat.mod_eq_of_lt (by omega), List.take_length]
  exact h.announces

theorem toOthers (hM : Members w) (h : Describes w s i buf d)
    (hs : w.step E (.read s i buf c) = some o) : ToOthers w s d o := by
  intro a ha hne
  rcases joinAck_hands h.read h.kind hs with ⟨hj, -⟩ | ⟨json, l, hj, hl, hto⟩
  · simp [h.json] at hj
  obtain rfl : json = d := Option.some.inj (hj.symm.trans h.json)
  rw [hto]
  have htold := (hl.told_iff (hM.described s json) (a := a) (q := s) ha h.member hne.symm
    w.participants).2 (.inl ⟨by rw [described_mId, h.id], ?_⟩)
  · obtain ⟨x, hx, hax⟩ := htold
    have hd := (decodesNew_iff (w := w.described s json) (by rw [described_self]; exact h.fits)).2 hax
    rw [described_self, described_mId] at hd
    exact ⟨x, hx, hd⟩
  · rw [described_self]
    exact (Nat.mod_le _ _).trans h.fits

/-- A newcomer is told of a member with a descriptor that fits exactly when the list does. -/
theorem newcomer_iff (hM : Members w) (hs : s ∈ w.participants) (ht : t ∈ w.participants)
    (hne : t ≠ s) (hle : (w.sessions s).mDescriptor.length ≤ 20480)
    (hr : (w.sessions t).reads[j]? = some ⟨.room, true⟩)
    (hk : (receivedMessage buf).kind = some .participantJoinAck)
    (hstep : w.step E (.read t j buf c) = some o) :
    (∃ x ∈ handedTo t (newActs w o), DecodesNew x (w.sessions s).mId (w.sessions s).mDescriptor)
      ↔ ListFits w s t buf := by
  simp only [decodesNew_iff hle]
  rcases joinAck_hands hr hk hstep with ⟨hj, hnone⟩ | ⟨json, l, hj, hl, hto⟩
  · refine iff_of_false (by simp [hnone]) ?_
    rintro ⟨d, hd, -⟩
    simp [hj] at hd
  have hsame : ∀ {x}, w.AnnouncesSession x s ↔ (w.described t json).AnnouncesSession x s := by
    intro x
    rw [AnnouncesSession, AnnouncesSession, described_of_ne json hne.symm]
  have htold := hl.told_iff (hM.described t json) (a := t) (q := s) ht hs hne.symm w.participants
  have hlen := length_le_of_json hj
  simp only [hto, hsame, htold, ListFits, hj, Option.some.injEq, exists_eq_left', described_mId]
  refine or_congr ?_ (and_congr_right fun _ => ⟨fun h => ⟨?_, fun q hq _ hqt => ?_⟩, ?_⟩)
  · rw [described_of_ne json hne.symm]
    exact and_iff_left ((Nat.mod_le _ _).trans hle)
  · have ht' := h t ht
    rw [described_self] at ht'
    omega
  · have hq' := h q hq
    rwa [described_of_ne json hqt] at hq'
  · rintro ⟨hd, hothers⟩ q hq
    rcases eq_or_ne q t with rfl | hqt
    · rw [described_self]
      omega
    rw [described_of_ne json hqt]
    rcases eq_or_ne q s with rfl | hqs
    · exact (Nat.mod_le _ _).trans hle
    · exact hothers q hq hqs hqt

theorem kept_step (hP : Phase w) (hM : Members w) (hs : s ∈ w.participants)
    (hno : ¬ w.JoinAckBy s e) (hc : w.Case E e ch) (hg : ch.Gives w o) :
    (o.state.sessions s).mId = (w.sessions s).mId
    ∧ (o.state.sessions s).mDescriptor = (w.sessions s).mDescriptor := by
  have hjoined : w.Did (.joinCalled s) := hM.joined s (hM.inserted s hs)
  refine ⟨mId_of_joined hP hc hg hjoined, ?_⟩
  rcases eq_or_ne s ch.session with rfl | hne
  · rw [sessions_self hg]
    cases hc with
    | accepted => exact absurd hjoined (hP.fresh _ le_rfl).2
    | handshake _ _ _ _ hr => exact absurd hjoined (hP.handshake _ _ (List.mem_of_getElem? hr))
    | joinAckFault _ _ hr hk | joinAck _ _ hr hk => exact absurd ⟨rfl, hr, hk⟩ hno
    | joined _ _ _ _ _ _ hx => rw [hx]; rfl
    | leaveCut he | leave he => cases he <;> rfl
    | _ => rfl
  · rw [sessions_of_ne hg hne]

theorem kept_run {w' : Server} {r' : List (Server × Event)}
    (hr : (serverMachine E).Run (r ++ (w, e) :: r') (.ok w')) (hst : Stays s r' w') :
    ∃ w₁, (serverMachine E).Run r (.ok w) ∧ w.step E e = some (.ok w₁)
      ∧ (w'.sessions s).mId = (w₁.sessions s).mId
      ∧ (w'.sessions s).mDescriptor = (w₁.sessions s).mDescriptor := by
  induction r' using List.reverseRecOn generalizing w' with
  | nil =>
    obtain ⟨hr, hs⟩ := Machine.run_snoc.1 hr
    exact ⟨w', hr, hs, rfl, rfl⟩
  | append_singleton r' x ih =>
    obtain ⟨w₂, e₂⟩ := x
    rw [← List.cons_append, ← List.append_assoc] at hr
    obtain ⟨hr, hs⟩ := Machine.run_snoc.1 hr
    have hlast := hst.2 (w₂, e₂) (by simp)
    obtain ⟨w₁, hr₀, hs₀, hid, hd⟩ := ih hr ⟨hlast.1, fun x hx => hst.2 x (by simp [hx])⟩
    obtain ⟨ch, hc, hg⟩ := step_cases hs
    have hkept := kept_step (phase ⟨_, hr⟩) (members ⟨_, hr⟩) hlast.1 hlast.2 hc hg
    exact ⟨w₁, hr₀, hs₀, hkept.1.trans hid, hkept.2.trans hd⟩

theorem describes_stores (hP : Phase w) (h : Describes w s i buf d) {w₁ : Server}
    (hs : w.step E (.read s i buf c) = some (.ok w₁)) :
    (w₁.sessions s).mId = (w.sessions s).mId ∧ (w₁.sessions s).mDescriptor = d := by
  constructor
  · obtain ⟨ch, hc, hg⟩ := step_cases hs
    exact mId_of_joined hP hc hg (hP.room s true (List.mem_of_getElem? h.read))
  · have hd := Inbound.onRead_participantJoinAck (E := E) (c := c) (s := s)
      (w := w.tick.dropRead s i) h.kind h.json
    simp only [step, h.read] at hs
    rwa [Option.some.inj hs] at hd

end Server

open Server

/-- A member's descriptor is announced to all other members when it sends it. For as long as it
stays and sends no other, a member that sends a `PARTICIPANT_JOIN_ACK` is handed the descriptor if
and only if the list it asks for fits. -/
theorem descriptor_delivery_iff {E : Env} {r : List (Server × Event)} {w : Server} {s i : ℕ}
    {buf : Buffer 65536} {c : Choice} {d : Bytes} (hr : (serverMachine E).Run r (.ok w))
    (h : Describes w s i buf d) :
    (∀ o, w.step E (.read s i buf c) = some o → ToOthers w s d o)
    ∧ ∀ r' w' t j buf' c' o, (serverMachine E).Run (r ++ (w, .read s i buf c) :: r') (.ok w') →
      Stays s r' w' → t ∈ w'.participants → t ≠ s → w'.JoinAckBy t (.read t j buf' c') →
      w'.step E (.read t j buf' c') = some o →
      ((∃ x ∈ handedTo t (newActs w' o), DecodesNew x (w.sessions s).mId d)
        ↔ ListFits w' s t buf') := by
  have hP : Phase w := phase ⟨r, hr⟩
  refine ⟨fun o hs => toOthers (members ⟨r, hr⟩) h hs, ?_⟩
  intro r' w' t j buf' c' o hr' hst ht hne hjoin hs
  obtain ⟨w₁, -, hs₁, hid, hd⟩ := kept_run hr' hst
  obtain ⟨hid₁, hd₁⟩ := describes_stores hP h hs₁
  rw [hid₁] at hid
  rw [hd₁] at hd
  rw [← hid, ← hd]
  exact newcomer_iff (members ⟨_, hr'⟩) hst.1 ht hne (hd ▸ h.fits) hjoin.2.1 hjoin.2.2 hs

/-- The first of two members sends its descriptor, and then the second its own. -/
theorem descriptor_delivery_iff_two : ∃ r w w' o,
    (serverMachine .counting).Run (r ++ [(w, .read 0 0 (joinAckMessage 1).frame .plain)]) (.ok w')
    ∧ r.map Prod.snd = joins 2
    ∧ w'.step .counting (.read 1 0 (joinAckMessage 2).frame .plain) = some o
    ∧ ∃ x ∈ handedTo 1 (newActs w' o), DecodesNew x 1 [] := by
  have hrun : ((serverMachine .counting).exec Server.init (joins 2)).any
      (Outcome.okAnd fun w => w.participants = [0, 1] ∧ (w.sessions 0).mId = 1
        ∧ (w.sessions 0).reads = [⟨.room, true⟩]
        ∧ (w.step .counting (.read 0 0 (joinAckMessage 1).frame .plain)).any (Outcome.okAnd fun w' =>
          w'.participants = [0, 1] ∧ (w'.sessions 1).mId = 2
            ∧ (w'.sessions 1).reads = [⟨.room, true⟩])) = true := by
    decide +kernel
  obtain ⟨r, w, hr, hes, hw⟩ := Machine.exec_okAnd hrun
  obtain ⟨hps, hid, hreads, hstep⟩ := of_decide_eq_true hw
  obtain ⟨o₁, hs₁, ho₁⟩ := (Option.any_eq_true _ _).1 hstep
  cases o₁ with
  | fault f w' => cases ho₁
  | ok w' =>
    obtain ⟨hps', hid', hreads'⟩ := of_decide_eq_true ho₁
    have hread' : (w'.sessions 1).reads[0]? = some ⟨.room, true⟩ := by simp [hreads']
    have hs' : ∃ o, w'.step .counting (.read 1 0 (joinAckMessage 2).frame .plain) = some o := by
      simp only [Server.step, hread']
      exact ⟨_, rfl⟩
    obtain ⟨o, hs'⟩ := hs'
    have hd : Describes w 0 0 (joinAckMessage 1).frame [] := by
      refine ⟨by simp [hps], by simp [hreads], by decide +kernel, ?_, by decide +kernel, by simp⟩
      rw [hid]
      decide +kernel
    refine ⟨r, w, w', o, hr.snoc hs₁, hes, hs', ?_⟩
    rw [← hid]
    refine ((descriptor_delivery_iff hr hd).2 [] w' 1 0 _ _ o (hr.snoc hs₁) ⟨by simp [hps'], by simp⟩
      (by simp [hps']) (by decide) ⟨rfl, hread', by decide +kernel⟩ hs').2 ?_
    refine ⟨[], by decide +kernel, .inr ⟨?_, by simp, ?_⟩⟩
    · rw [hid']
      decide +kernel
    · rw [hps']
      simp

/-- The second and the third of three clients join, the third after two full configurations. -/
def othersJoin : List Event :=
  [.read 1 0 ChatClient.credentialsAck.frame .plain,
    .read 2 0 fullHelloAck.frame .plain, .read 2 0 fullHelloAck.frame .plain,
    .read 2 0 ChatClient.credentialsAck.frame .plain]

/-- The first has described itself before. The second asks who is there and is told of nobody, as
the third's descriptor does not fit the announcement. -/
theorem descriptor_not_delivered : ∃ r w r' w' o,
    (serverMachine .counting).Run (r ++ (w, .read 0 0 (joinAckMessage 1).frame .plain) :: r') (.ok w')
    ∧ Describes w 0 0 (joinAckMessage 1).frame [] ∧ Stays 0 r' w'
    ∧ r'.map Prod.snd = othersJoin
    ∧ 1 ∈ w'.participants ∧ (w'.sessions 1).mId = 2
    ∧ w'.JoinAckBy 1 (.read 1 0 (joinAckMessage 2).frame .plain)
    ∧ w'.step .counting (.read 1 0 (joinAckMessage 2).frame .plain) = some o
    ∧ handedTo 1 (newActs w' o) = [] := by
  have hrun : ((serverMachine .counting).exec Server.init [.accept (some []) 0,
      .accept (some []) 0, .accept (some []) 0,
      .read 0 0 ChatClient.credentialsAck.frame .plain]).any
      (Outcome.okAnd fun w => w.participants = [0] ∧ (w.sessions 0).mId = 1
        ∧ (w.sessions 0).reads = [⟨.room, true⟩]
        ∧ (w.step .counting (.read 0 0 (joinAckMessage 1).frame .plain)).any (Outcome.okAnd fun w₁ =>
          (∀ x ∈ (serverMachine .counting).trail w₁ othersJoin, 0 ∈ x.1.participants)
          ∧ ((serverMachine .counting).exec w₁ othersJoin).any (Outcome.okAnd fun w' =>
            w'.participants = [0, 1, 2] ∧ (w'.sessions 1).mId = 2
            ∧ (w'.sessions 1).reads = [⟨.room, true⟩]
            ∧ (w'.step .counting (.read 1 0 (joinAckMessage 2).frame .plain)).any fun o =>
              handedTo 1 (newActs w' o) = []))) = true := by
    decide +kernel
  obtain ⟨r, w, hr, -, hw⟩ := Machine.exec_okAnd hrun
  obtain ⟨hps, hid, hreads, hstep⟩ := of_decide_eq_true hw
  obtain ⟨o₁, hs₁, ho₁⟩ := (Option.any_eq_true _ _).1 hstep
  rcases o₁ with w₁ | _
  case fault => cases ho₁
  obtain ⟨htrail, hexec⟩ := of_decide_eq_true ho₁
  obtain ⟨o₂, hs₂, ho₂⟩ := (Option.any_eq_true _ _).1 hexec
  rcases o₂ with w' | _
  case fault => cases ho₂
  obtain ⟨hps', hid', hreads', hstep'⟩ := of_decide_eq_true ho₂
  obtain ⟨o, hs', hnone⟩ := (Option.any_eq_true _ _).1 hstep'
  have hes := Machine.map_trail hs₂
  have hr₁ : (serverMachine .counting).Run
      (r ++ [(w, .read 0 0 (joinAckMessage 1).frame .plain)]) (.ok w₁) := hr.snoc hs₁
  have hr' := hr₁.exec hs₂
  rw [List.append_assoc] at hr'
  refine ⟨r, w, _, w', o, hr', ⟨by simp [hps], by simp [hreads], by decide +kernel, ?_,
    by decide +kernel, by simp⟩, ⟨by simp [hps'], fun x hx => ⟨htrail x hx, ?_⟩⟩, hes,
    by simp [hps'], hid', ⟨rfl, by simp [hreads'], by decide +kernel⟩, hs', of_decide_eq_true hnone⟩
  · rw [hid]
    decide +kernel
  · have hmem : x.2 ∈ othersJoin := hes ▸ List.mem_map_of_mem hx
    simp only [othersJoin, List.mem_cons, List.not_mem_nil, or_false] at hmem
    rcases hmem with h | h | h | h <;> simp [h, JoinAckBy]

end XRNetwork
