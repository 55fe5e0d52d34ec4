import XRNetwork.Proofs.Identity
import XRNetwork.Proofs.Inbound

/-!
# How long descriptors are

`PARTICIPANT_JOIN_ACK` clears the descriptor before it copies, `HANDSHAKE_HELLO_ACK` appends to it,
and the handshake loop reads as many of these as a client sends. Until a session joins, its
descriptor is as long as all its configurations together, each of which may fill its field; so the
descriptors fit the announcement exactly when these sums do (`descriptors_fit_iff`).
-/

namespace XRNetwork

/-- The length a client sent with a buffer fits the buffer. -/
def Event.Fits : Event → Prop
  | .read _ _ buf _ => ∀ k : Inbound, (receivedMessage buf).kind = some k.head →
      k.buffersize (receivedMessage buf) ≤ 20480
  | _ => True

namespace Server

variable {E : Env} {w : Server} {e : Event} {ch : Change} {o : Outcome Fault Server}
  {r : List (Server × Event)}

/-- No descriptor is longer than `ST_PARTICIPANT_NEW::descriptor_buffer`. -/
def Stored (w : Server) : Prop := ∀ s, (w.sessions s).mDescriptor.length ≤ 20480

/-- In every state of the run the descriptors fit, and no announcement copies past the buffer. -/
structure DescriptorsFit (E : Env) (r : List (Server × Event)) (o : Outcome Fault Server) :
    Prop where
  before : ∀ w e, (w, e) ∈ r → w.Stored
  last : o.state.Stored
  copies : ∀ w s i buf c, (w, .read s i buf c) ∈ r →
    (receivedMessage buf).kind = some .participantJoinAck →
    ∀ w', w.step E (.read s i buf c) ≠ some (.fault .outOfBounds w')

/-- The `configuration_buffersize` of a `HANDSHAKE_HELLO_ACK` the session's handshake reads. -/
def helloAckSize (s : ℕ) (w : Server) : Event → ℕ
  | .read t i buf _ =>
    if t = s ∧ (w.sessions s).reads[i]? = some ⟨.handshake, true⟩
        ∧ (receivedMessage buf).kind = some .handshakeHelloAck then
      Inbound.handshakeHelloAck.buffersize (receivedMessage buf)
    else 0
  | _ => 0

theorem helloAckSize_read {s t i : ℕ} {buf : Buffer 65536} {c : Choice} :
    helloAckSize s w (.read t i buf c) =
      if t = s ∧ (w.sessions s).reads[i]? = some ⟨.handshake, true⟩
          ∧ (receivedMessage buf).kind = some .handshakeHelloAck then
        Inbound.handshakeHelloAck.buffersize (receivedMessage buf)
      else 0 := rfl

/-- All of them together. -/
def helloAckSizes (s : ℕ) (r : List (Server × Event)) : ℕ :=
  (r.map fun x => helloAckSize s x.1 x.2).sum

theorem helloAckSizes_snoc (s : ℕ) :
    helloAckSizes s (r ++ [(w, e)]) = helloAckSizes s r + helloAckSize s w e := by
  simp [helloAckSizes]

/-- Only the session the step is about, in its handshake, is sent a configuration. -/
theorem helloAckSize_eq_zero (hc : w.Case E e ch) {s : ℕ}
    (h : s ≠ ch.session ∨ ∀ b, ⟨.handshake, b⟩ ∉ (w.sessions s).reads) :
    helloAckSize s w e = 0 := by
  cases e with
  | read t i buf c =>
    rw [helloAckSize_read, if_neg]
    rintro ⟨rfl, hr, -⟩
    have hsession : ch.session = t := by
      cases hc with
      | quiet _ _ _ he => cases he
      | leaveCut he | leave he => cases he
      | _ => rfl
    rcases h with h | h
    · exact h hsession.symm
    · exact h _ (List.mem_of_getElem? hr)
  | _ => rfl

theorem length_configured {buf : Buffer 65536} {s i : ℕ} {c : Choice}
    (hr : (w.sessions s).reads[i]? = some ⟨.handshake, true⟩)
    (hf : (Event.read s i buf c).Fits) :
    (configured (receivedMessage buf)).length = helloAckSize s w (.read s i buf c) := by
  rw [configured, helloAckSize_read]
  by_cases hk : (receivedMessage buf).kind = some .handshakeHelloAck
  · obtain ⟨d, hd⟩ := Inbound.copied_of_le (hf .handshakeHelloAck hk)
    have hlen := Inbound.length_copied hd
    have hd : (receivedMessage buf).configuration = some d := hd
    rw [if_pos hk, hd, if_pos ⟨rfl, hr, hk⟩]
    exact hlen
  · rw [if_neg hk, if_neg fun h => hk h.2.2]
    rfl

/-- A session in its handshake after a step was in it before, unless it is new. -/
theorem Case.handshake_before (hc : w.Case E e ch) {b : Bool}
    (h : ⟨.handshake, b⟩ ∈ ch.record.reads) :
    ch.made = w.made + 1 ∨ ∃ b', ⟨.handshake, b'⟩ ∈ (w.sessions ch.session).reads := by
  rcases hc.reads with ⟨-, hr, -⟩ | ⟨-, hm, -⟩ | ⟨i, x, rs, joins, -, hx, hr, -, -, -, hrs⟩
  · exact .inr ⟨b, hr ▸ h⟩
  · exact .inl hm
  · refine .inr ?_
    rw [hr, List.mem_append] at h
    rcases h with h | h
    · exact ⟨b, List.mem_of_mem_eraseIdx h⟩
    · have hloop := hrs _ h
      cases joins with
      | true => cases hloop
      | false =>
        have hx : x ∈ (w.sessions ch.session).reads := List.mem_of_getElem? hx
        have hloop : ReadLoop.handshake = x.loop := hloop
        exact ⟨x.onOpen, hloop ▸ hx⟩

/-- What a step does to the descriptor of the session it is about. -/
theorem Case.descriptor (hc : w.Case E e ch) (hf : e.Fits) :
    (ch.session = w.made ∧ ch.record.mDescriptor = [])
    ∨ ch.made = w.made ∧ (ch.record.mDescriptor.length
        = (w.sessions ch.session).mDescriptor.length + helloAckSize ch.session w e
      ∨ (∃ b, ⟨.room, b⟩ ∈ (w.sessions ch.session).reads)
        ∧ ch.record.mDescriptor.length ≤ 20480) := by
  have hsame : ∀ {d : Bytes} {s : ℕ}, helloAckSize s w e = 0 →
      d.length = d.length + helloAckSize s w e := by
    intro d s h
    rw [h, add_zero]
  cases hc with
  | accepted => exact .inl ⟨rfl, rfl⟩
  | handshake rs d ms b hr hk hrs hms hd =>
    refine .inr ⟨rfl, .inl ?_⟩
    show d.length = _
    rw [hd, List.length_append, length_configured hr hf]
    rfl
  | joinAckFault json l hr hk hj | joinAck json l hr hk hj =>
    refine .inr ⟨rfl, .inr ⟨⟨_, List.mem_of_getElem? hr⟩, ?_⟩⟩
    have hlen := Inbound.length_copied (k := .participantJoinAck) hj
    exact hlen.trans_le (hf .participantJoinAck hk)
  | refused o hr hk | joinFailed hr hk =>
    refine .inr ⟨rfl, .inl (hsame ?_)⟩
    simp [helloAckSize_read, hk]
  | joined x ps hr hk hgood hroom hx =>
    subst hx
    refine .inr ⟨rfl, .inl (hsame ?_)⟩
    simp [helloAckSize_read, hk]
  | joinAckCut hr | ignored _ hr | relay hr | leaveAckFault hr | leaveAck _ _ hr =>
    refine .inr ⟨rfl, .inl (hsame ?_)⟩
    simp [helloAckSize_read, hr]
  | leaveCut he | leave he => cases he <;> exact .inr ⟨rfl, .inl (hsame rfl)⟩
  | quiet s d b he =>
    refine .inr ⟨rfl, .inl (hsame ?_)⟩
    cases e with
    | read => cases he
    | _ => rfl
  | _ => exact .inr ⟨rfl, .inl (hsame rfl)⟩

/-- The descriptors and the configurations of the run so far. -/
structure Configured (r : List (Server × Event)) (w : Server) : Prop where
  fresh : ∀ s, w.made ≤ s → helloAckSizes s r = 0
  handshake : ∀ s b, ⟨.handshake, b⟩ ∈ (w.sessions s).reads →
    (w.sessions s).mDescriptor.length = helloAckSizes s r
  bound : ∀ s, (w.sessions s).mDescriptor.length ≤ max (helloAckSizes s r) 20480

theorem configured_step (hP : Phase w) (hI : Configured r w) (hc : w.Case E e ch)
    (hg : ch.Gives w o) (hf : e.Fits) : Configured (r ++ [(w, e)]) o.state := by
  have hother : ∀ s, s ≠ ch.session → helloAckSizes s (r ++ [(w, e)]) = helloAckSizes s r := by
    intro s hne
    rw [helloAckSizes_snoc, helloAckSize_eq_zero hc (.inl hne), add_zero]
  have hfresh : ∀ s, w.made ≤ s → helloAckSizes s (r ++ [(w, e)]) = 0 := by
    intro s hs
    have hreads : ∀ b, ⟨.handshake, b⟩ ∉ (w.sessions s).reads := by simp [(hP.fresh s hs).1]
    rw [helloAckSizes_snoc, hI.fresh s hs, helloAckSize_eq_zero hc (.inr hreads)]
  have hmade : w.made ≤ o.state.made := by
    rw [hg.made]
    rcases hc.reads with ⟨h, -⟩ | ⟨-, h, -⟩ | ⟨_, _, _, _, h, -⟩ <;> omega
  have hself := sessions_self hg
  refine ⟨fun s hs => hfresh s (hmade.trans hs), fun s b hb => ?_, fun s => ?_⟩ <;>
    rcases eq_or_ne s ch.session with rfl | hne
  · rw [hself] at hb ⊢
    rcases hc.descriptor hf with ⟨hs, hd⟩ | ⟨hm, hd⟩
    · rw [hd, hfresh _ hs.ge]
      rfl
    · rcases hc.handshake_before hb with hm' | ⟨b', hb'⟩
      · omega
      rcases hd with hd | ⟨⟨b'', hb''⟩, -⟩
      · rw [hd, helloAckSizes_snoc, hI.handshake _ b' hb']
      · exact absurd (hP.room _ b'' hb'') (hP.handshake _ b' hb')
  · rw [sessions_of_ne hg hne] at hb ⊢
    rw [hother s hne, hI.handshake s b hb]
  · rw [hself]
    rcases hc.descriptor hf with ⟨-, hd⟩ | ⟨-, hd | ⟨-, hd⟩⟩
    · simp [hd]
    · rw [hd, helloAckSizes_snoc]
      by_cases h : ∃ b, ⟨.handshake, b⟩ ∈ (w.sessions ch.session).reads
      · obtain ⟨b, hb⟩ := h
        rw [hI.handshake _ b hb]
        exact le_max_left _ _
      · rw [helloAckSize_eq_zero hc (.inr (not_exists.1 h))]
        exact hI.bound _
    · exact hd.trans (le_max_right _ _)
  · rw [sessions_of_ne hg hne, hother s hne]
    exact hI.bound s

theorem configured_run (hr : (serverMachine E).Run r o) (hf : ∀ x ∈ r, x.2.Fits) :
    Configured r o.state := by
  induction hr with
  | nil => exact ⟨fun _ _ => rfl, by simp [serverMachine, init, Session.fresh],
      by simp [serverMachine, init, Session.fresh]⟩
  | @snoc r w e o hr hs ih =>
    have hI := ih fun x hx => hf x (List.mem_append_left _ hx)
    obtain ⟨ch, hc, hg⟩ := step_cases hs
    exact configured_step (phase ⟨r, hr⟩) hI hc hg (hf (w, e) (by simp))

theorem describe_ne_none {newp : ParticipantNew} {id : UInt64} {d : Bytes}
    (hd : d.length ≤ 20480) : newp.describe id d ≠ none := by
  rw [Ne, describe_eq_none]
  omega

theorem initNewParticipant_copies (hw : w.Stored) (c : Choice) (id : UInt64) (w' : Server) :
    w.initNewParticipant c id ≠ .fault .outOfBounds w' := by
  intro h
  rcases w.initNewParticipant_cases c id with
    ⟨-, h'⟩ | ⟨p, -, ⟨hd, -⟩ | ⟨newp, -, ⟨hl, -⟩ | ⟨list, -, h'⟩⟩⟩
  · cases h.symm.trans h'
  · exact describe_ne_none (hw p) hd
  · have hfits : ∀ q ∈ w.participants, (w.sessions q).mId ≠ (w.sessions p).mId →
        (w.sessions q).mDescriptor.length % 2 ^ 32 ≤ 20480 :=
      fun q _ _ => (Nat.mod_le _ _).trans (hw q)
    obtain ⟨list, hl'⟩ := w.playerList_isSome _ (.default 0 c.stackList) hfits
    cases hl.symm.trans hl'
  · cases h.symm.trans h'

/-- A `PARTICIPANT_JOIN_ACK` whose descriptor fits, as all others do, copies past no buffer. -/
theorem joinAck_copies (hw : w.Stored) {s i : ℕ} {buf : Buffer 65536} {c : Choice}
    (hf : (Event.read s i buf c).Fits) (hk : (receivedMessage buf).kind = some .participantJoinAck)
    (w' : Server) : w.step E (.read s i buf c) ≠ some (.fault .outOfBounds w') := by
  intro hs
  obtain ⟨d, hd⟩ := Inbound.copied_of_le (hf .participantJoinAck hk)
  have hlen : d.length ≤ 20480 := (Inbound.length_copied hd).trans_le (hf .participantJoinAck hk)
  simp only [step] at hs
  split at hs
  · rename_i loop hr
    have hs := Option.some.inj hs
    cases loop with
    | handshake => simp [onRead, onReadHandshake, hk] at hs
    | room =>
      unfold onRead onReadRoom at hs
      simp only [] at hs
      rw [onRoomFrame_joinAck _ hk hd] at hs
      rcases hinit : (((w.tick.dropRead s i).log (.received s .room (receivedMessage buf))).described
          s d |>.log (.initNewParticipant s (receivedMessage buf).participantId)).initNewParticipant c
            (receivedMessage buf).participantId with w₁ | ⟨f, w₁⟩
      · rw [hinit] at hs
        cases hs
      · rw [hinit] at hs
        cases hs
        refine initNewParticipant_copies (fun p => ?_) c _ _ hinit
        rcases eq_or_ne p s with rfl | hne
        · simpa [described, setSession] using hlen
        · simpa [described, setSession, dropRead, tick, hne] using hw p
  · cases hs

theorem descriptorsFit_of_sizes (hr : (serverMachine E).Run r o) (hf : ∀ x ∈ r, x.2.Fits)
    (h : ∀ s, helloAckSizes s r ≤ 20480) : DescriptorsFit E r o := by
  have hlast : ∀ {r o}, (serverMachine E).Run r o → (∀ x ∈ r, x.2.Fits) →
      (∀ s, helloAckSizes s r ≤ 20480) → o.state.Stored := fun hr hf h s =>
    ((configured_run hr hf).bound s).trans (max_le (h s) le_rfl)
  have hbefore : ∀ w e, (w, e) ∈ r → w.Stored := by
    intro w e hx
    obtain ⟨r₁, -, hr₁, -, hpre⟩ := hr.before hx
    obtain ⟨r₂, rfl⟩ := (List.prefix_append r₁ [(w, e)]).trans hpre
    refine hlast hr₁ (fun x hx => hf x (List.mem_append_left _ hx)) fun s => ?_
    have hs := h s
    unfold helloAckSizes at hs ⊢
    rw [List.map_append, List.sum_append] at hs
    omega
  refine ⟨hbefore, hlast hr hf h, fun w s i buf c hx hk w' => ?_⟩
  exact joinAck_copies (hbefore w _ hx) (hf _ hx) hk w'

theorem sizes_of_descriptorsFit (hr : (serverMachine E).Run r o) (hf : ∀ x ∈ r, x.2.Fits)
    (h : DescriptorsFit E r o) (s : ℕ) : helloAckSizes s r ≤ 20480 := by
  induction hr with
  | nil => exact Nat.zero_le _
  | @snoc r w e o hr hs ih =>
    have hf' : ∀ x ∈ r, x.2.Fits := fun x hx => hf x (List.mem_append_left _ hx)
    have hsizes := ih hf' ⟨fun w₁ e₁ hx => h.before w₁ e₁ (List.mem_append_left _ hx),
      h.before w e (by simp), fun w₁ t i buf c hx => h.copies w₁ t i buf c
        (List.mem_append_left _ hx)⟩
    obtain ⟨ch, hc, hg⟩ := step_cases hs
    rw [helloAckSizes_snoc]
    by_cases hzero : helloAckSize s w e = 0
    · omega
    -- the session is in its handshake, and the step appends the configuration
    obtain ⟨hsession, hhand⟩ : s = ch.session ∧ ∃ b, ⟨.handshake, b⟩ ∈ (w.sessions s).reads := by
      by_contra hno
      refine hzero (helloAckSize_eq_zero hc ?_)
      push Not at hno
      exact (em (s = ch.session)).symm.imp_right hno
    obtain ⟨b, hb⟩ := hhand
    have hP : Phase w := phase ⟨r, hr⟩
    have hold : (w.sessions s).mDescriptor.length = helloAckSizes s r :=
      (configured_run hr hf').handshake s b hb
    have hnew : ch.record.mDescriptor.length ≤ 20480 := by
      rw [← sessions_self hg]
      exact h.last _
    subst hsession
    rcases hc.descriptor (hf (w, e) (by simp)) with ⟨hmade, -⟩ | ⟨-, hd | ⟨⟨b', hb'⟩, -⟩⟩
    · simp [(hP.fresh _ hmade.ge).1] at hb
    · omega
    · exact absurd (hP.room _ b' hb') (hP.handshake _ b hb)

end Server

open Server

/-- In every run of frames that fit, the stored descriptors fit the announcement if and only if no
session's configurations are together longer than its buffer. -/
theorem descriptors_fit_iff {E : Env} {r : List (Server × Event)} {o : Outcome Fault Server}
    (hr : (serverMachine E).Run r o) (hf : ∀ x ∈ r, x.2.Fits) :
    DescriptorsFit E r o ↔ ∀ s, helloAckSizes s r ≤ 20480 :=
  ⟨fun h s => sizes_of_descriptorsFit hr hf h s, descriptorsFit_of_sizes hr hf⟩

/-- A `HANDSHAKE_HELLO_ACK` whose configuration fills its field. -/
def fullHelloAck : XRMessage :=
  .ofPayload MessageHead.handshakeHelloAck.code (HandshakeHelloAck.toBytes
    ⟨0, 0, 20480, .zero 20480⟩) (by simp)

/-- Two clients join, the second after two full configurations. -/
def twoHelloAcks : List Event :=
  [.accept (some []) 0, .accept (some []) 0,
    .read 1 0 fullHelloAck.frame .plain, .read 1 0 fullHelloAck.frame .plain,
    .read 0 0 ChatClient.credentialsAck.frame .plain,
    .read 1 0 ChatClient.credentialsAck.frame .plain]

theorem fits_iff {buf : Buffer 65536} {s i : ℕ} {c : Choice} : (Event.read s i buf c).Fits ↔
    ((receivedMessage buf).kind = some .handshakeHelloAck →
      Inbound.handshakeHelloAck.buffersize (receivedMessage buf) ≤ 20480)
    ∧ ((receivedMessage buf).kind = some .participantJoinAck →
      Inbound.participantJoinAck.buffersize (receivedMessage buf) ≤ 20480) := by
  refine ⟨fun h => ⟨h .handshakeHelloAck, h .participantJoinAck⟩, fun h k => ?_⟩
  cases k
  · exact h.1
  · exact h.2

theorem fits_joinAckMessage {s i : ℕ} {c : Choice} :
    (Event.read s i (joinAckMessage 1).frame c).Fits :=
  fits_iff.2 ⟨fun h => absurd h (by decide +kernel), fun _ => by decide +kernel⟩

theorem fits_twoHelloAcks : ∀ e ∈ twoHelloAcks, e.Fits := by
  have hfull : ∀ s i c, (Event.read s i fullHelloAck.frame c).Fits := fun s i c =>
    fits_iff.2 ⟨fun _ => by decide +kernel, fun h => absurd h (by decide +kernel)⟩
  have hcred : ∀ s i c, (Event.read s i ChatClient.credentialsAck.frame c).Fits := fun s i c =>
    fits_iff.2 ⟨fun h => absurd h (by decide +kernel), fun h => absurd h (by decide +kernel)⟩
  have haccept : ∀ ip t, (Event.accept ip t).Fits := fun _ _ => trivial
  simp [twoHelloAcks, hfull, hcred, haccept]

/-- With one configuration the descriptors fit. -/
theorem descriptors_fit_iff_one : ∃ r w, (serverMachine .counting).Run r (.ok w)
    ∧ r.map Prod.snd = twoHelloAcks.eraseIdx 3 ∧ DescriptorsFit .counting r (.ok w) := by
  have hrun : ((serverMachine .counting).exec Server.init (twoHelloAcks.eraseIdx 3)).any
      (Outcome.okAnd fun w => w.made = 2) = true := by
    decide +kernel
  have hsizes : ∀ s < 2, helloAckSizes s
      ((serverMachine .counting).trail Server.init (twoHelloAcks.eraseIdx 3)) ≤ 20480 := by
    decide +kernel
  obtain ⟨w, hr, hes, hw⟩ := Machine.exec_trail hrun
  have hmade : w.made = 2 := of_decide_eq_true hw
  have hf : ∀ x ∈ (serverMachine .counting).trail Server.init (twoHelloAcks.eraseIdx 3),
      x.2.Fits := by
    intro x hx
    have hmem := List.mem_map_of_mem (f := Prod.snd) hx
    exact fits_twoHelloAcks _ (List.mem_of_mem_eraseIdx (hes ▸ hmem))
  refine ⟨_, w, hr, hes, (descriptors_fit_iff hr hf).2 fun s => ?_⟩
  rcases lt_or_ge s 2 with h | h
  · exact hsizes s h
  · rw [(configured_run hr hf).fresh s (hmade.trans_le h)]
    exact Nat.zero_le _

/-- The second client's descriptor is twice as long as the buffer, and the announcement the first
asks for copies it there. -/
theorem descriptors_overflow : ∃ r w w',
    (serverMachine .counting).Run (r ++ [(w, .read 0 0 (joinAckMessage 1).frame .plain)])
      (.fault .outOfBounds w')
    ∧ r.map Prod.snd = twoHelloAcks
    ∧ (∀ x ∈ r ++ [(w, .read 0 0 (joinAckMessage 1).frame .plain)], x.2.Fits)
    ∧ (w.sessions 1).mDescriptor.length = 40960
    ∧ ¬ DescriptorsFit .counting (r ++ [(w, .read 0 0 (joinAckMessage 1).frame .plain)])
      (.fault .outOfBounds w') := by
  have hrun : ((serverMachine .counting).exec Server.init twoHelloAcks).any
      (Outcome.okAnd fun w => (w.sessions 1).mDescriptor.length = 40960
        ∧ (w.step .counting (.read 0 0 (joinAckMessage 1).frame .plain)).any fun
          | .fault .outOfBounds _ => true
          | _ => false) = true := by
    decide +kernel
  obtain ⟨r, w, hr, hes, hw⟩ := Machine.exec_okAnd hrun
  obtain ⟨hlen, hstep⟩ := of_decide_eq_true hw
  obtain ⟨o, hs, ho⟩ := (Option.any_eq_true _ _).1 hstep
  split at ho
  · rename_i w'
    refine ⟨r, w, w', hr.snoc hs, hes, fun x hx => ?_, hlen, fun h => ?_⟩
    · rcases List.mem_append.1 hx with hx | hx
      · exact fits_twoHelloAcks _ (hes ▸ List.mem_map_of_mem hx)
      · obtain rfl := List.mem_singleton.1 hx
        exact fits_joinAckMessage
    · have hle := h.before w _ (List.mem_append_right _ List.mem_cons_self) 1
      omega
  · cases ho

end XRNetwork
