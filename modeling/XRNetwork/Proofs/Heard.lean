import XRNetwork.Proofs.HandshakeOrder
import XRNetwork.Proofs.Agreement

/-!
# What is read from a session

A step reads one message, or none, and it is read from one session (`heard_step`, `Case.heard_read`).
A step that reads nothing from a session says hello to it, or tells it about others (`Addressed`);
the rest of what it is told answers what it has sent.
-/

namespace XRNetwork

/-- The messages read from the session, in order. -/
def heardFrom (s : ℕ) (acts : List Act) : List XRMessage :=
  acts.filterMap fun
    | .received t _ m => if t = s then some m else none
    | _ => none

theorem heardFrom_eq_nil {s : ℕ} {acts : List Act} (h : ∀ loop m, .received s loop m ∉ acts) :
    heardFrom s acts = [] := by
  refine List.filterMap_eq_nil_iff.2 fun a ha => ?_
  split
  · split_ifs with hs
    · exact absurd (hs ▸ ha) (h _ _)
    · rfl
  · rfl

theorem heardFrom_cons {s : ℕ} {loop : ReadLoop} {m : XRMessage} {acts : List Act}
    (h : ∀ loop m, .received s loop m ∉ acts) :
    heardFrom s (.received s loop m :: acts) = [m] := by
  have hcons : heardFrom s (.received s loop m :: acts) = m :: heardFrom s acts := by
    simp [heardFrom]
  rw [hcons, heardFrom_eq_nil h]

theorem receivedMessage_frame (m : XRMessage) : receivedMessage m.frame = m :=
  XRMessage.data_injective (Server.receivedMessage_data m.frame)

namespace Server

variable {E : Env} {w w' : Server} {e : Event} {ch : Change} {o : Outcome Fault Server}

/-- All that has been read from the session, in order. -/
def heard (w : Server) (s : ℕ) : List XRMessage := heardFrom s (w.trace.map Prod.snd)

theorem heard_step (hg : ch.Gives w o) (s : ℕ) :
    o.state.heard s = w.heard s ++ heardFrom s ch.acts := by
  rw [heard, hg.trace, List.map_append, List.map_map, heardFrom, List.filterMap_append]
  exact congrArg _ (congrArg _ (List.map_id _))

theorem Case.heard_of_ne (hc : w.Case E e ch) {s : ℕ} (hne : e.reader ≠ some s) :
    heardFrom s ch.acts = [] := by
  have hread : ∀ {t i : ℕ} {buf : Buffer 65536} {c : Choice},
      (Event.read t i buf c).reader ≠ some s → s ≠ t :=
    fun h heq => h (congrArg some heq.symm)
  refine heardFrom_eq_nil fun loop m => ?_
  cases hc with
  | joined =>
    have hst := hread hne
    by_cases hcb : ‹Choice›.callback = .returns <;> simp [hcb, hst]
  | handshake | refused | joinFailed | joinAckCut | joinAckFault | joinAck | ignored | relay
  | leaveAckFault | leaveAck => simp [hread hne]
  | _ => simp

theorem Case.heard_read {s i : ℕ} {buf : Buffer 65536} {c : Choice}
    (hc : w.Case E (.read s i buf c) ch) : heardFrom s ch.acts = [receivedMessage buf] := by
  cases hc with
  | quiet _ _ _ he => cases he
  | leaveCut he | leave he => cases he
  | joined =>
    refine heardFrom_cons ?_
    by_cases hcb : c.callback = .returns <;> simp [hcb]
  | _ => exact heardFrom_cons (by simp)

/-! ## What a session is told meanwhile -/

/-- The session is made now and told hello, or it is told about others, a member. -/
inductive Addressed (w : Server) (s : ℕ) (ch : Change) : Prop
  | hello (hs : s = w.made) (hm : ch.made = w.made + 1) (hh : HandshakeHello)
      (ht : handedTo s ch.acts = [hh.toMessage])
  | others (hm : s = w.made → ch.made = w.made)
      (ht : ∀ m ∈ handedTo s ch.acts, s ∈ w.participants ∧ m.IsRoomFrame)

/-- A connection is accepted, and the handler returns. -/
theorem step_accept {ip : Bytes} {t : UInt64}
    (hs : w.step E (.accept (some ip) t) = some (.ok w')) :
    ∃ hh : HandshakeHello, handedTo w.made (newActs w (.ok w')) = [hh.toMessage] := by
  simp only [step] at hs
  split_ifs at hs
  have hok := Option.some.inj hs
  unfold onAccept doStartHandshake at hok
  simp only [] at hok
  split at hok
  · cases hok
  · rename_i hh _
    cases hok
    refine ⟨hh, ?_⟩
    simp [newActs, doReadHandshake, deliverByte, log, setSide, setSession, tick, handedTo]

theorem Case.addressed (hc : w.Case E e ch) (hg : ch.Gives w (.ok w'))
    (hs : w.step E e = some (.ok w')) {s : ℕ} (hne : e.reader ≠ some s) : w.Addressed s ch := by
  have hread : ∀ {t i : ℕ} {buf : Buffer 65536} {c : Choice},
      (Event.read t i buf c).reader ≠ some s → t ≠ s :=
    fun h heq => h (congrArg some heq)
  have hdep : ∀ p, ∀ m, (∃ b, .handed s m b ∈ w.departureActs p) →
      s ∈ w.participants ∧ m.IsRoomFrame := by
    rintro p m ⟨b, hb⟩
    obtain ⟨⟨ht, -⟩, rfl⟩ := mem_handedTo_departureActs.1 ⟨b, hb⟩
    exact ⟨ht, .inr (.inl (by simp))⟩
  cases hc with
  | accepted ip t ms b hms =>
    by_cases hmade : s = w.made
    · subst hmade
      obtain ⟨hh, ht⟩ := step_accept hs
      rw [newActs_eq hg] at ht
      exact .hello rfl rfl hh ht
    · refine .others (fun h => absurd h hmade) fun m hm => ?_
      obtain ⟨b, hb⟩ := mem_handedTo.1 hm
      simp at hb
      exact absurd hb.2.1.symm hmade
  | handshake rs d ms | refused | joined =>
    refine .others (fun _ => rfl) fun m hm => ?_
    obtain ⟨b, hb⟩ := mem_handedTo.1 hm
    have hst := hread hne
    simp [hst] at hb
  | joinAckFault json l hr hk hj hl =>
    refine .others (fun _ => rfl) fun m hm => ?_
    obtain ⟨b, hb⟩ := mem_handedTo.1 hm
    simp at hb
    obtain ⟨hmem, hkind⟩ := hl _ hb.1
    exact ⟨hmem, .inl hkind⟩
  | joinAck json l hr hk hj hl =>
    refine .others (fun _ => rfl) fun m hm => ?_
    obtain ⟨b, hb⟩ := mem_handedTo.1 hm
    simp at hb
    exact ⟨hl.member _ hb.1, .inl (hl.kind _ hb.1)⟩
  | relay hr hk =>
    refine .others (fun _ => rfl) fun m hm => ?_
    obtain ⟨b, hb⟩ := mem_handedTo.1 hm
    simp at hb
    exact ⟨(mem_others.1 hb.1).1, .inr (.inr (hb.2.1 ▸ hk))⟩
  | leaveAck p =>
    refine .others (fun _ => rfl) fun m hm => hdep p m ?_
    simpa using mem_handedTo.1 hm
  | @leave _ t =>
    refine .others (fun _ => rfl) fun m hm => hdep t m ?_
    simpa using mem_handedTo.1 hm
  | remove p =>
    refine .others (fun _ => rfl) fun m hm => hdep p m ?_
    simpa using mem_handedTo.1 hm
  | _ => exact .others (fun _ => rfl) (by simp [mem_handedTo])

end Server

end XRNetwork
