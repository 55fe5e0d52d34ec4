import XRNetwork.Proofs.Subscribers
import XRNetwork.Proofs.Sides

/-!
# Who keeps what a handler will use

The write handlers keep their session and the posted ones their buffer, neither the other. So the
buffer of a write goes as soon as the write is started, the deque having given it away; and a session
with handlers posted goes with its last read, unless it is a member. Nobody loses what is still
needed in exactly the runs in which no write is started and nobody is without a read when it is not
a member (`ownership_iff`).
-/

namespace XRNetwork

/-- What a `shared_ptr` points to. -/
inductive Pointee
  | session (s : ℕ)
  | buffer (b : Bytes)
deriving DecidableEq

/-- A handler of a session that has yet to run. -/
inductive PendingHandler
  | posted (bufferPtr : Bytes)
  | read (x : PendingRead)
  | write (x : Write)

/-- What the `shared_ptr`s it has captured point to. -/
def PendingHandler.captures (s : ℕ) : PendingHandler → List Pointee
  -- `[this, buffer_ptr]`
  | .posted bufferPtr => [.buffer bufferPtr]
  -- `[this, self]`
  | .read _ | .write _ => [.session s]

namespace Server

/-- The handlers of the session that have yet to run. -/
def pending (w : Server) (s : ℕ) : List PendingHandler :=
  (w.sides s).posted.map .posted ++ (w.sessions s).reads.map .read ++ (w.sides s).writes.map .write

/-- The buffer of the write is in the deque of its session, or its handler has captured it. -/
def BufferHeld (w : Server) (s : ℕ) (x : Write) : Prop :=
  x.buffer ∈ (w.sides s).deque ∨ .buffer x.buffer ∈ (PendingHandler.write x).captures s

/-- The session is a member, or a handler has captured it. -/
def SessionHeld (w : Server) (s : ℕ) : Prop :=
  s ∈ w.participants ∨ ∃ h ∈ w.pending s, .session s ∈ h.captures s

/-- What the pending writes and the posted handlers will use is held. -/
structure Owned (w : Server) : Prop where
  buffers : ∀ s, ∀ x ∈ (w.sides s).writes, w.BufferHeld s x
  sessions : ∀ s < w.made, (w.sides s).posted ≠ [] → w.SessionHeld s

/-- No posted handler is run; a read that ends with an error leaves its session a member, or ends
the run; and whoever is taken out of the set has a read outstanding. -/
def Spares (w : Server) : Event → Prop
  | .posted _ => False
  | .readFailed s i c => s ∈ w.participants ∧ c.callback = .throws
      ∨ ((w.sessions s).reads[i]?).map PendingRead.loop = some .room ∧ c.callback = .throwsOther
  | .read s i buf _ => (w.sessions s).reads[i]? = some ⟨.room, true⟩ →
      (receivedMessage buf).kind = some .participantLeaveAck →
      ∀ p, w.getParticipantPtr (w.sessions s).mId = some p → (w.sessions p).reads ≠ []
  | .disconnectParticipant id => ∀ p, w.getParticipantPtr id = some p → (w.sessions p).reads ≠ []
  | _ => True

variable {E : Env} {w w' : Server} {e : Event} {ch : Change} {o : Outcome Fault Server}

theorem sessionHeld_iff {s : ℕ} : w.SessionHeld s ↔
    s ∈ w.participants ∨ (w.sessions s).reads ≠ [] ∨ (w.sides s).writes ≠ [] := by
  simp only [SessionHeld, pending, List.mem_append, List.mem_map, or_and_right, exists_or]
  refine or_congr Iff.rfl ?_
  constructor
  · rintro ((⟨h, ⟨b, -, rfl⟩, hmem⟩ | ⟨h, ⟨x, hx, rfl⟩, -⟩) | ⟨h, ⟨x, hx, rfl⟩, -⟩)
    · simp [PendingHandler.captures] at hmem
    · exact .inl (List.ne_nil_of_mem hx)
    · exact .inr (List.ne_nil_of_mem hx)
  · rintro (h | h)
    · obtain ⟨x, hx⟩ := List.exists_mem_of_ne_nil _ h
      exact .inl (.inr ⟨_, ⟨x, hx, rfl⟩, List.mem_singleton_self _⟩)
    · obtain ⟨x, hx⟩ := List.exists_mem_of_ne_nil _ h
      exact .inr ⟨_, ⟨x, hx, rfl⟩, List.mem_singleton_self _⟩

/-! ## Writes -/

theorem not_bufferHeld (hw : (serverMachine E).Reachable (.ok w)) (s : ℕ) (x : Write) :
    ¬ w.BufferHeld s x := by
  have hd : (w.sides s).deque = [] := WriteSide.deque_nil (side_reachable hw s)
  simp [BufferHeld, hd, PendingHandler.captures]

/-- No write is outstanding, and what was posted to a session that has been made is still there. -/
structure Unstarted (w : Server) : Prop where
  writes : ∀ s, (w.sides s).writes = []
  posted : ∀ s < w.made, (w.sides s).posted ≠ []

/-- Where nothing has been started, only a posted handler does anything to a write side. -/
theorem write_of_unstarted {x : WriteSide} (hx : x.writes = []) {we : WriteEvent}
    {s : ℕ} (he : e.write = some (s, we)) (hne : ∀ s, e ≠ .posted s)
    {y : Outcome Fault WriteSide} : x.step we ≠ some y := by
  intro h
  cases e with
  | posted t => exact hne t rfl
  | writeSome t i k | writeDone t i | writeFailed t i c =>
    cases he
    simp [WriteSide.step, WriteSide.writeSome, WriteSide.writeDone, WriteSide.writeFailed, hx] at h
  | _ => cases he

theorem accepted_posted (hs : w.step E e = some (.ok w')) {s : ℕ} (hle : w.made ≤ s)
    (hlt : s < w'.made) : (w'.sides s).posted ≠ [] := by
  obtain ⟨ch, hc, hg⟩ := step_cases hs
  have hmade : w'.made = ch.made := hg.made
  rcases hc.reads with ⟨h, -⟩ | ⟨-, h, -⟩ | ⟨-, -, -, -, h, -⟩
  · omega
  swap
  · omega
  obtain rfl : s = w.made := by omega
  cases hc with
  | accepted ip t ms b hms =>
    simp only [Server.step] at hs
    split_ifs at hs
    unfold onAccept doStartHandshake at hs
    simp only [Option.some.injEq] at hs
    split at hs
    · cases hs
    · cases hs
      simp [deliverByte, setSide, setSession, doReadHandshake, WriteSide.deliverByte, tick]
  | _ => exact absurd h (by simp)

theorem Unstarted.step (h : Unstarted w) (hne : ∀ s, e ≠ .posted s)
    (hs : w.step E e = some (.ok w')) : Unstarted w' := by
  have hkept : Stable fun t x => x.writes = [] ∧ (t < w.made → x.posted ≠ []) :=
    ⟨fun _ _ _ hx => ⟨hx.1, fun _ => by simp [WriteSide.deliverByte]⟩, fun _ _ hx => hx⟩
  have hsides := sidesAre_step hkept (fun s => ⟨h.writes s, h.posted s⟩)
    ⟨rfl, fun hlt => absurd hlt (lt_irrefl _)⟩ hs
    (fun s we x he hx => absurd hx (write_of_unstarted (h.writes s) he hne))
  refine ⟨fun s => (hsides s).1, fun s hlt => ?_⟩
  by_cases hold : s < w.made
  · exact (hsides s).2 hold
  · exact accepted_posted hs (not_lt.1 hold) hlt

/-! ## Sessions -/

/-- Every session that has been made is a member or has a read outstanding. -/
def Attached (w : Server) : Prop := ∀ s < w.made, s ∈ w.participants ∨ (w.sessions s).reads ≠ []

/-- Where nothing has been started, this is all that is needed. -/
theorem owned_iff (h : Unstarted w) : Owned w ↔ Attached w := by
  constructor
  · intro hO s hlt
    have hheld := sessionHeld_iff.1 (hO.sessions s hlt (h.posted s hlt))
    simpa [h.writes s] using hheld
  · intro hA
    refine ⟨fun s x hx => ?_, fun s hlt _ => ?_⟩
    · rw [h.writes s] at hx
      cases hx
    · exact sessionHeld_iff.2 ((hA s hlt).imp_right .inl)

theorem Members.lt_made (hP : Phase w) (hM : Members w) {s : ℕ} (hs : s ∈ w.participants) :
    s < w.made := by
  by_contra hle
  exact (hP.fresh s (not_lt.1 hle)).2 (hM.joined s (hM.inserted s hs))

/-- A step that erases nobody, and leaves the session it is about a member, or with a read, or its
reads as they were. -/
theorem Attached.keep (hA : Attached w) (hg : ch.Gives w (.ok w'))
    (hps : ∀ s ∈ w.participants, s ∈ ch.participants)
    (hself : ch.session ∈ ch.participants ∨ ch.record.reads ≠ []
      ∨ ch.record.reads = (w.sessions ch.session).reads ∧ ch.made = w.made)
    (hmade : ∀ s < ch.made, s < w.made ∨ s = ch.session) : Attached w' := by
  intro s hlt
  have hlt : s < ch.made := hg.made ▸ hlt
  have hps' : w'.participants = ch.participants := hg.participants
  rw [hps']
  rcases eq_or_ne s ch.session with rfl | hne
  · rw [show w'.sessions ch.session = _ from sessions_self hg]
    rcases hself with h | h | ⟨h, hm⟩
    · exact .inl h
    · exact .inr h
    · rw [h]
      exact (hA _ (hm ▸ hlt)).imp_left (hps _)
  · rw [show w'.sessions s = _ from sessions_of_ne hg hne]
    exact (hA s ((hmade s hlt).resolve_right hne)).imp_left (hps s)

/-- A step that erases a member, and leaves everybody with a read or everybody without. -/
theorem Attached.remove (hA : Attached w) (hP : Phase w) (hM : Members w)
    (hg : ch.Gives w (.ok w')) {p : ℕ} (hp : p ∈ w.participants)
    (hps : ch.participants = w.remaining p) (hmade : ch.made = w.made)
    (hreads : ch.record.reads = [] ↔ (w.sessions ch.session).reads = []) :
    Attached w' ↔ (w.sessions p).reads ≠ [] := by
  have hps' : w'.participants = w.remaining p := (show w'.participants = _ from hg.participants).trans hps
  have hmade' : w'.made = w.made := (show w'.made = _ from hg.made).trans hmade
  have hreads' : ∀ s, (w'.sessions s).reads = [] ↔ (w.sessions s).reads = [] := by
    intro s
    rcases eq_or_ne s ch.session with rfl | hne
    · rw [show w'.sessions ch.session = _ from sessions_self hg, hreads]
    · rw [show w'.sessions s = _ from sessions_of_ne hg hne]
  have hmem : ∀ s, s ∈ w'.participants ↔ s ∈ w.participants ∧ s ≠ p := by
    intro s
    rw [hps', remaining]
    exact hM.sorted.mem_erase_key hp
  constructor
  · intro h
    have hlt : p < w'.made := hmade' ▸ hM.lt_made hP hp
    rcases h p hlt with hmem' | hr
    · exact absurd rfl ((hmem p).1 hmem').2
    · exact fun hr' => hr ((hreads' p).2 hr')
  · intro hr s hlt
    rcases eq_or_ne s p with rfl | hne
    · exact .inr fun h => hr ((hreads' s).1 h)
    · exact (hA s (hmade' ▸ hlt)).imp (fun h => (hmem s).2 ⟨h, hne⟩) fun h h' => h ((hreads' s).1 h')

theorem handshake_rereads {s i : ℕ} {buf : Buffer 65536} {c : Choice}
    (hr : (w.sessions s).reads[i]? = some ⟨.handshake, true⟩)
    (hk : (receivedMessage buf).kind ≠ some .handshakeCredentialsAck)
    (hs : w.step E (.read s i buf c) = some (.ok w')) : (w'.sessions s).reads ≠ [] := by
  have hdo : ∀ x : Server, ((x.doReadHandshake s).sessions s).reads ≠ [] := by
    intro x
    simp [doReadHandshake, setSession]
  simp only [step, hr, Option.some.injEq] at hs
  unfold onRead onReadHandshake at hs
  simp only [] at hs
  split at hs
  · obtain ⟨x, -, hx⟩ := Outcome.andThen_eq_ok.1 hs
    cases hx
    exact hdo x
  · contradiction
  · cases hs
    exact hdo _

theorem writeFailed_of_unstarted (hU : Unstarted w) {s i : ℕ} {c : Choice} :
    w.step E (.writeFailed s i c) ≠ some o := by
  simp [step, WriteSide.writeFailed, hU.writes s]

/-- Where everybody is attached and nothing started, a step that returns keeps it so exactly if it
spares them. -/
theorem attached_step (hU : Unstarted w) (hA : Attached w) (hP : Phase w) (hM : Members w)
    (hne : ∀ s, e ≠ .posted s) (hs : w.step E e = some (.ok w')) :
    Attached w' ↔ w.Spares e := by
  obtain ⟨ch, hc, hg⟩ := step_cases hs
  have hret : ch.returns = true := hg.returns.2 rfl
  -- a session whose one read has failed is attached only as a member
  have hfailed : ∀ {s i : ℕ} {x : PendingRead}, (w.sessions s).reads[i]? = some x →
      ch.session = s → ch.record.reads = (w.sessions s).reads.eraseIdx i → ch.made = w.made →
      (Attached w' → s ∈ ch.participants) := by
    rintro s i x hr rfl hreads hmade h
    obtain ⟨-, hnil, hlt⟩ := hP.read_eq hr
    have hps : w'.participants = ch.participants := hg.participants
    refine hps ▸ (h _ ?_).resolve_right ?_
    · rw [show w'.made = ch.made from hg.made, hmade]
      exact hlt
    · rw [show w'.sessions ch.session = _ from sessions_self hg, hreads, hnil]
      simp
  cases hc with
  | quiet s d b he =>
    refine iff_of_true (hA.keep hg (fun _ h => h) (.inr (.inr ⟨rfl, rfl⟩)) fun _ h => .inl h) ?_
    cases e with
    | posted s => exact hne s rfl
    | disconnectParticipant id | read s i buf c | readFailed s i c => cases he
    | _ => trivial
  | accepted ip t ms b =>
    refine iff_of_true (hA.keep hg (fun _ h => h) (.inr (.inl (by simp))) fun s h => ?_) trivial
    have h : s < w.made + 1 := h
    show s < w.made ∨ s = w.made
    omega
  | @handshake s i buf c rs d ms b hr hk =>
    refine iff_of_true (hA.keep hg (fun _ h => h) (.inr (.inl ?_)) fun _ h => .inl h) fun hr' => ?_
    · have hself := sessions_self hg
      rw [← hself]
      exact handshake_rereads hr hk hs
    · simp [hr] at hr'
  | refused o hr =>
    refine iff_of_true (hA.keep hg (fun _ h => h) (.inr (.inl (by simp [readOver]))) fun _ h => .inl h)
      fun hr' => ?_
    simp [hr] at hr'
  | joined x ps hr _ _ _ hx hps =>
    refine iff_of_true (hA.keep hg (fun s h => ?_) (.inr (.inl (by simp [hx, readOver])))
      fun _ h => .inl h) fun hr' => ?_
    · show s ∈ ps
      rw [hps]
      exact KeyedSet.mem_insert_of_mem h
    · simp [hr] at hr'
  | joinAck json l hr hk =>
    refine iff_of_true (hA.keep hg (fun _ h => h) (.inr (.inl (by simp [readOver]))) fun _ h => .inl h)
      fun _ hk' => ?_
    simp [hk] at hk'
  | ignored o hr _ _ hl =>
    exact iff_of_true (hA.keep hg (fun _ h => h) (.inr (.inl (by simp [readOver]))) fun _ h => .inl h)
      fun _ hk' => absurd hk' hl
  | relay hr hk =>
    refine iff_of_true (hA.keep hg (fun _ h => h) (.inr (.inl (by simp [readOver]))) fun _ h => .inl h)
      fun _ hk' => ?_
    simp [hk] at hk'
  | @leaveAck s i buf c p o hr hk hp =>
    rw [hA.remove hP hM hg (mem_of_getParticipantPtr hp).1 rfl rfl]
    · refine ⟨fun h _ _ q hq => ?_, fun h => h hr hk p hp⟩
      obtain rfl := Option.some.inj (hp.symm.trans hq)
      exact h
    · refine iff_of_false (by simp [readOver]) fun h => ?_
      have h : (w.sessions s).reads = [] := h
      simp [h] at hr
  | @remove id p hp =>
    rw [hA.remove hP hM hg (mem_of_getParticipantPtr hp).1 rfl rfl Iff.rfl]
    refine ⟨fun h q hq => ?_, fun h => h p hp⟩
    obtain rfl := Option.some.inj (hp.symm.trans hq)
    exact h
  | @handshakeFailed s i c b hr =>
    have hnot : s ∉ w.participants := hM.not_mem (hP.handshake s b (List.mem_of_getElem? hr))
    refine iff_of_false (fun h => hnot (hfailed hr rfl (by simp [readOver]) rfl h)) ?_
    rintro (⟨h, -⟩ | ⟨h, -⟩)
    · exact hnot h
    · simp [hr] at h
  | @leaveCut e s c x he hc =>
    have hthrows : c.callback = .throws := of_decide_eq_true hret
    cases he with
    | @readFailed i b hr =>
      refine ⟨fun h => .inl ⟨hfailed hr rfl (by simp [readOver]) rfl h, hthrows⟩, ?_⟩
      rintro (⟨hmem, -⟩ | ⟨-, h⟩)
      · exact hA.keep hg (fun _ h => h) (.inl hmem) fun _ h => .inl h
      · simp [hthrows] at h
    | writeFailed => exact absurd hs (writeFailed_of_unstarted hU)
  | @leave e s c x he hc =>
    cases he with
    | @readFailed i b hr =>
      refine iff_of_false (fun h => ?_) ?_
      · exact (KeyedSet.mem_erase.1 (hfailed hr rfl (by simp [readOver]) rfl h)).2 rfl
      · rintro (⟨-, h⟩ | ⟨-, h⟩) <;> simp [hc] at h
    | writeFailed => exact absurd hs (writeFailed_of_unstarted hU)
  | joinFailed | joinAckCut | joinAckFault | leaveAckFault | removeFault => cases hret

/-- Where no write is outstanding, a step that faults spares everybody: what it says of the session
it is about is no more needed. -/
theorem spares_of_fault (hU : Unstarted w) (hne : ∀ s, e ≠ .posted s) {f : Fault}
    (hs : w.step E e = some (.fault f w')) : w.Spares e := by
  obtain ⟨ch, hc, hg⟩ := step_cases hs
  have hret : ch.returns ≠ true := fun h => nomatch hg.returns.1 h
  cases hc with
  | quiet s d b he =>
    cases e with
    | posted s => exact absurd rfl (hne s)
    | disconnectParticipant id | read s i buf c | readFailed s i c => cases he
    | _ => trivial
  | accepted => trivial
  | handshake rs d ms b hr | joinFailed hr | joined x ps hr =>
    intro hr'
    simp [hr] at hr'
  | joinAckCut _ hk | joinAckFault _ _ _ hk =>
    intro _ hk'
    simp [hk] at hk'
  | leaveAckFault _ _ hnone =>
    intro _ _ p hp
    simp [hnone] at hp
  | removeFault s hnone =>
    intro p hp
    simp [hnone] at hp
  | @leaveCut e s c x he hc =>
    have hother : c.callback = .throwsOther := by
      rcases hcb : c.callback
      · exact absurd hcb hc
      · simp [hcb] at hret
      · rfl
    cases he with
    | readFailed hr => exact .inr ⟨by simp [hr], hother⟩
    | writeFailed => exact absurd hs (writeFailed_of_unstarted hU)
  | _ => exact absurd rfl hret

/-! ## Over a run -/

theorem posted_ok (hw : (serverMachine E).Reachable (.ok w)) {s : ℕ}
    (hs : w.step E (.posted s) = some o) : ∃ w', o = .ok w' := by
  obtain ⟨x, hx, rfl⟩ := Option.map_eq_some_iff.1 hs
  obtain ⟨x', rfl, -, -⟩ :=
    WriteSide.step_cases (e := .posted) (WriteSide.deque_nil (side_reachable hw s)) hx
  exact ⟨_, rfl⟩

theorem not_owned_posted (hw : (serverMachine E).Reachable (.ok w)) {s : ℕ}
    (hs : w.step E (.posted s) = some (.ok w')) : ¬ Owned w' := by
  intro hO
  have hlen := posted_writes hw hs
  obtain ⟨x, hx⟩ := List.exists_mem_of_length_pos (l := (w'.sides s).writes) (by
    rw [Outcome.state_ok] at hlen
    omega)
  have hw' : (serverMachine E).Reachable (.ok w') :=
    hw.step (show (serverMachine E).step w (.posted s) = _ from hs)
  exact not_bufferHeld hw' s x (hO.buffers s x hx)

variable {r : List (Server × Event)}

theorem run_spared (hr : (serverMachine E).Run r (.ok w)) (hS : Machine.Steps Spares r) :
    Unstarted w ∧ Attached w := by
  refine hr.invariant_ok (I := fun w => Unstarted w ∧ Attached w) ⟨⟨fun _ => rfl, ?_⟩, ?_⟩
    (fun w e w' hw h he hs => ?_) hS
  · intro s hlt
    exact absurd hlt (Nat.not_lt_zero s)
  · intro s hlt
    exact absurd hlt (Nat.not_lt_zero s)
  · obtain ⟨hU, hA⟩ := h
    have hne : ∀ s, e ≠ .posted s := by
      rintro s rfl
      exact he
    have hP : Phase w := phase hw
    have hM : Members w := members hw
    exact ⟨hU.step hne hs, (attached_step hU hA hP hM hne hs).2 he⟩

end Server

open Server

/-- All that is needed is held, in every state of exactly the runs whose steps all spare the
holders. -/
theorem ownership_iff {E : Env} {r : List (Server × Event)} {o : Outcome Fault Server}
    (hr : (serverMachine E).Run r o) :
    (∀ r₁ w, r₁ <+: r → (serverMachine E).Run r₁ (.ok w) → Owned w)
      ↔ Machine.Steps Spares r := by
  constructor
  · intro h
    induction hr with
    | nil => simp [Machine.Steps]
    | @snoc r w e o hr hs ih =>
      have hS := ih fun r₁ w hpre => h r₁ w (hpre.trans (List.prefix_append _ _))
      refine Machine.steps_snoc.2 ⟨hS, ?_⟩
      obtain ⟨hU, hA⟩ := run_spared hr hS
      have hw : (serverMachine E).Reachable (.ok w) := ⟨r, hr⟩
      have hlast : ∀ w', o = .ok w' → Owned w' := by
        rintro w' rfl
        exact h _ w' List.prefix_rfl (hr.snoc hs)
      by_cases he : ∃ s, e = .posted s
      · obtain ⟨s, rfl⟩ := he
        obtain ⟨w', rfl⟩ := posted_ok hw hs
        exact absurd (hlast w' rfl) (not_owned_posted hw hs)
      · have hne : ∀ s, e ≠ .posted s := fun s hs => he ⟨s, hs⟩
        rcases o with w' | ⟨f, w'⟩
        · have hO := (owned_iff (hU.step hne hs)).1 (hlast w' rfl)
          exact (attached_step hU hA (phase hw) (members hw) hne hs).1 hO
        · exact spares_of_fault hU hne hs
  · intro hS r₁ w hpre hr₁
    obtain ⟨hU, hA⟩ := run_spared hr₁ fun x hx => hS x (hpre.subset hx)
    exact (owned_iff hU).2 hA

/-- Two clients log in before any handler `deliver_byte` has posted runs. The read of the first fails
and it stays a member; the second is disconnected. -/
def readsOnly : List Event :=
  joins 2 ++ [.readFailed 0 0 .throwing, .disconnectParticipant 2]

theorem ownership_iff_reads : ∃ r w, (serverMachine .counting).Run r (.ok w)
    ∧ r.map Prod.snd = readsOnly
    ∧ (w.sides 0).posted ≠ [] ∧ (w.sessions 0).reads = []
    ∧ ∀ r₁ w, r₁ <+: r → (serverMachine .counting).Run r₁ (.ok w) → Owned w := by
  have hrun : (((serverMachine .counting).restrict fun w e =>
      match e with
      | .posted _ => false
      | .readFailed s _ c => decide (s ∈ w.participants ∧ c.callback = .throws)
      | .read _ _ buf _ => decide ((receivedMessage buf).kind ≠ some .participantLeaveAck)
      | .disconnectParticipant id =>
        (w.getParticipantPtr id).all fun p => !(w.sessions p).reads.isEmpty
      | _ => true).exec Server.init readsOnly).any (Outcome.okAnd fun w =>
        !(w.sides 0).posted.isEmpty && (w.sessions 0).reads.isEmpty) = true := by
    decide +kernel
  obtain ⟨r, w, hr, hes, hw⟩ := Machine.exec_okAnd hrun
  obtain ⟨hr, hsteps⟩ := Machine.restrict_run hr
  obtain ⟨hposted, hreads⟩ := Bool.and_eq_true_iff.1 hw
  refine ⟨r, w, hr, hes, by simpa using hposted, by simpa using hreads, (ownership_iff hr).2 ?_⟩
  rintro ⟨w, e⟩ hx
  have h := hsteps _ hx
  cases e with
  | posted s => cases h
  | readFailed s i c => exact .inl (of_decide_eq_true h)
  | read s i buf c => exact fun _ hk => absurd hk (of_decide_eq_true h)
  | disconnectParticipant id =>
    intro p hp
    simpa [hp] using h
  | _ => trivial

/-- The hello of a new session is being written, and its buffer is gone. And a handshake read fails
with the hello still posted, and the session is gone. -/
theorem not_owned :
    (∃ r w, (serverMachine .counting).Run r (.ok w)
      ∧ r.map Prod.snd = [.accept (some []) 0, .posted 0]
      ∧ (∃ x ∈ (w.sides 0).writes, ¬ w.BufferHeld 0 x) ∧ ¬ Owned w)
    ∧ ∃ r w, (serverMachine .counting).Run r (.ok w)
      ∧ r.map Prod.snd = [.accept (some []) 0, .readFailed 0 0 .plain]
      ∧ (w.sides 0).posted ≠ [] ∧ ¬ w.SessionHeld 0 ∧ ¬ Owned w := by
  constructor
  · have hrun : ((serverMachine .counting).exec Server.init [.accept (some []) 0, .posted 0]).any
        (Outcome.okAnd fun w => !(w.sides 0).writes.isEmpty) = true := by
      decide +kernel
    obtain ⟨r, w, hr, hes, hw⟩ := Machine.exec_okAnd hrun
    obtain ⟨x, hx⟩ := List.exists_mem_of_ne_nil (w.sides 0).writes (by simpa using hw)
    have hnot := not_bufferHeld ⟨r, hr⟩ 0 x
    exact ⟨r, w, hr, hes, ⟨x, hx, hnot⟩, fun hO => hnot (hO.buffers 0 x hx)⟩
  · have hrun : ((serverMachine .counting).exec Server.init
        [.accept (some []) 0, .readFailed 0 0 .plain]).any (Outcome.okAnd fun w =>
          decide (w.made = 1) && !(w.sides 0).posted.isEmpty && (w.participants.isEmpty
            && (w.sessions 0).reads.isEmpty && (w.sides 0).writes.isEmpty)) = true := by
      decide +kernel
    obtain ⟨r, w, hr, hes, hw⟩ := Machine.exec_okAnd hrun
    simp only [Bool.and_eq_true, decide_eq_true_eq, Bool.not_eq_true', List.isEmpty_iff,
      List.isEmpty_eq_false_iff] at hw
    obtain ⟨⟨hmade, hposted⟩, ⟨hps, hreads⟩, hwrites⟩ := hw
    have hnot : ¬ w.SessionHeld 0 := by simp [sessionHeld_iff, hps, hreads, hwrites]
    exact ⟨r, w, hr, hes, hposted, hnot, fun hO => hnot (hO.sessions 0 (by omega) hposted)⟩

end XRNetwork
