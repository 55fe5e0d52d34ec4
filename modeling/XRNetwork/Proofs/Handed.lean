import XRNetwork.Proofs.Agreement

/-!
# What a write side was given

The trace has a `deliver_byte` for every buffer a session's write side was given and no other: the
buffers are the bytes of the messages the session was told (`delivered_eq`).
-/

namespace XRNetwork

namespace Server

variable {E : Env} {w : Server} {e : Event} {o : Outcome Fault Server}

/-- The write sides were given what the trace says. -/
def Synced (w : Server) : Prop := ∀ s, (w.sides s).delivered = (w.told s).map XRMessage.data

/-- Entries of the trace that hand nothing to anybody. -/
theorem told_of_silent {w' : Server} {acts : List (ℕ × Act)} (ht : w'.trace = w.trace ++ acts)
    (ha : ∀ x ∈ acts, ∀ s m b, x.2 ≠ .handed s m b) (a : ℕ) : w'.told a = w.told a := by
  have hnil : handedTo a (acts.map Prod.snd) = [] := by
    refine List.eq_nil_iff_forall_not_mem.2 fun m hm => ?_
    obtain ⟨b, hb⟩ := mem_handedTo.1 hm
    obtain ⟨x, hx, hxb⟩ := List.mem_map.1 hb
    exact ha x hx a m b hxb
  rw [told, ht, List.map_append, handedTo, List.filterMap_append]
  exact (congrArg _ hnil).trans (List.append_nil _)

theorem Synced.silent (h : Synced w) {w' : Server} {acts : List (ℕ × Act)}
    (hs : ∀ s, (w'.sides s).delivered = (w.sides s).delivered) (ht : w'.trace = w.trace ++ acts)
    (ha : ∀ x ∈ acts, ∀ s m b, x.2 ≠ .handed s m b) : Synced w' := by
  intro s
  rw [hs, h s, told_of_silent ht ha]

/-- What hands nothing to anybody and leaves the trace as it is. -/
theorem Synced.same (h : Synced w) {w' : Server}
    (hs : ∀ s, (w'.sides s).delivered = (w.sides s).delivered) (ht : w'.trace = w.trace) :
    Synced w' :=
  Synced.silent h hs (ht.trans (List.append_nil _).symm) (by simp)

theorem Synced.log (h : Synced w) {a : Act} (ha : ∀ s m b, a ≠ .handed s m b) :
    Synced (w.log a) :=
  h.silent (fun _ => rfl) rfl (by simpa using ha)

theorem Synced.setSide (h : Synced w) {s : ℕ} {x : WriteSide}
    (hx : x.delivered = (w.sides s).delivered) : Synced (w.setSide s x) := by
  refine h.same (fun t => ?_) rfl
  rcases eq_or_ne t s with rfl | hne
  · simpa [Server.setSide] using hx
  · simp [Server.setSide, hne]

theorem Synced.disconnect (h : Synced w) (s : ℕ) : Synced (w.disconnect s) := h.setSide rfl

theorem Synced.deliverByte (h : Synced w) (s : ℕ) (m : XRMessage) : Synced (w.deliverByte s m) := by
  intro t
  have ht : (w.deliverByte s m).told t = w.told t ++ if s = t then [m] else [] := by
    simp only [told, Server.deliverByte, Server.log, Server.setSide, List.map_append, handedTo,
      List.filterMap_append]
    refine congrArg _ ?_
    split_ifs with h <;> simp [h]
  rw [ht]
  rcases eq_or_ne s t with rfl | hne
  · simp [Server.deliverByte, Server.setSide, WriteSide.deliverByte, h s]
  · simp [Server.deliverByte, Server.setSide, hne, hne.symm, h t]

theorem Synced.deliverList : ∀ (l : List (ℕ × XRMessage)) {w : Server}, Synced w →
    Synced (w.deliverList l)
  | [], _, h => h
  | x :: l, _, h => Synced.deliverList l (h.deliverByte x.1 x.2)

theorem Synced.eraseParticipant (h : Synced w) (s : ℕ) : Synced (w.eraseParticipant s) := by
  refine h.silent (fun _ => rfl) rfl fun x hx => ?_
  obtain ⟨p, -, rfl⟩ := List.mem_map.1 hx
  simp

theorem Synced.insertParticipant (h : Synced w) (s : ℕ) : Synced (w.insertParticipant s) := by
  refine h.silent (fun _ => rfl) rfl ?_
  split_ifs <;> simp

theorem Synced.drawId (h : Synced w) (s : ℕ) : Synced (w.drawId E s) :=
  h.silent (fun _ => rfl) rfl (by simp)

theorem Synced.disconnectAllParticipants (h : Synced w) : Synced w.disconnectAllParticipants := by
  have key : ∀ (l : List ℕ) {w : Server}, Synced w →
      Synced (l.foldl (fun w p => w.disconnect p) w) := by
    intro l
    induction l with
    | nil => exact fun h => h
    | cons p l ih => exact fun h => ih (h.disconnect p)
  exact key _ h

theorem Synced.broadcastLeave (h : Synced w) (s : ℕ) (id : UInt64) :
    Synced (w.broadcastLeave s id) := by
  rw [broadcastLeave_eq]
  exact Synced.deliverList _ (h.log (by simp))

theorem Synced.leave (h : Synced w) (c : Choice) (s : ℕ) : Synced (w.leave c s).state := by
  have hlog : Synced (w.log (.signalLeave s (w.sessions s).mId)) := h.log (by simp)
  unfold Server.leave
  cases c.callback with
  | returns => exact (hlog.eraseParticipant s).broadcastLeave s _
  | throws | throwsOther => exact hlog

theorem Synced.disconnectParticipant (h : Synced w) (id : UInt64) :
    Synced (w.disconnectParticipant id).state := by
  rcases hp : w.getParticipantPtr id with _ | p
  · rwa [disconnectParticipant_of_none _ hp]
  · rw [disconnectParticipant_of_some _ hp]
    exact (h.eraseParticipant p).broadcastLeave p _

theorem Synced.initNewParticipant (h : Synced w) (c : Choice) (id : UInt64) :
    Synced (w.initNewParticipant c id).state := by
  rcases w.initNewParticipant_cases c id with
    ⟨-, h'⟩ | ⟨p, -, ⟨-, h'⟩ | ⟨newp, -, ⟨-, h'⟩ | ⟨list, -, h'⟩⟩⟩ <;> rw [h']
  · exact h
  · exact h
  · exact Synced.deliverList _ h
  · exact Synced.deliverList _ h

theorem Synced.join (h : Synced w) (E : Env) (c : Choice) (s : ℕ) :
    Synced (w.join E c s).state := by
  have hlog : Synced (w.log (.joinCalled s)) := h.log (by simp)
  have hdrawn : Synced ((w.log (.joinCalled s)).drawId E s) := hlog.drawId s
  have hfilled : Synced (((w.log (.joinCalled s)).drawId E s).fillInfo s) :=
    hdrawn.same (fun _ => rfl) rfl
  unfold Server.join
  simp only []
  split_ifs
  · exact hlog.disconnect s
  · exact (hfilled.insertParticipant s).log (by simp)
  · exact (hfilled.insertParticipant s).log (by simp)
  · exact hdrawn

theorem Synced.onRead (h : Synced w) (E : Env) (c : Choice) (s : ℕ) (loop : ReadLoop)
    (m : XRMessage) : Synced (w.onRead E c s loop m).state := by
  have hlog : Synced (w.log (.received s loop m)) := h.log (by simp)
  unfold Server.onRead
  cases loop with
  | handshake =>
    simp only [onReadHandshake]
    split
    · refine Outcome.state_andThen ?_ fun w h => h.same (fun _ => rfl) rfl
      unfold checkHandshakeHelloAck
      split
      · exact hlog
      · exact Synced.deliverByte (hlog.same (fun _ => rfl) rfl) s _
    · unfold checkHandshakeCredentialsAck
      refine Outcome.state_andThen ?_ fun w h => h.deliverByte s _
      refine Synced.join ?_ E c s
      split_ifs
      · exact hlog.same (fun _ => rfl) rfl
      · exact (hlog.disconnect s).same (fun _ => rfl) rfl
    · exact hlog.same (fun _ => rfl) rfl
  | room =>
    refine Outcome.state_andThen ?_ fun w h => h.same (fun _ => rfl) rfl
    unfold onRoomFrame
    split
    · split
      · exact hlog
      · refine Synced.initNewParticipant (Synced.log ?_ (by simp)) c _
        exact hlog.same (fun _ => rfl) rfl
    · exact hlog
    · rw [deliverToAllExceptToOne_eq]
      exact Synced.deliverList _ (hlog.log (by simp))
    · exact (hlog.log (by simp)).disconnectParticipant _
    · exact hlog.disconnect s

/-- A session that is not made yet has been told nothing. -/
theorem told_unmade (h : (serverMachine E).Reachable o) {s : ℕ} (hs : o.state.made ≤ s) :
    o.state.told s = [] := by
  refine h.invariant (I := fun w => w.made ≤ s → w.told s = []) (fun _ => rfl)
    (fun w e o hw hI hstep hle => ?_) hs
  have hP : Phase w := phase hw
  have hM : Members w := members hw
  obtain ⟨ch, hc, hg⟩ := step_cases (show w.step E e = some o from hstep)
  have hmade : w.made ≤ ch.made := by
    rcases hc.reads with ⟨h, -⟩ | ⟨-, h, -⟩ | ⟨-, -, -, -, h, -⟩ <;> omega
  rw [hg.made] at hle
  rw [told_step hg, hI (by omega), List.nil_append]
  refine List.eq_nil_iff_forall_not_mem.2 fun m hm => ?_
  cases hc.speaks hP hstep s with
  | hello h =>
    obtain ⟨⟨rfl, h⟩, -⟩ := h m hm
    omega
  | credentials h =>
    have := (h m hm).1
    omega
  | join h =>
    have := (h m hm).1.2
    omega
  | room h =>
    exact (hP.fresh s (by omega)).2 (hM.joined s (hM.inserted s (h m hm).1))

theorem Synced.onAccept (h : Synced w) (hnew : w.told w.made = []) (E : Env) (ip : Option Bytes)
    (t : UInt64) : Synced (w.onAccept E ip t).state := by
  unfold Server.onAccept
  cases ip with
  | none => exact h.same (fun _ => rfl) rfl
  | some ip =>
    refine Outcome.state_andThen ?_ fun w h => h.same (fun _ => rfl) rfl
    have hfresh : Synced ((w.setSession w.made (.fresh ip)).setSide w.made .fresh) := by
      refine Synced.setSide (w := w.setSession w.made (.fresh ip)) h ?_
      rw [show ((w.setSession w.made (.fresh ip)).sides w.made) = w.sides w.made from rfl,
        h w.made, hnew]
      rfl
    unfold doStartHandshake
    simp only []
    split
    · exact hfresh.same (fun _ => rfl) rfl
    · exact Synced.deliverByte (hfresh.same (fun _ => rfl) rfl) _ _

theorem WriteSide.delivered_step {x : WriteSide} {e : WriteEvent} {o : Outcome Fault WriteSide}
    (hd : x.deque = []) (he : ∀ b, e ≠ .deliverByte b) (hs : x.step e = some o) :
    o.state.delivered = x.delivered := by
  obtain ⟨x', rfl, -, heff⟩ := WriteSide.step_cases hd hs
  cases e with
  | deliverByte b => exact absurd rfl (he b)
  | posted =>
    obtain ⟨b, rest, -, rfl⟩ := heff
    rfl
  | writeSome | writeDone | writeFailed =>
    obtain ⟨y, -, h⟩ := heff
    simp_all
  | close =>
    obtain rfl : x' = _ := heff
    rfl

theorem synced_step (hw : (serverMachine E).Reachable (.ok w)) (h : Synced w)
    (hs : w.step E e = some o) : Synced o.state := by
  have htick : Synced w.tick := h
  have hdeque : ∀ s, (w.sides s).deque = [] := fun s => WriteSide.deque_nil (side_reachable hw s)
  have hput : ∀ {s : ℕ} (we : WriteEvent) {x : Outcome Fault WriteSide}, (∀ b, we ≠ .deliverByte b) →
      (w.sides s).step we = some x → Synced (w.tick.putSide s x).state := by
    intro s we x hwe hx
    have hd := WriteSide.delivered_step (hdeque s) hwe hx
    cases x <;> exact htick.setSide hd
  cases e with
  | accept ip t =>
    simp only [step] at hs
    split_ifs at hs
    cases hs
    exact htick.onAccept (told_unmade hw le_rfl) E ip t
  | acceptFailed =>
    simp only [step] at hs
    split_ifs at hs
    cases hs
    exact h
  | read s i buf c =>
    simp only [step] at hs
    split at hs
    · cases hs
      exact Synced.onRead (w := w.tick.dropRead s i) h E c s _ _
    · cases hs
  | readFailed s i c =>
    simp only [step] at hs
    split at hs
    · rename_i loop _ _
      cases hs
      cases loop with
      | handshake => exact Synced.disconnect (w := w.tick.dropRead s i) h s
      | room => exact Synced.leave (w := w.tick.dropRead s i) h c s
    · cases hs
  | posted s =>
    obtain ⟨x, hx, rfl⟩ := Option.map_eq_some_iff.1 hs
    exact hput .posted (by simp) hx
  | writeSome s i k =>
    obtain ⟨x, hx, rfl⟩ := Option.map_eq_some_iff.1 hs
    exact hput (.writeSome i k) (x := .ok x) (by simp)
      (Option.map_eq_some_iff.2 ⟨x, hx, rfl⟩)
  | writeDone s i =>
    obtain ⟨x, hx, rfl⟩ := Option.map_eq_some_iff.1 hs
    exact hput (.writeDone i) (by simp) hx
  | writeFailed s i c =>
    obtain ⟨x, hx, rfl⟩ := Option.map_eq_some_iff.1 hs
    refine Synced.leave (htick.setSide ?_) c s
    exact WriteSide.delivered_step (e := .writeFailed i) (o := .ok x) (hdeque s) (by simp)
      (Option.map_eq_some_iff.2 ⟨x, hx, rfl⟩)
  | disconnectParticipant id =>
    cases hs
    exact htick.disconnectParticipant id
  | disconnectAllParticipants | stop =>
    cases hs
    exact htick.disconnectAllParticipants
  | setParticipantDeaf id deaf =>
    cases hs
    unfold setParticipantDeaf
    split
    · exact htick
    · exact htick
  | setMaxParticipants | setKeepAlive | setServiceName =>
    cases hs
    exact h

theorem delivered_eq (h : (serverMachine E).Reachable o) (s : ℕ) :
    (o.state.sides s).delivered = (o.state.told s).map XRMessage.data :=
  h.invariant (I := Synced) (fun _ => rfl) (fun _ _ _ hw hI hs => synced_step hw hI hs) s

end Server

end XRNetwork
