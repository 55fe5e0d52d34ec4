import XRNetwork.Proofs.Departure

/-!
# Relayed updates

An update read from a session is handed, as it was read, to every member with another id, once, and
nothing else changes (`relay_exact`). No other step hands out an update (`Case.updates`), so no step
hands two to one member, and any two members get the updates they both get in the order of the
steps (`relay_exact_and_ordered`).
-/

namespace XRNetwork

open Stamped

/-- The update the act hands to the session, if it does. -/
def Act.updateTo (a : ℕ) : Act → Option XRMessage
  | .handed dst m _ => if dst = a ∧ m.kind = some .participantUpdateAck then some m else none
  | _ => none

/-- The updates handed to the session, with the steps that relayed them. -/
def relayedTo (a : ℕ) (tr : List (ℕ × Act)) : List (ℕ × XRMessage) :=
  tr.filterMap fun x => (x.2.updateTo a).map fun m => (x.1, m)

namespace Server

variable {E : Env} {w : Server} {e : Event} {ch : Change} {o : Outcome Fault Server}

theorem relayedTo_append {tr : List (ℕ × Act)} {acts : List Act} {t a : ℕ} :
    relayedTo a (tr ++ acts.map fun x => (t, x)) =
      relayedTo a tr ++ (acts.filterMap (Act.updateTo a)).map fun m => (t, m) := by
  simp only [relayedTo, List.filterMap_append, List.filterMap_map, List.map_filterMap]
  rfl

theorem Introduces.kind {c : Choice} {id : UInt64} {l : List (ℕ × XRMessage)}
    (h : w.Introduces c id l) : ∀ x ∈ l, x.2.kind = some .participantNew := by
  obtain ⟨p, newp, list, -, -, -, rfl⟩ := h
  intro x hx
  rcases List.mem_append.1 hx with hx | hx <;> obtain ⟨q, -, rfl⟩ := List.mem_map.1 hx <;>
    exact kind_participantNew _

/-- A step hands out no update, or relays one to the members with another id. -/
theorem Case.updates (hc : w.Case E e ch) :
    (∀ d m b, .handed d m b ∈ ch.acts → m.kind ≠ some .participantUpdateAck) ∨
    ∃ s i buf c, e = .read s i buf c ∧ ch.acts = .received s .room (receivedMessage buf) ::
      .relayed s :: handedActs w.participants
        ((w.others (w.sessions s).mId).map fun p => (p, receivedMessage buf)) := by
  cases hc with
  | relay => exact .inr ⟨_, _, _, _, rfl, rfl⟩
  | accepted _ _ ms _ hms =>
    refine .inl fun d m b h => ?_
    simp only [mem_handedActs, List.mem_map, exists_exists_and_eq_and, Act.handed.injEq] at h
    obtain ⟨m, hm, -, rfl, -⟩ := h
    simp [hms m hm]
  | handshake rs d ms b hr hk hrs hms =>
    refine .inl fun d m b h => ?_
    simp at h
    simp [hms m h.1]
  | refused =>
    refine .inl fun d m b h => ?_
    simp at h
    obtain ⟨-, rfl, -⟩ := h
    simp
  | joined =>
    refine .inl fun d m b h => ?_
    simp at h
    obtain ⟨-, -, rfl, -⟩ := h
    simp
  | joinAckFault json l hr hk hj hl =>
    refine .inl fun d m b h => ?_
    simp at h
    simp [(hl _ h.1).2]
  | joinAck json l hr hk hj hl =>
    refine .inl fun d m b h => ?_
    simp at h
    simp [hl.kind _ h.1]
  | leaveAck | remove | leave =>
    refine .inl fun d m b h => ?_
    simp at h
    obtain ⟨-, rfl, -⟩ := h
    simp
  | _ => exact .inl fun d m b h => by simp at h

theorem updateTo_handedActs {ps : List ℕ} {m : XRMessage} {a : ℕ}
    (hm : m.kind = some .participantUpdateAck) : ∀ {l : List ℕ}, l.Nodup →
    (handedActs ps (l.map fun p => (p, m))).filterMap (Act.updateTo a) =
      if a ∈ l then [m] else []
  | [], _ => rfl
  | p :: l, hl => by
    obtain ⟨hp, hl⟩ := List.nodup_cons.1 hl
    have ih : (handedActs ps (l.map fun p => (p, m))).filterMap (Act.updateTo a) =
        if a ∈ l then [m] else [] := updateTo_handedActs hm hl
    have hcons : handedActs ps ((p :: l).map fun p => (p, m)) =
        .handed p m (decide (p ∈ ps)) :: handedActs ps (l.map fun p => (p, m)) := rfl
    rw [hcons, List.filterMap_cons, ih]
    rcases eq_or_ne p a with rfl | hne
    · simp [Act.updateTo, hm, hp]
    · simp [Act.updateTo, hne, hne.symm]

theorem length_updateTo (hM : Members w) (hc : w.Case E e ch) (a : ℕ) :
    (ch.acts.filterMap (Act.updateTo a)).length ≤ 1 := by
  have hnone : ∀ {acts : List Act}, (∀ d m b, .handed d m b ∈ acts →
      m.kind ≠ some .participantUpdateAck) → acts.filterMap (Act.updateTo a) = [] := by
    intro acts h
    refine List.filterMap_eq_nil_iff.2 fun x hx => ?_
    cases x with
    | handed d m b => simp [Act.updateTo, h d m b hx]
    | _ => rfl
  rcases hc.updates with h | ⟨s, i, buf, c, -, hacts⟩
  · simp [hnone h]
  · rw [hacts]
    by_cases hk : (receivedMessage buf).kind = some .participantUpdateAck
    · have hnd : (w.others (w.sessions s).mId).Nodup := hM.sorted.nodup.filter _
      simp only [List.filterMap_cons, Act.updateTo, updateTo_handedActs hk hnd]
      split_ifs <;> simp
    · rw [hnone]
      · simp
      · intro d m b h
        simp at h
        rwa [← h.2.1]

theorem relayedTo_pairwise (h : (serverMachine E).Reachable o) (a : ℕ) :
    (relayedTo a o.state.trace).Pairwise fun x y => x.1 < y.1 := by
  refine reachable_cases (I := fun w => (relayedTo a w.trace).Pairwise fun x y => x.1 < y.1)
    (by simp [init, relayedTo]) (fun w e ch o hw hI hc hg => ?_) h
  rw [hg.trace, relayedTo_append, List.pairwise_append]
  refine ⟨hI, ?_, fun x hx y hy => ?_⟩
  · have hlen := length_updateTo (members hw) hc a
    rcases hl : ch.acts.filterMap (Act.updateTo a) with _ | ⟨m, _ | _⟩
    · simp
    · simp
    · simp [hl] at hlen
  · obtain ⟨⟨t, act⟩, ht, hx⟩ := List.mem_filterMap.1 hx
    obtain ⟨m, -, rfl⟩ := Option.map_eq_some_iff.1 hx
    obtain ⟨m', -, rfl⟩ := List.mem_map.1 hy
    exact Nat.lt_succ_of_le (stamps_le hw _ ht)

/-- What the relay of a frame read from `s` leaves: every other member has been handed the frame
once, nobody else has been handed anything, and members, ids and descriptors are the same. -/
structure RelayedOnce (w : Server) (s : ℕ) (buf : Buffer 65536) (w' : Server) : Prop where
  participants : w'.participants = w.participants
  mId : ∀ p, (w'.sessions p).mId = (w.sessions p).mId
  mDescriptor : ∀ p, (w'.sessions p).mDescriptor = (w.sessions p).mDescriptor
  delivered : ∀ a, (w'.sides a).delivered = (w.sides a).delivered ++
    if a ∈ w.participants ∧ (w.sessions a).mId ≠ (w.sessions s).mId then [buf.toList] else []

theorem delivered_foldl : ∀ (bs : List Bytes) (x : WriteSide),
    (bs.foldl WriteSide.deliverByte x).delivered = x.delivered ++ bs
  | [], x => by simp
  | b :: bs, x => by
    rw [List.foldl_cons, delivered_foldl bs]
    simp [WriteSide.deliverByte]

/-- Of the frames handed to distinct sessions each session is handed its own. -/
theorem snd_of_pairs {m : XRMessage} {a : ℕ} : ∀ {l : List ℕ}, l.Nodup →
    (((l.map fun p => (p, m)).filter fun x => x.1 = a).map Prod.snd) =
      if a ∈ l then [m] else []
  | [], _ => rfl
  | p :: l, hl => by
    obtain ⟨hp, hl⟩ := List.nodup_cons.1 hl
    have ih := snd_of_pairs (m := m) (a := a) hl
    rw [List.map_cons, List.filter_cons]
    rcases eq_or_ne p a with rfl | hne
    · simp [ih, hp]
    · simp [ih, hne, hne.symm]

theorem data_of_pairs {m : XRMessage} {a : ℕ} {l : List ℕ} (hl : l.Nodup) :
    (((l.map fun p => (p, m)).filter fun x => x.1 = a).map fun x => x.2.data) =
      if a ∈ l then [m.data] else [] := by
  calc _ = (((l.map fun p => (p, m)).filter fun x => x.1 = a).map Prod.snd).map XRMessage.data := by
        rw [List.map_map]
        rfl
    _ = _ := by
        rw [snd_of_pairs hl]
        split_ifs <;> rfl

/-- The step that reads an update in the room loop. -/
theorem step_relay {s i : ℕ} {buf : Buffer 65536} {c : Choice}
    (hr : (w.sessions s).reads[i]? = some ⟨.room, true⟩)
    (hk : (receivedMessage buf).kind = some .participantUpdateAck) :
    w.step E (.read s i buf c) = some (.ok (((((w.tick.dropRead s i).log
      (.received s .room (receivedMessage buf))).log (.relayed s)).deliverList
        ((w.others (w.sessions s).mId).map fun p => (p, receivedMessage buf))).doReadByte s)) := by
  have hothers : ∀ a b, (((w.tick.dropRead s i).log a).log b).others
      ((w.tick.dropRead s i).sessions s).mId = w.others (w.sessions s).mId := by
    intro a b
    rw [(w.sameRoom_dropRead s i).mId]
    exact (w.sameRoom_dropRead s i).others _
  simp only [step, hr, onRead, onReadRoom, onRoomFrame, hk, Outcome.ok_andThen,
    deliverToAllExceptToOne_eq, log_sessions, hothers]

theorem sameRoom_doReadByte (w : Server) (s : ℕ) : SameRoom w (w.doReadByte s) :=
  w.sameRoom_setSession (x := { w.sessions s with
    reads := (w.sessions s).reads ++ [⟨.room, (w.sides s).isOpen⟩] }) rfl rfl

theorem relay_exact (hM : Members w) {s i : ℕ} {buf : Buffer 65536} {c : Choice}
    (hr : (w.sessions s).reads[i]? = some ⟨.room, true⟩)
    (hk : (receivedMessage buf).kind = some .participantUpdateAck) :
    ∃ w', w.step E (.read s i buf c) = some (.ok w') ∧ RelayedOnce w s buf w' := by
  have hdrop := w.sameRoom_dropRead s i
  have hnd : (w.others (w.sessions s).mId).Nodup := hM.sorted.nodup.filter _
  refine ⟨_, step_relay hr hk, ?_, fun p => ?_, fun p => ?_, fun a => ?_⟩
  · simp [doReadByte, setSession, dropRead, tick]
  · rw [(sameRoom_doReadByte _ s).mId, deliverList_sessions]
    exact hdrop.mId p
  · rw [(sameRoom_doReadByte _ s).mDescriptor, deliverList_sessions]
    exact hdrop.mDescriptor p
  · show ((deliverList _ _).sides a).delivered = _
    rw [deliverList_sides, delivered_foldl, data_of_pairs hnd, receivedMessage_data]
    simp only [mem_others]
    rfl

end Server

open Server

/-- In a run every update read from a session is handed, byte for byte, to every other member once
and to nobody else, and changes neither the members nor their descriptors; and any two sessions are
handed the updates that both of them are handed in the same order. -/
theorem relay_exact_and_ordered {E : Env} {r : List (Server × Event)} {o : Outcome Fault Server}
    (hr : (serverMachine E).Run r o) :
    (∀ w s i buf c, (w, .read s i buf c) ∈ r → (w.sessions s).reads[i]? = some ⟨.room, true⟩ →
      (receivedMessage buf).kind = some .participantUpdateAck →
      ∃ w', w.step E (.read s i buf c) = some (.ok w') ∧ RelayedOnce w s buf w')
    ∧ ∀ a b, ((relayedTo a o.state.trace).filter fun x => x ∈ relayedTo b o.state.trace) =
      (relayedTo b o.state.trace).filter fun x => x ∈ relayedTo a o.state.trace := by
  refine ⟨fun w s i buf c hx hread hk => ?_, fun a b => ?_⟩
  · obtain ⟨r₀, -, hw, -, -⟩ := hr.before hx
    exact relay_exact (members ⟨r₀, hw⟩) hread hk
  · exact filter_mem_comm (relayedTo_pairwise ⟨r, hr⟩ a) (relayedTo_pairwise ⟨r, hr⟩ b)

/-- Three clients join, the first two send updates, the third leaves between them. -/
def twoUpdates : List Event :=
  [.accept (some []) 0, .accept (some []) 0, .accept (some []) 0,
    .read 0 0 ChatClient.credentialsAck.frame .plain,
    .read 1 0 ChatClient.credentialsAck.frame .plain,
    .read 2 0 ChatClient.credentialsAck.frame .plain,
    .read 0 0 (ChatClient.updateAck 1 0 (.zero 12)).frame .plain, .readFailed 2 0 .plain,
    .read 1 0 (ChatClient.updateAck 2 0 (.zero 12)).frame .plain]

theorem relay_exact_and_ordered_three : ∃ r w, (serverMachine .counting).Run r (.ok w)
    ∧ r.map Prod.snd = twoUpdates
    ∧ (relayedTo 1 w.trace).map Prod.fst = [7] ∧ (relayedTo 2 w.trace).map Prod.fst = [7]
    ∧ ((relayedTo 1 w.trace).filter fun x => x ∈ relayedTo 2 w.trace) =
      (relayedTo 2 w.trace).filter fun x => x ∈ relayedTo 1 w.trace := by
  have hrun : ((serverMachine .counting).exec Server.init twoUpdates).any
      (Outcome.okAnd fun w => (relayedTo 1 w.trace).map Prod.fst = [7]
        ∧ (relayedTo 2 w.trace).map Prod.fst = [7]) = true := by
    decide +kernel
  obtain ⟨r, w, hr, hes, hw⟩ := Machine.exec_okAnd hrun
  obtain ⟨h1, h2⟩ := of_decide_eq_true hw
  exact ⟨r, w, hr, hes, h1, h2, (relay_exact_and_ordered hr).2 1 2⟩

end XRNetwork
