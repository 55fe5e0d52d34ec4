import XRNetwork.Proofs.View

/-!
# Arrivals announced twice

A `PARTICIPANT_JOIN_ACK` announces its sender to every member, and every member to its sender,
whether or not they have been announced before. So of two sessions that are both members when each
sends its own, each is told of the other twice (`arrivals_once_iff`).
-/

namespace XRNetwork

namespace Server

variable {E : Env} {w : Server} {e : Event} {r : List (Server × Event)} {a b : ℕ}

/-- The session whose `PARTICIPANT_JOIN_ACK` its room loop reads in the step. -/
def joinAckOf (w : Server) : Event → Option ℕ
  | .read s i buf _ =>
    if (w.sessions s).reads[i]? = some ⟨.room, true⟩
      ∧ (receivedMessage buf).kind = some .participantJoinAck then some s else none
  | _ => none

/-- Every `PARTICIPANT_JOIN_ACK` carries the id of the session it is read from, and no session sends
two. -/
structure JoinsOnce (r : List (Server × Event)) : Prop where
  own : Machine.Steps JoinsAsItself r
  once : (r.filterMap fun x => x.1.joinAckOf x.2).Nodup

instance (w : Server) (e : Event) : Decidable (JoinsAsItself w e) :=
  match e with
  | .read .. => inferInstanceAs (Decidable (_ → _ → _))
  | .accept .. | .acceptFailed | .readFailed .. | .posted _ | .writeSome .. | .writeDone ..
  | .writeFailed .. | .disconnectParticipant _ | .disconnectAllParticipants
  | .setParticipantDeaf .. | .setMaxParticipants _ | .setKeepAlive _ | .setServiceName _
  | .stop => isTrue trivial

instance (r : List (Server × Event)) : Decidable (JoinsOnce r) :=
  decidable_of_iff ((∀ x ∈ r, JoinsAsItself x.1 x.2) ∧ (r.filterMap fun x => x.1.joinAckOf x.2).Nodup)
    ⟨fun h => ⟨h.1, h.2⟩, fun h => ⟨h.own, h.once⟩⟩

/-- What the step hands to the session. -/
def handedIn (E : Env) (a : ℕ) (w : Server) (e : Event) : List XRMessage :=
  match w.step E e with
  | some o => handedTo a (newActs w o)
  | none => []

/-- The `PARTICIPANT_NEW` about `b` handed to `a` in the steps of the run that find `b` a member:
those after it has joined and up to its removal. -/
def arrivals (E : Env) (a b : ℕ) (r : List (Server × Event)) : List XRMessage :=
  r.flatMap fun x =>
    if b ∈ x.1.participants then
      (x.1.handedIn E a x.2).filter fun m => m.Tells .participantNew (x.1.sessions b).mId
    else []

/-- The step reads a `PARTICIPANT_JOIN_ACK` of a session with the id of `a` or `b`, which is one of
the two unless ids repeat, while both are members. -/
def Acquaints (a b s : ℕ) (w : Server) (e : Event) : Prop :=
  w.joinAckOf e = some s ∧ a ∈ w.participants ∧ b ∈ w.participants
    ∧ ((w.sessions s).mId = (w.sessions a).mId ∨ (w.sessions s).mId = (w.sessions b).mId)

/-- Two sessions announce `a` and `b` to each other. -/
def Crossed (a b : ℕ) (r : List (Server × Event)) : Prop :=
  ∃ s t, s ≠ t ∧ (∃ x ∈ r, Acquaints a b s x.1 x.2) ∧ ∃ x ∈ r, Acquaints a b t x.1 x.2

/-- Of messages about different participants at most one is about a given one. -/
theorem length_filter_tells_le {ms : List XRMessage} (h : (ms.map XRMessage.participantId).Nodup)
    (k : MessageHead) (i : UInt64) : (ms.filter fun m => m.Tells k i).length ≤ 1 := by
  have hnd : ((ms.filter fun m => m.Tells k i).map XRMessage.participantId).Nodup :=
    h.sublist (List.filter_sublist.map _)
  have hid : (ms.filter fun m => m.Tells k i).map XRMessage.participantId
      = List.replicate (ms.filter fun m => m.Tells k i).length i := by
    refine List.map_eq_replicate_iff.2 fun m hm => ?_
    exact (of_decide_eq_true (List.mem_filter.1 hm).2 : m.Tells k i).2
  rw [hid] at hnd
  exact List.nodup_replicate.1 hnd

theorem Introduces.nodup (hM : Members w) {c : Choice} {id : UInt64} {l : List (ℕ × XRMessage)}
    (h : w.Introduces c id l) (ps : List ℕ) (a : ℕ) :
    ((XRNetwork.handedTo a (handedActs ps l)).map XRMessage.participantId).Nodup := by
  obtain ⟨p, x, list, hp, rfl, hx, hlist, hself, hothers, hnone⟩ := h.handedTo hM ps
  by_cases ha : a ∈ w.participants
  · rcases eq_or_ne a p with rfl | hne
    · rw [hself, participantIds hlist]
      refine List.Nodup.map_on (fun q hq q' hq' h => ?_) (hM.sorted.nodup.filter _)
      exact (hM.mId_inj (List.mem_of_mem_filter hq) (List.mem_of_mem_filter hq')).1 h
    · rw [hothers a ha hne]
      exact List.nodup_singleton _
  · rw [hnone a ha]
    exact List.nodup_nil

/-- A session is handed at most one `PARTICIPANT_NEW` about a participant in one step, and that in
an introduction. -/
theorem length_handedIn (hw : (serverMachine E).Reachable (.ok w)) {w' : Server}
    (hs : w.step E e = some (.ok w')) (a : ℕ) (i : UInt64) :
    ((w.handedIn E a e).filter fun m => m.Tells .participantNew i).length ≤ 1
      ∧ (0 < ((w.handedIn E a e).filter fun m => m.Tells .participantNew i).length
        ↔ w.Introduction a i e) := by
  obtain ⟨ch, -, hg, hh⟩ := hands hw hs
  have hin : w.handedIn E a e = handedTo a ch.acts := by
    rw [handedIn, hs, ← newActs_eq hg]
  have hpos : 0 < ((w.handedIn E a e).filter fun m => m.Tells .participantNew i).length
      ↔ w.Introduction a i e := by
    rw [← hh.new a i, List.length_pos_iff_exists_mem, hin]
    simp only [List.mem_filter, decide_eq_true_eq]
  refine ⟨?_, hpos⟩
  by_cases hI : w.Introduction a i e
  · cases e with
    | read s j buf c =>
      obtain ⟨hr, hk, -⟩ := hI
      rcases step_joinAck hr hk hs with ⟨hno, -⟩ | ⟨json, l, -, -, hl, hto⟩
      · exact absurd rfl hno
      · rw [hin, ← newActs_eq hg, hto]
        exact length_filter_tells_le (hl.nodup ((members hw).described s json) _ a) _ _
    | _ => exact hI.elim
  · have hzero := hpos.not.2 hI
    omega

/-- When all join as themselves, `a` is told of `b` by a session with the id of one of the two. -/
theorem introduction_iff (hM : Members w) (hne : a ≠ b) (hb : b ∈ w.participants)
    (hown : JoinsAsItself w e) :
    w.Introduction a (w.sessions b).mId e ↔ ∃ s, Acquaints a b s w e := by
  unfold Acquaints
  constructor
  · intro hI
    cases e with
    | read s j buf c =>
      obtain ⟨hr, hk, ha, -, -, hid⟩ := hI
      rw [hown hr hk] at hid
      exact ⟨s, by simp [joinAckOf, hr, hk], ha, hb, hid.symm⟩
    | _ => exact hI.elim
  · rintro ⟨s, hof, ha, -, hid⟩
    have hids : (w.sessions a).mId ≠ (w.sessions b).mId := (hM.mId_inj ha hb).not.2 hne
    cases e with
    | read t j buf c =>
      simp only [joinAckOf, Option.ite_none_right_eq_some, Option.some.injEq] at hof
      obtain ⟨⟨hr, hk⟩, rfl⟩ := hof
      rw [← hown hr hk] at hid
      exact ⟨hr, hk, ha, hids, ⟨b, hb, rfl⟩, hid.symm⟩
    | _ => cases hof

theorem length_flatMap_filter {α β : Type*} {f : α → List β} {p : α → Prop} [DecidablePred p] :
    ∀ {l : List α}, (∀ x ∈ l, (f x).length = if p x then 1 else 0) →
      (l.flatMap f).length = (l.filter p).length
  | [], _ => rfl
  | x :: l, h => by
    have ih := length_flatMap_filter fun y hy => h y (List.mem_cons_of_mem x hy)
    rw [List.flatMap_cons, List.length_append, h x List.mem_cons_self, ih, List.filter_cons]
    by_cases hx : p x
    · simp [hx, Nat.add_comm]
    · simp [hx]

open scoped Classical in
/-- Each step in which someone announces the two to each other adds one. -/
theorem length_arrivals (hne : a ≠ b) (hr : (serverMachine E).Run r (.ok w))
    (hown : Machine.Steps JoinsAsItself r) : (arrivals E a b r).length
      = (r.filter fun x => ∃ s, Acquaints a b s x.1 x.2).length := by
  refine length_flatMap_filter fun x hx => ?_
  obtain ⟨hw, w', hs⟩ := hr.returned hx
  have hM : Members x.1 := members hw
  by_cases hb : b ∈ x.1.participants
  · obtain ⟨hle, hpos⟩ := length_handedIn hw hs a (x.1.sessions b).mId
    rw [introduction_iff hM hne hb (hown x hx)] at hpos
    rw [if_pos hb]
    split_ifs with h
    · exact le_antisymm hle (hpos.2 h)
    · exact Nat.le_zero.1 (not_lt.1 (hpos.not.2 h))
  · rw [if_neg hb, if_neg (fun ⟨s, h⟩ => hb h.2.2.1), List.length_nil]

end Server

open Server

/-- Where every client joins as itself and once, a session is told of another's arrival at most once
while that is a member, unless the two join across each other. -/
theorem arrivals_once_iff {E : Env} {r : List (Server × Event)} {w : Server}
    (hr : (serverMachine E).Run r (.ok w)) (hj : JoinsOnce r) {a b : ℕ} (hne : a ≠ b) :
    (arrivals E a b r).length ≤ 1 ↔ ¬ Crossed a b r := by
  classical
  rw [length_arrivals hne hr hj.own]
  constructor
  · rintro hle ⟨s, t, hst, ⟨x, hx, hs⟩, y, hy, ht⟩
    have hxf : x ∈ r.filter fun x => ∃ s, Acquaints a b s x.1 x.2 :=
      List.mem_filter.2 ⟨hx, decide_eq_true ⟨s, hs⟩⟩
    have hyf : y ∈ r.filter fun x => ∃ s, Acquaints a b s x.1 x.2 :=
      List.mem_filter.2 ⟨hy, decide_eq_true ⟨t, ht⟩⟩
    obtain ⟨z, hz⟩ := List.length_eq_one_iff.1 (le_antisymm hle (List.length_pos_of_mem hxf))
    rw [hz, List.mem_singleton] at hxf hyf
    subst hxf hyf
    exact hst (Option.some.inj (hs.1.symm.trans ht.1))
  · intro hno
    by_contra hlt
    rcases hl : r.filter (fun x => ∃ s, Acquaints a b s x.1 x.2) with _ | ⟨x, _ | ⟨y, l⟩⟩ <;>
      rw [hl] at hlt
    · simp at hlt
    · simp at hlt
    have hpair : List.Sublist [x, y] (x :: y :: l) := ((List.nil_sublist l).cons_cons y).cons_cons x
    have hsub : List.Sublist [x, y] r := hpair.trans (hl ▸ List.filter_sublist)
    have hmem : ∀ z ∈ [x, y], z ∈ r ∧ ∃ s, Acquaints a b s z.1 z.2 := by
      intro z hz
      have hzf : z ∈ r.filter fun x => ∃ s, Acquaints a b s x.1 x.2 := by
        rw [hl]
        exact hpair.subset hz
      obtain ⟨hzr, h⟩ := List.mem_filter.1 hzf
      exact ⟨hzr, of_decide_eq_true h⟩
    obtain ⟨hx, s, hs⟩ := hmem x (by simp)
    obtain ⟨hy, t, ht⟩ := hmem y (by simp)
    -- two readings, so two readers
    have hnd := hj.once.sublist (hsub.filterMap _)
    simp only [List.filterMap_cons, hs.1, ht.1, List.filterMap_nil] at hnd
    refine hno ⟨s, t, ?_, ⟨x, hx, hs⟩, y, hy, ht⟩
    rintro rfl
    simp at hnd

/-- One of two clients has announced itself before the other joins. -/
def joinsInTurn : List Event :=
  joins 1 ++ [.read 0 0 (joinAckMessage 1).frame .plain, .accept (some []) 0,
    .read 1 0 ChatClient.credentialsAck.frame .plain, .read 1 0 (joinAckMessage 2).frame .plain]

theorem arrivals_once_in_turn : ∃ r w, (serverMachine .counting).Run r (.ok w)
    ∧ r.map Prod.snd = joinsInTurn ∧ JoinsOnce r ∧ ¬ Crossed 0 1 r := by
  have hrun : ((serverMachine .counting).exec Server.init joinsInTurn).any
      (Outcome.okAnd fun _ => true) = true := by
    decide +kernel
  have htrail : JoinsOnce ((serverMachine .counting).trail Server.init joinsInTurn)
      ∧ (arrivals .counting 0 1
        ((serverMachine .counting).trail Server.init joinsInTurn)).length ≤ 1 := by
    decide +kernel
  obtain ⟨w, hr, hes, -⟩ := Machine.exec_trail hrun
  exact ⟨_, w, hr, hes, htrail.1, (arrivals_once_iff hr htrail.1 (by decide)).1 htrail.2⟩

/-- Both clients join before either announces itself. -/
def joinsAcross : List Event :=
  joins 2 ++ [.read 0 0 (joinAckMessage 1).frame .plain, .read 1 0 (joinAckMessage 2).frame .plain]

/-- Each is then told twice of the other. -/
theorem arrives_twice : ∃ r w, (serverMachine .counting).Run r (.ok w)
    ∧ r.map Prod.snd = joinsAcross ∧ JoinsOnce r
    ∧ (arrivals .counting 0 1 r).length = 2 ∧ (arrivals .counting 1 0 r).length = 2 := by
  have hrun : ((serverMachine .counting).exec Server.init joinsAcross).any
      (Outcome.okAnd fun _ => true) = true := by
    decide +kernel
  have htrail : JoinsOnce ((serverMachine .counting).trail Server.init joinsAcross)
      ∧ (arrivals .counting 0 1
        ((serverMachine .counting).trail Server.init joinsAcross)).length = 2
      ∧ (arrivals .counting 1 0
        ((serverMachine .counting).trail Server.init joinsAcross)).length = 2 := by
    decide +kernel
  obtain ⟨w, hr, hes, -⟩ := Machine.exec_trail hrun
  exact ⟨_, w, hr, hes, htrail⟩

end XRNetwork
