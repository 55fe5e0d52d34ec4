import XRNetwork.Server

/-!
# What the room's calls do

Every call that hands out frames ends in a row of `deliver_byte` calls, `deliverList`, which leaves
the sessions and the set alone and appends one entry each to the trace. The loops over
`participants_` are rewritten to it once, and each call of the room gets one lemma that says how it
ends.
-/

namespace XRNetwork

/-- The acts of a row of `deliver_byte` calls while `ps` are the members. -/
def handedActs (ps : List ℕ) (l : List (ℕ × XRMessage)) : List Act :=
  l.map fun x => .handed x.1 x.2 (decide (x.1 ∈ ps))

@[simp] theorem handedActs_nil (ps : List ℕ) : handedActs ps [] = [] := rfl

namespace Server

variable (w : Server)

@[simp] theorem log_sessions (a : Act) : (w.log a).sessions = w.sessions := rfl
@[simp] theorem log_sides (a : Act) : (w.log a).sides = w.sides := rfl
@[simp] theorem log_participants (a : Act) : (w.log a).participants = w.participants := rfl
@[simp] theorem log_clock (a : Act) : (w.log a).clock = w.clock := rfl
@[simp] theorem log_made (a : Act) : (w.log a).made = w.made := rfl
@[simp] theorem log_drawn (a : Act) : (w.log a).drawn = w.drawn := rfl
@[simp] theorem log_key (a : Act) : (w.log a).key = w.key := rfl
@[simp] theorem log_maxParticipants (a : Act) :
    (w.log a).maxParticipants = w.maxParticipants := rfl
@[simp] theorem log_trace (a : Act) : (w.log a).trace = w.trace ++ [(w.clock, a)] := rfl

@[simp] theorem getParticipantPtr_log (a : Act) (id : UInt64) :
    (w.log a).getParticipantPtr id = w.getParticipantPtr id := rfl

theorem getParticipantPtr_eq_none {w : Server} {id : UInt64} :
    w.getParticipantPtr id = none ↔ ∀ p ∈ w.participants, (w.sessions p).mId ≠ id := by
  rw [getParticipantPtr, KeyedSet.find_eq_none]
  simp only [key, ne_eq, UInt64.toNat_inj]

/-- A row of `deliver_byte` calls. -/
def deliverList (l : List (ℕ × XRMessage)) (w : Server) : Server :=
  l.foldl (fun w x => w.deliverByte x.1 x.2) w

theorem deliverList_cons (x : ℕ × XRMessage) (l : List (ℕ × XRMessage)) :
    w.deliverList (x :: l) = (w.deliverByte x.1 x.2).deliverList l := rfl

theorem deliverList_append (l l' : List (ℕ × XRMessage)) :
    w.deliverList (l ++ l') = (w.deliverList l).deliverList l' := List.foldl_append

theorem deliverByte_eq (s : ℕ) (m : XRMessage) : w.deliverByte s m = w.deliverList [(s, m)] := rfl

theorem foldl_deliverByte {α : Type*} (f : α → ℕ × XRMessage) (l : List α) :
    l.foldl (fun w a => w.deliverByte (f a).1 (f a).2) w = w.deliverList (l.map f) := by
  unfold deliverList
  rw [List.foldl_map]

/-- `deliver_byte` calls change the write sides and the trace, nothing else. -/
theorem deliverList_eq : ∀ (l : List (ℕ × XRMessage)) (w : Server),
    w.deliverList l = { w with
      sides := (w.deliverList l).sides
      trace := w.trace ++
        l.map fun x => (w.clock, .handed x.1 x.2 (decide (x.1 ∈ w.participants))) }
  | [], w => by simp [deliverList]
  | x :: l, w => by
    rw [deliverList_cons, deliverList_eq l]
    simp only [deliverByte, log, setSide, List.map_cons, List.append_assoc,
      List.singleton_append]
    rfl

section deliverList

variable (l : List (ℕ × XRMessage))

@[simp] theorem deliverList_sessions : (w.deliverList l).sessions = w.sessions := by
  rw [deliverList_eq]
@[simp] theorem deliverList_participants : (w.deliverList l).participants = w.participants := by
  rw [deliverList_eq]
@[simp] theorem deliverList_clock : (w.deliverList l).clock = w.clock := by rw [deliverList_eq]
@[simp] theorem deliverList_made : (w.deliverList l).made = w.made := by rw [deliverList_eq]
@[simp] theorem deliverList_drawn : (w.deliverList l).drawn = w.drawn := by rw [deliverList_eq]
@[simp] theorem deliverList_maxParticipants :
    (w.deliverList l).maxParticipants = w.maxParticipants := by rw [deliverList_eq]
@[simp] theorem deliverList_key : (w.deliverList l).key = w.key := by
  unfold key
  simp

theorem deliverList_trace : (w.deliverList l).trace = w.trace ++
    (handedActs w.participants l).map fun a => (w.clock, a) := by
  rw [deliverList_eq, handedActs, List.map_map]
  rfl

end deliverList

/-- The write side of a session takes the buffers handed to it, in order. -/
theorem deliverList_sides : ∀ (l : List (ℕ × XRMessage)) (w : Server) (s : ℕ),
    (w.deliverList l).sides s =
      ((l.filter fun x => x.1 = s).map fun x => x.2.data).foldl WriteSide.deliverByte (w.sides s)
  | [], w, s => rfl
  | x :: l, w, s => by
    rw [deliverList_cons, deliverList_sides l, List.filter_cons]
    by_cases h : x.1 = s
    · subst h
      simp [deliverByte, setSide]
    · simp [deliverByte, setSide, h, Function.update_of_ne (Ne.symm h)]

theorem foldl_deliverByte_isOpen : ∀ (bs : List Bytes) (x : WriteSide),
    (bs.foldl WriteSide.deliverByte x).isOpen = x.isOpen
  | [], _ => rfl
  | b :: bs, x => foldl_deliverByte_isOpen bs (x.deliverByte b)

@[simp] theorem deliverList_isOpen (l : List (ℕ × XRMessage)) (s : ℕ) :
    ((w.deliverList l).sides s).isOpen = (w.sides s).isOpen := by
  rw [deliverList_sides, foldl_deliverByte_isOpen]

theorem deliverToAll_eq (m : XRMessage) :
    w.deliverToAll m = w.deliverList (w.participants.map fun p => (p, m)) :=
  w.foldl_deliverByte (fun p => (p, m)) _

/-- The members a relay with the exception `id` reaches, in the order of the loop. -/
def others (w : Server) (id : UInt64) : List ℕ :=
  w.participants.filter fun p => (w.sessions p).mId ≠ id

theorem mem_others {w : Server} {id : UInt64} {p : ℕ} :
    p ∈ w.others id ↔ p ∈ w.participants ∧ (w.sessions p).mId ≠ id := by
  simp [others]

theorem foldl_except (m : XRMessage) (id : UInt64) : ∀ (l : List ℕ) (w : Server),
    l.foldl (fun w p => if (w.sessions p).mId = id then w else w.deliverByte p m) w =
      w.deliverList ((l.filter fun p => (w.sessions p).mId ≠ id).map fun p => (p, m))
  | [], w => rfl
  | p :: l, w => by
    rw [List.foldl_cons, List.filter_cons]
    by_cases h : (w.sessions p).mId = id
    · rw [if_pos h, foldl_except m id l]
      simp only [h, ne_eq, not_true_eq_false, decide_false, Bool.false_eq_true, if_false]
    · rw [if_neg h, foldl_except m id l, if_pos (by simpa using h), List.map_cons,
        deliverList_cons, deliverByte_eq, deliverList_sessions]

theorem deliverToAllExceptToOne_eq (m : XRMessage) (id : UInt64) :
    w.deliverToAllExceptToOne m id = w.deliverList ((w.others id).map fun p => (p, m)) :=
  foldl_except m id _ w

/-- The two servers have the same members, and all sessions the same id and descriptor in both. The
room's calls read nothing else. -/
structure SameRoom (w w' : Server) : Prop where
  participants : w'.participants = w.participants
  mId : ∀ p, (w'.sessions p).mId = (w.sessions p).mId
  mDescriptor : ∀ p, (w'.sessions p).mDescriptor = (w.sessions p).mDescriptor

theorem sameRoom_setSession {s : ℕ} {x : Session} (hid : x.mId = (w.sessions s).mId)
    (hd : x.mDescriptor = (w.sessions s).mDescriptor) : SameRoom w (w.setSession s x) := by
  refine ⟨rfl, fun p => ?_, fun p => ?_⟩ <;> rcases eq_or_ne p s with rfl | h <;>
    simp [setSession, *]

namespace SameRoom

variable {w} {w' : Server} (h : SameRoom w w')

include h

theorem key : w'.key = w.key := funext fun p => congrArg UInt64.toNat (h.mId p)

theorem getParticipantPtr (id : UInt64) : w'.getParticipantPtr id = w.getParticipantPtr id := by
  rw [Server.getParticipantPtr, Server.getParticipantPtr, h.key, h.participants]

theorem others (id : UInt64) : w'.others id = w.others id := by
  unfold Server.others
  rw [h.participants]
  exact List.filter_congr fun p _ => by rw [h.mId]

theorem playerList (self : UInt64) : ∀ (ps : List ℕ) (newp : ParticipantNew),
    w'.playerList self newp ps = w.playerList self newp ps
  | [], _ => rfl
  | p :: ps, newp => by
    simp only [Server.playerList, h.mId, h.mDescriptor, playerList self ps]

end SameRoom

/-- Closing sessions changes their write sides alone. -/
theorem disconnectAllParticipants_eq : w.disconnectAllParticipants =
    { w with sides := w.disconnectAllParticipants.sides } := by
  have key : ∀ (l : List ℕ) (w : Server), l.foldl (fun w p => w.disconnect p) w =
      { w with sides := (l.foldl (fun w p => w.disconnect p) w).sides } := by
    intro l
    induction l with
    | nil => exact fun w => rfl
    | cons p l ih =>
      intro w
      rw [List.foldl_cons, ih]
      rfl
  exact key _ w

/-- What a leave or a disconnection announces, to whoever is left. -/
def leaveFrames (w : Server) (id : UInt64) : List (ℕ × XRMessage) :=
  w.participants.map fun p => (p, (ParticipantLeave.mk id).toMessage)

theorem broadcastLeave_eq (s : ℕ) (id : UInt64) :
    w.broadcastLeave s id = (w.log (.leaveBroadcast s id)).deliverList (w.leaveFrames id) := by
  rw [broadcastLeave, deliverToAll_eq]
  rfl

theorem disconnectParticipant_of_none {id : UInt64} (h : w.getParticipantPtr id = none) :
    w.disconnectParticipant id = .fault .nullDereference w := by
  rw [disconnectParticipant, h]
  rfl

theorem disconnectParticipant_of_some {id : UInt64} {p : ℕ}
    (h : w.getParticipantPtr id = some p) :
    w.disconnectParticipant id =
      .ok ((w.eraseParticipant p).broadcastLeave p (w.sessions p).mId) := by
  rw [disconnectParticipant, h]
  rfl

/-- How `init_new_participant` ends: on a null pointer, past a buffer, or with the frames about the
participant to the others and about the others to the participant. -/
theorem initNewParticipant_cases (c : Choice) (id : UInt64) :
    (w.getParticipantPtr id = none ∧ w.initNewParticipant c id = .fault .nullDereference w)
    ∨ ∃ p, w.getParticipantPtr id = some p ∧
      ((ParticipantNew.default 0 c.stackNew).describe id (w.sessions p).mDescriptor = none
          ∧ w.initNewParticipant c id = .fault .outOfBounds w
      ∨ ∃ newp, (ParticipantNew.default 0 c.stackNew).describe id (w.sessions p).mDescriptor
            = some newp ∧
        (w.playerList (w.sessions p).mId (.default 0 c.stackList) w.participants = none
            ∧ w.initNewParticipant c id = .fault .outOfBounds
              (w.deliverList ((w.others id).map fun q => (q, newp.toMessage)))
        ∨ ∃ list, w.playerList (w.sessions p).mId (.default 0 c.stackList) w.participants
              = some list
            ∧ w.initNewParticipant c id = .ok (w.deliverList
              (((w.others id).map fun q => (q, newp.toMessage))
                ++ list.map fun np => (p, np.toMessage))))) := by
  unfold initNewParticipant newPaticipantToAll
  rcases hp : w.getParticipantPtr id with _ | p
  · exact .inl ⟨rfl, rfl⟩
  refine .inr ⟨p, rfl, ?_⟩
  simp only []
  rcases hd : (ParticipantNew.default 0 c.stackNew).describe id (w.sessions p).mDescriptor
    with _ | newp
  · exact .inl ⟨rfl, rfl⟩
  refine .inr ⟨newp, rfl, ?_⟩
  have hsame : SameRoom w (w.deliverList ((w.others id).map fun q => (q, newp.toMessage))) :=
    ⟨by simp, by simp, by simp⟩
  simp only [Outcome.ok_andThen, deliverToAllExceptToOne_eq, sendListOfPlayers, hsame.playerList,
    hsame.mId, hsame.participants]
  rcases hl : w.playerList (w.sessions p).mId (.default 0 c.stackList) w.participants with _ | list
  · exact .inl ⟨rfl, rfl⟩
  · refine .inr ⟨list, rfl, ?_⟩
    rw [deliverList_append]
    exact congrArg Outcome.ok (foldl_deliverByte _ (fun np => (p, np.toMessage)) list)

end Server

end XRNetwork
