import XRNetwork.Proofs.RoomCalls
import XRNetwork.Proofs.WriteSide
import XRNetwork.ChatClient

/-!
# Every session's write side

The room's code and the handlers touch a session's write side through `deliver_byte` and by closing
the socket, nothing else; its own handlers do the rest (`sides_step`). So every write side of a
reachable server is a reachable write side, and what `WriteSide` says of one holds of all, whatever
the sessions do to each other.
-/

namespace XRNetwork

/-- The session whose write side the event is about, and what it does there. -/
def Event.write : Event → Option (ℕ × WriteEvent)
  | .posted s => some (s, .posted)
  | .writeSome s i k => some (s, .writeSome i k)
  | .writeDone s i => some (s, .writeDone i)
  | .writeFailed s i _ => some (s, .writeFailed i)
  | _ => none

namespace Server

variable {E : Env} {w : Server} {e : Event} {o : Outcome Fault Server}

/-- Every session's write side is as `P` says of that session. -/
def SidesAre (P : ℕ → WriteSide → Prop) (w : Server) : Prop := ∀ s, P s (w.sides s)

/-- `P` survives what other code does to a write side. -/
structure Stable (P : ℕ → WriteSide → Prop) : Prop where
  deliverByte : ∀ s x b, P s x → P s (x.deliverByte b)
  close : ∀ s x, P s x → P s x.close

section Stable

variable {P : ℕ → WriteSide → Prop}

theorem SidesAre.setSide (h : SidesAre P w) {s : ℕ} {x : WriteSide} (hx : P s x) :
    SidesAre P (w.setSide s x) := by
  intro t
  rcases eq_or_ne t s with rfl | hne
  · simpa [Server.setSide] using hx
  · simpa [Server.setSide, hne] using h t

variable (hP : Stable P)

include hP

theorem SidesAre.deliverByte (h : SidesAre P w) (s : ℕ) (m : XRMessage) :
    SidesAre P (w.deliverByte s m) := h.setSide (hP.deliverByte s _ _ (h s))

theorem SidesAre.disconnect (h : SidesAre P w) (s : ℕ) : SidesAre P (w.disconnect s) :=
  h.setSide (hP.close s _ (h s))

theorem SidesAre.deliverList : ∀ (l : List (ℕ × XRMessage)) {w : Server}, SidesAre P w →
    SidesAre P (w.deliverList l)
  | [], _, h => h
  | x :: l, _, h => SidesAre.deliverList l (h.deliverByte hP x.1 x.2)

theorem SidesAre.disconnectAllParticipants (h : SidesAre P w) :
    SidesAre P w.disconnectAllParticipants := by
  have key : ∀ (l : List ℕ) {w : Server}, SidesAre P w →
      SidesAre P (l.foldl (fun w p => w.disconnect p) w) := by
    intro l
    induction l with
    | nil => exact fun h => h
    | cons p l ih => exact fun h => ih (h.disconnect hP p)
  exact key _ h

theorem SidesAre.broadcastLeave (h : SidesAre P w) (s : ℕ) (id : UInt64) :
    SidesAre P (w.broadcastLeave s id) := by
  rw [broadcastLeave_eq]
  exact SidesAre.deliverList hP _ (w := w.log _) h

theorem SidesAre.leave (h : SidesAre P w) (c : Choice) (s : ℕ) :
    SidesAre P (w.leave c s).state := by
  unfold Server.leave
  cases c.callback with
  | returns => exact SidesAre.broadcastLeave hP (w := (w.log _).eraseParticipant s) h s _
  | throws | throwsOther => exact h

theorem SidesAre.disconnectParticipant (h : SidesAre P w) (id : UInt64) :
    SidesAre P (w.disconnectParticipant id).state := by
  rcases hp : w.getParticipantPtr id with _ | p
  · rwa [disconnectParticipant_of_none _ hp]
  · rw [disconnectParticipant_of_some _ hp]
    exact SidesAre.broadcastLeave hP (w := w.eraseParticipant p) h p _

theorem SidesAre.initNewParticipant (h : SidesAre P w) (c : Choice) (id : UInt64) :
    SidesAre P (w.initNewParticipant c id).state := by
  rcases w.initNewParticipant_cases c id with
    ⟨-, h'⟩ | ⟨p, -, ⟨-, h'⟩ | ⟨newp, -, ⟨-, h'⟩ | ⟨list, -, h'⟩⟩⟩ <;> rw [h']
  · exact h
  · exact h
  · exact h.deliverList hP _
  · exact h.deliverList hP _

theorem SidesAre.join (h : SidesAre P w) (E : Env) (c : Choice) (s : ℕ) :
    SidesAre P (w.join E c s).state := by
  unfold Server.join
  simp only []
  split_ifs
  · exact SidesAre.disconnect hP (w := w.log _) h s
  · exact h
  · exact h
  · exact h

theorem SidesAre.onRead (h : SidesAre P w) (E : Env) (c : Choice) (s : ℕ) (loop : ReadLoop)
    (m : XRMessage) : SidesAre P (w.onRead E c s loop m).state := by
  unfold Server.onRead
  cases loop with
  | handshake =>
    simp only [onReadHandshake]
    split
    · refine Outcome.state_andThen ?_ fun w h => h
      unfold checkHandshakeHelloAck
      split
      · exact h
      · exact SidesAre.deliverByte hP (w := (w.log _).setSession s _) h s _
    · unfold checkHandshakeCredentialsAck
      refine Outcome.state_andThen ?_ fun w h => h.deliverByte hP s _
      refine SidesAre.join hP ?_ E c s
      split_ifs
      · exact h
      · exact SidesAre.disconnect hP (w := w.log _) h s
    · exact h
  | room =>
    refine Outcome.state_andThen ?_ fun w h => h
    unfold onRoomFrame
    split
    · split
      · exact h
      · exact SidesAre.initNewParticipant hP (w := ((w.log _).setSession s _).log _) h c _
    · exact h
    · rw [deliverToAllExceptToOne_eq]
      exact SidesAre.deliverList hP _ (w := (w.log _).log _) h
    · exact SidesAre.disconnectParticipant hP (w := (w.log _).log _) h _
    · exact SidesAre.disconnect hP (w := w.log _) h s

theorem SidesAre.onAccept (h : SidesAre P w) (hfresh : P w.made .fresh) (E : Env)
    (ip : Option Bytes) (t : UInt64) : SidesAre P (w.onAccept E ip t).state := by
  unfold Server.onAccept
  cases ip with
  | none => exact h
  | some ip =>
    refine Outcome.state_andThen ?_ fun w h => h
    have hnew : SidesAre P (w.setSide w.made .fresh) := h.setSide hfresh
    unfold doStartHandshake
    simp only []
    split
    · exact hnew
    · exact SidesAre.deliverByte hP hnew _ _

/-- What the calls of `deliver_byte` and the closing of sockets keep, and the write side's own
handlers keep at the session they belong to, a step keeps at every session. -/
theorem sidesAre_step (h : SidesAre P w) (hfresh : P w.made .fresh) (hs : w.step E e = some o)
    (hev : ∀ s we x, e.write = some (s, we) → (w.sides s).step we = some x → P s x.state) :
    SidesAre P o.state := by
  have htick : SidesAre P w.tick := h
  have hput : ∀ {s : ℕ} {x : Outcome Fault WriteSide}, P s x.state →
      SidesAre P (w.tick.putSide s x).state := by
    intro s x hx
    cases x <;> exact htick.setSide hx
  cases e with
  | accept ip t =>
    simp only [step] at hs
    split_ifs at hs
    cases hs
    exact htick.onAccept hP hfresh E ip t
  | acceptFailed =>
    simp only [step] at hs
    split_ifs at hs
    cases hs
    exact h
  | read s i buf c =>
    simp only [step] at hs
    split at hs
    · cases hs
      exact SidesAre.onRead hP (w := w.tick.dropRead s i) h E c s _ _
    · cases hs
  | readFailed s i c =>
    simp only [step] at hs
    split at hs
    · rename_i loop _ _
      cases hs
      cases loop with
      | handshake => exact SidesAre.disconnect hP (w := w.tick.dropRead s i) h s
      | room => exact SidesAre.leave hP (w := w.tick.dropRead s i) h c s
    · cases hs
  | posted s =>
    obtain ⟨x, hx, rfl⟩ := Option.map_eq_some_iff.1 hs
    exact hput (hev s .posted x rfl hx)
  | writeSome s i k =>
    obtain ⟨x, hx, rfl⟩ := Option.map_eq_some_iff.1 hs
    exact htick.setSide (hev s (.writeSome i k) (.ok x) rfl
      (Option.map_eq_some_iff.2 ⟨x, hx, rfl⟩))
  | writeDone s i =>
    obtain ⟨x, hx, rfl⟩ := Option.map_eq_some_iff.1 hs
    exact hput (hev s (.writeDone i) x rfl hx)
  | writeFailed s i c =>
    obtain ⟨x, hx, rfl⟩ := Option.map_eq_some_iff.1 hs
    refine SidesAre.leave hP (htick.setSide ?_) c s
    exact hev s (.writeFailed i) (.ok x) rfl (Option.map_eq_some_iff.2 ⟨x, hx, rfl⟩)
  | disconnectParticipant id =>
    cases hs
    exact htick.disconnectParticipant hP id
  | disconnectAllParticipants | stop =>
    cases hs
    exact htick.disconnectAllParticipants hP
  | setParticipantDeaf id deaf =>
    cases hs
    unfold setParticipantDeaf
    split
    · exact htick
    · exact htick
  | setMaxParticipants | setKeepAlive | setServiceName =>
    cases hs
    exact h

end Stable

section Kept

variable {P : WriteSide → Prop}

/-- Every write side satisfies `P`. -/
def AllSides (P : WriteSide → Prop) (w : Server) : Prop := ∀ s, P (w.sides s)

/-- `P` survives what other code does to a write side, and a fresh one satisfies it. -/
structure Kept (P : WriteSide → Prop) : Prop where
  fresh : P .fresh
  deliverByte : ∀ x b, P x → P (x.deliverByte b)
  close : ∀ x, P x → P x.close

/-- The same where the sessions do not matter. -/
theorem sides_step (hP : Kept P) (h : AllSides P w) (hs : w.step E e = some o)
    (hev : ∀ s we x, e.write = some (s, we) → (w.sides s).step we = some x → P x.state) :
    AllSides P o.state :=
  sidesAre_step (P := fun _ => P) ⟨fun _ => hP.deliverByte, fun _ => hP.close⟩ h hP.fresh hs hev

end Kept

theorem closed_step (hs : w.step E e = some o) {s : ℕ} (hlt : s < w.made)
    (hc : (w.sides s).isOpen = false) : (o.state.sides s).isOpen = false := by
  refine sidesAre_step (P := fun t x => t < w.made → (w.sides t).isOpen = false → x.isOpen = false)
    ⟨fun _ _ _ h => h, fun _ _ _ _ _ => rfl⟩ (fun _ _ h => h) (fun h => absurd h (lt_irrefl _)) hs
    (fun t we x _ hx _ hc => ?_) s hlt hc
  exact WriteSide.closed_step hx hc

theorem side_reachable (h : (serverMachine E).Reachable o) :
    AllSides (fun x => writeMachine.Reachable (.ok x)) o.state := by
  refine h.invariant (fun _ => Machine.reachable_init) fun w e o _ hI hs => ?_
  have hkept : Kept fun x => writeMachine.Reachable (.ok x) :=
    ⟨Machine.reachable_init, fun x b hx => hx.step (e := .deliverByte b) rfl,
      fun x hx => hx.step (e := .close) rfl⟩
  refine sides_step hkept hI hs fun s we x _ hx => ?_
  obtain ⟨x', rfl, -, -⟩ := WriteSide.step_cases (WriteSide.deque_nil (hI s)) hx
  exact (hI s).step hx

theorem posted_writes (hw : (serverMachine E).Reachable (.ok w)) {s : ℕ}
    (hs : w.step E (.posted s) = some o) :
    (o.state.sides s).writes.length = (w.sides s).writes.length + 1 := by
  obtain ⟨x, hx, rfl⟩ := Option.map_eq_some_iff.1 hs
  obtain ⟨x', rfl, -, b, rest, -, rfl⟩ := WriteSide.step_cases (e := .posted)
    (WriteSide.deque_nil (side_reachable hw s)) hx
  simp [putSide, setSide]

end Server

open Server WriteSide

/-- In a run every session has in every state one writer and a stream that is a prefix of what was
delivered to it, if and only if every posted handler of the run finds no write outstanding on its
session. -/
theorem one_writer_iff {E : Env} {r : List (Server × Event)} {o : Outcome Fault Server}
    (hr : (serverMachine E).Run r o) :
    ((∀ x ∈ r, ∀ s, OneWriter (x.1.sides s)) ∧ ∀ s, OneWriter (o.state.sides s)) ↔
      Machine.Steps (fun w e => ∀ s, e = .posted s → (w.sides s).writes = []) r := by
  constructor
  · intro h
    induction hr with
    | nil => simp [Machine.Steps]
    | @snoc r w e o hr hs ih =>
      simp only [List.mem_append, List.mem_singleton, or_imp, forall_and, forall_eq] at h
      refine Machine.steps_snoc.2 ⟨ih ⟨h.1.1, h.1.2⟩, ?_⟩
      rintro s rfl
      -- the handler has added a write, so there was none
      have hlen := posted_writes ⟨r, hr⟩ hs
      have hone := (h.2 s).1
      exact List.length_eq_zero_iff.1 (by omega)
  · intro h
    have hall : ∀ {r : List (Server × Event)} {o : Outcome Fault Server},
        (serverMachine E).Run r o →
        Machine.Steps (fun w e => ∀ s, e = .posted s → (w.sides s).writes = []) r →
        AllSides (fun x => x.deque = [] ∧ InOrder x) o.state := by
      intro r o hr hP
      have hkept : Kept fun x => x.deque = [] ∧ InOrder x :=
        ⟨⟨rfl, inOrder_fresh⟩,
          fun x b hx => ⟨hx.1, inOrder_step (e := .deliverByte b) hx.2 hx.1 (by simp) rfl⟩,
          fun x hx => ⟨hx.1, inOrder_step (e := .close) hx.2 hx.1 (by simp) rfl⟩⟩
      refine hr.invariant (fun _ => hkept.fresh) (fun w e o _ hI he hs => ?_) hP
      refine sides_step hkept hI hs fun s we x hwe hx => ?_
      obtain ⟨x', rfl, hd, -⟩ := WriteSide.step_cases (hI s).1 hx
      refine ⟨hd, inOrder_step (hI s).2 (hI s).1 ?_ hx⟩
      rintro rfl
      cases e <;> simp only [Event.write, Option.some.injEq, Prod.mk.injEq, reduceCtorEq,
        and_false] at hwe
      exact he s (by rw [hwe.1])
    refine ⟨fun x hx s => ?_, fun s => (hall hr h s).2.oneWriter⟩
    obtain ⟨r₀, o₁, h0, -, hpre⟩ := hr.before (s := x.1) (e := x.2) hx
    exact (hall h0 (fun y hy => h y (hpre.subset (List.mem_append_left _ hy))) s).2.oneWriter

/-- A generator that yields 1, 2, 3 and so on. -/
def Env.counting : Env := ⟨fun n => UInt64.ofNat (n + 1), 0⟩

/-- Subscribers that return, and a clean stack. -/
def Choice.plain : Choice := ⟨.returns, .zero _, .zero _⟩

/-- A client that answers the hello before it has received all of it. -/
def earlyHelloAck : List Event :=
  [.accept (some []) 0, .posted 0, .read 0 0 (ChatClient.helloAck 0 0).frame .plain, .posted 0]

/-- Both handlers start a write, one of the hello and one of the credentials. -/
theorem two_writers : ∃ r w, (serverMachine .counting).Run r (.ok w)
    ∧ r.map Prod.snd = earlyHelloAck ∧ ¬ OneWriter (w.sides 0)
    ∧ (w.sides 0).writes.map (fun x => x.buffer.take 1) = [[1], [3]] := by
  have hrun : ((serverMachine .counting).exec Server.init earlyHelloAck).any
      (Outcome.okAnd fun w =>
        (w.sides 0).writes.map (fun x => x.buffer.take 1) = [[1], [3]]) = true := by
    decide +kernel
  obtain ⟨r, w, hr, hes, hw⟩ := Machine.exec_okAnd hrun
  have hw := of_decide_eq_true hw
  refine ⟨r, w, hr, hes, fun h => ?_, hw⟩
  have hlen := congrArg List.length hw
  rw [List.length_map] at hlen
  exact absurd h.1 (by simp [hlen])

/-- The hello is being written to a client that has connected. -/
theorem one_writer_iff_hello : ∃ r w, (serverMachine .counting).Run r (.ok w)
    ∧ r.map Prod.snd = [.accept (some []) 0, .posted 0] ∧ OneWriter (w.sides 0) := by
  have hrun : (((serverMachine .counting).restrict fun w e =>
      match e with
      | .posted s => (w.sides s).writes.isEmpty
      | _ => true).exec Server.init [.accept (some []) 0, .posted 0]).any
        (Outcome.okAnd fun _ => true) = true := by
    decide +kernel
  obtain ⟨r, w, hr, hes, -⟩ := Machine.exec_okAnd hrun
  obtain ⟨hr, hsteps⟩ := Machine.restrict_run hr
  refine ⟨r, w, hr, hes, ((one_writer_iff hr).2 fun x hx s he => ?_).2 0⟩
  simpa [he] using hsteps x hx

end XRNetwork
