import XRNetwork.Proofs.Sides

/-!
# The hand-off between `deliver_byte` and `async_write`

The pop stands at the start of a write, so it is the handler that pushes a buffer that pops it
again: the test for an empty deque in `deliver_byte` always succeeds, the one in the completion
handler always fails. What is handed to `async_write` is therefore what the posted handlers have
pushed, and what they have yet to push is what is still posted.
-/

namespace XRNetwork

namespace WriteSide

variable {w : WriteSide} {e : WriteEvent} {r : List (WriteSide × WriteEvent)}
  {o : Outcome Fault WriteSide}

/-- The buffer that the event's handler pushes. -/
def pushed (w : WriteSide) : WriteEvent → Option Bytes
  | .posted => w.posted.head?
  | _ => none

/-- The buffers whose posted handler has run, in the order of the runs. -/
def handled (r : List (WriteSide × WriteEvent)) : List Bytes :=
  r.filterMap fun x => x.1.pushed x.2

theorem handled_snoc : handled (r ++ [(w, e)]) = handled r ++ (w.pushed e).toList := by
  rw [handled, List.filterMap_append]
  rcases h : w.pushed e <;> simp [handled, h]

/-- What was delivered has been started or is posted. -/
def Split (w : WriteSide) : Prop := w.delivered = w.started ++ w.posted

theorem split_fresh : Split fresh := by simp [Split, fresh]

/-- An event starts what its handler pushes, and loses nothing. -/
theorem Effect.started {w' : WriteSide} (h : Effect w w' e) (hs : Split w) :
    w'.started = w.started ++ (w.pushed e).toList ∧ Split w' := by
  unfold Split at hs ⊢
  cases e with
  | deliverByte buffer =>
    obtain rfl : w' = _ := h
    simp [pushed, WriteSide.deliverByte, hs]
  | posted =>
    obtain ⟨b, rest, hp, rfl⟩ := h
    simp [pushed, hp, hs]
  | writeSome i k =>
    obtain ⟨x, -, -, -, rfl⟩ := h
    exact ⟨(List.append_nil _).symm, hs⟩
  | writeDone i =>
    obtain ⟨x, -, -, rfl⟩ := h
    exact ⟨(List.append_nil _).symm, hs⟩
  | writeFailed i =>
    obtain ⟨x, -, rfl⟩ := h
    exact ⟨(List.append_nil _).symm, hs⟩
  | close =>
    obtain rfl : w' = _ := h
    exact ⟨(List.append_nil _).symm, hs⟩

theorem split (h : writeMachine.Reachable (.ok w)) : Split w := by
  have key : ∀ o, writeMachine.Reachable o → o.state.deque = [] ∧ Split o.state := by
    intro o ho
    refine ho.invariant (I := fun w => w.deque = [] ∧ Split w) ⟨rfl, split_fresh⟩
      fun w e o _ hI hs => ?_
    obtain ⟨w', rfl, hd, heff⟩ := step_cases hI.1 hs
    exact ⟨hd, (heff.started hI.2).2⟩
  exact (key _ h).2

end WriteSide

open WriteSide

/-- In every run of a session's write side no handler faults, between handlers nothing is left in
the deque, `async_write` has been given the buffers whose posted handler has run, in that order, and
the others that were delivered are still posted. -/
theorem hand_off {r : List (WriteSide × WriteEvent)} {o : Outcome Fault WriteSide}
    (hr : writeMachine.Run r o) : ∃ w, o = .ok w ∧ w.deque = [] ∧ w.started = handled r
      ∧ w.delivered = w.started ++ w.posted := by
  induction hr with
  | nil => exact ⟨_, rfl, rfl, rfl, rfl⟩
  | @snoc r w e o hr hs ih =>
    obtain ⟨w₀, hw, hd, hstarted, -⟩ := ih
    cases hw
    obtain ⟨w', rfl, hd', heff⟩ := step_cases hd hs
    obtain ⟨hst, hsplit⟩ := heff.started (split ⟨_, hr⟩)
    refine ⟨w', rfl, hd', ?_, hsplit⟩
    rw [hst, hstarted, handled_snoc]

/-- Two deliveries, the first of which fails after the second was started. -/
def firstFails : List WriteEvent :=
  [.deliverByte [1], .deliverByte [2], .posted, .posted, .writeSome 1 1, .writeFailed 0,
    .writeDone 0]

theorem hand_off_firstFails : ∃ r w, writeMachine.Run r (.ok w) ∧ r.map Prod.snd = firstFails
    ∧ w.deque = [] ∧ w.started = handled r ∧ w.delivered = w.started ++ w.posted
    ∧ w.started = [[1], [2]] ∧ w.wire = [2] := by
  have hrun : (writeMachine.exec WriteSide.fresh firstFails).any
      (Outcome.okAnd fun w => w.started = [[1], [2]] ∧ w.wire = [2]) = true := by
    decide +kernel
  obtain ⟨r, w, hr, hes, hw⟩ := Machine.exec_okAnd hrun
  obtain ⟨w₀, h, hd, hst, hsp⟩ := hand_off hr
  cases h
  exact ⟨r, w, hr, hes, hd, hst, hsp, of_decide_eq_true hw⟩

namespace Server

/-- So no handler of any session of a server takes the front of an empty deque, and each session's
writes are, in order, what it was given. -/
theorem hand_off_sides {E : Env} {o : Outcome Fault Server} (h : (serverMachine E).Reachable o)
    (s : ℕ) : (o.state.sides s).deque = [] ∧ Split (o.state.sides s)
      ∧ ∀ e x, (o.state.sides s).step e = some x → ∃ w', x = .ok w' := by
  have hr := side_reachable h s
  refine ⟨deque_nil hr, split hr, fun e x hx => ?_⟩
  obtain ⟨w', rfl, -, -⟩ := step_cases (deque_nil hr) hx
  exact ⟨w', rfl⟩

end Server

end XRNetwork
