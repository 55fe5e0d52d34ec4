import XRNetwork.Session

/-!
# How many writes are outstanding

Between handlers `deque_write_buffer_` is empty (`deque_nil`): whoever pushes a buffer on the empty
deque pops it again in the same handler and starts its write. So the emptiness `deliver_byte` tests
says nothing about writes in progress, and every posted handler starts one (`step_cases`). As long
as each posted handler finds no write outstanding there is one writer, and the stream is what was
delivered (`inOrder_step`).
-/

namespace XRNetwork

namespace WriteSide

variable {w : WriteSide} {e : WriteEvent} {o : Outcome Fault WriteSide}

/-- What each event does between handlers, when the deque is empty. -/
def Effect (w : WriteSide) (w' : WriteSide) : WriteEvent → Prop
  | .deliverByte buffer => w' = w.deliverByte buffer
  | .posted => ∃ b rest, w.posted = b :: rest ∧
      w' = { w with
        posted := rest
        deque := []
        writes := w.writes ++ [⟨b, 0, w.isOpen⟩]
        started := w.started ++ [b] }
  | .writeSome i k => ∃ x, w.writes[i]? = some x ∧ x.sent + k ≤ x.buffer.length
      ∧ w.lost = false ∧
      w' = { w with
        writes := w.writes.set i { x with sent := x.sent + k }
        wire := w.wire ++ (x.buffer.drop x.sent).take k }
  | .writeDone i => ∃ x, w.writes[i]? = some x ∧ x.sent = x.buffer.length ∧
      w' = { w with writes := w.writes.eraseIdx i }
  | .writeFailed i => ∃ x, w.writes[i]? = some x ∧
      w' = { w with writes := w.writes.eraseIdx i, lost := true }
  | .close => w' = w.close

@[simp] theorem isOpen_doWriteByte : w.doWriteByte.state.isOpen = w.isOpen := by
  unfold doWriteByte
  split <;> rfl

theorem closed_step (h : w.step e = some o) (hc : w.isOpen = false) : o.state.isOpen = false := by
  cases e with
  | deliverByte | close =>
    cases h
    first | exact hc | rfl
  | posted =>
    have h : w.runPosted = some o := h
    unfold runPosted at h
    split at h
    · cases h
    · cases h
      split_ifs
      · exact hc
      · simpa using hc
  | writeSome i k =>
    obtain ⟨x, hx, rfl⟩ := Option.map_eq_some_iff.1 h
    unfold writeSome at hx
    split at hx
    · cases hx
    · simp [hc] at hx
  | writeDone i =>
    have h : w.writeDone i = some o := h
    unfold writeDone at h
    split at h
    · cases h
    · split_ifs at h
      cases h
      split_ifs
      · exact hc
      · simpa using hc
  | writeFailed i =>
    obtain ⟨x, hx, rfl⟩ := Option.map_eq_some_iff.1 h
    unfold writeFailed at hx
    split at hx
    · cases hx
    · cases hx
      exact hc

/-- No event faults between handlers, and the deque is empty again after it. -/
theorem step_cases (hd : w.deque = []) (h : w.step e = some o) :
    ∃ w', o = .ok w' ∧ w'.deque = [] ∧ Effect w w' e := by
  cases e with
  | deliverByte buffer =>
    cases h
    exact ⟨_, rfl, hd, rfl⟩
  | posted =>
    unfold step runPosted at h
    rcases hp : w.posted with _ | ⟨b, rest⟩
    · simp [hp] at h
    · simp only [hp, hd, doWriteByte, List.isEmpty_nil, Bool.not_true, Bool.false_eq_true,
        if_false, List.nil_append, Option.some.injEq] at h
      exact ⟨_, h.symm, rfl, b, rest, hp, rfl⟩
  | writeSome i k =>
    unfold step writeSome at h
    rcases hx : w.writes[i]? with _ | x
    · simp [hx] at h
    · simp only [hx] at h
      split_ifs at h with hc
      · simp only [Bool.and_eq_true, Bool.not_eq_eq_eq_not, Bool.not_true,
          decide_eq_true_eq] at hc
        simp only [Option.map_some, Option.some.injEq] at h
        exact ⟨_, h.symm, hd, x, hx, hc.2, hc.1.2, rfl⟩
      · simp at h
  | writeDone i =>
    unfold step writeDone at h
    rcases hx : w.writes[i]? with _ | x
    · simp [hx] at h
    · simp only [hx, hd, List.isEmpty_nil, if_true] at h
      split_ifs at h with hc
      simp only [Bool.and_eq_true, decide_eq_true_eq] at hc
      simp only [Option.some.injEq] at h
      exact ⟨_, h.symm, rfl, x, hx, hc.2, by rw [hd]⟩
  | writeFailed i =>
    unfold step writeFailed at h
    rcases hx : w.writes[i]? with _ | x
    · simp [hx] at h
    · simp only [hx, Option.map_some, Option.some.injEq] at h
      exact ⟨_, h.symm, hd, x, hx, rfl⟩
  | close =>
    cases h
    exact ⟨_, rfl, hd, rfl⟩

theorem deque_nil (h : writeMachine.Reachable (.ok w)) : w.deque = [] := by
  have key : ∀ o, writeMachine.Reachable o → o.state.deque = [] := fun o ho =>
    ho.invariant (I := fun w => w.deque = []) rfl fun s e o _ hs hstep => by
      obtain ⟨w', rfl, hd, -⟩ := step_cases hs hstep
      exact hd
  exact key _ h

/-- At most one `async_write` is outstanding, and the stream is a prefix of what was delivered. -/
def OneWriter (w : WriteSide) : Prop :=
  w.writes.length ≤ 1 ∧ w.wire <+: w.delivered.flatten

/-- The delivered buffers are those written, the one being written and those still posted, and the
stream is the former two, as far as they got. -/
structure InOrder (w : WriteSide) : Prop where
  one : w.writes.length ≤ 1
  pre : w.wire <+: w.delivered.flatten
  order : w.lost = false → ∃ done : List Bytes,
    w.delivered = done ++ (w.writes.map Write.buffer ++ w.posted)
      ∧ w.wire = done.flatten ++ (w.writes.map fun x => x.buffer.take x.sent).flatten

theorem InOrder.oneWriter (h : InOrder w) : OneWriter w := ⟨h.one, h.pre⟩

/-- With one write outstanding, what it has put on the wire ends the stream so far. -/
theorem prefix_of_order {done : List Bytes} {x : Write} {rest : List Bytes} :
    done.flatten ++ x.buffer.take x.sent <+: (done ++ (x.buffer :: rest)).flatten := by
  rw [List.flatten_append, List.flatten_cons]
  exact (List.prefix_append_right_inj _).2
    ((List.take_prefix _ _).trans (List.prefix_append _ _))

theorem inOrder_fresh : InOrder WriteSide.fresh :=
  ⟨by simp [fresh], by simp [fresh], fun _ => ⟨[], by simp [fresh], by simp [fresh]⟩⟩

theorem writes_eq_singleton (h : w.writes.length ≤ 1) {i : ℕ} {x : Write}
    (hx : w.writes[i]? = some x) : i = 0 ∧ w.writes = [x] := by
  obtain ⟨hi, hx⟩ := List.getElem?_eq_some_iff.1 hx
  obtain rfl : i = 0 := by omega
  refine ⟨rfl, ?_⟩
  obtain ⟨y, hy⟩ := List.length_eq_one_iff.1 (le_antisymm h hi)
  simp_all

/-- An event keeps the order, a posted handler if no write is outstanding when it runs. -/
theorem inOrder_step (hI : InOrder w) (hd : w.deque = []) (he : e = .posted → w.writes = [])
    (h : w.step e = some o) : InOrder o.state := by
  obtain ⟨w', rfl, -, heff⟩ := step_cases hd h
  obtain ⟨hone, hpre, hord⟩ := hI
  cases e with
  | deliverByte b =>
    obtain rfl : w' = _ := heff
    refine ⟨hone, ?_, fun hl => ?_⟩
    · simp only [Outcome.state_ok, deliverByte, List.flatten_append]
      exact hpre.trans (List.prefix_append _ _)
    · obtain ⟨done, h1, h2⟩ := hord hl
      exact ⟨done, by simp [deliverByte, h1], h2⟩
  | posted =>
    obtain ⟨b, rest, hp, rfl⟩ := heff
    have hw := he rfl
    refine ⟨by simp [hw], hpre, fun hl => ?_⟩
    obtain ⟨done, h1, h2⟩ := hord hl
    exact ⟨done, by simp [h1, hw, hp], by simp [h2, hw]⟩
  | writeSome i k =>
    obtain ⟨x, hx, hk, hl, rfl⟩ := heff
    obtain ⟨rfl, hw⟩ := writes_eq_singleton hone hx
    obtain ⟨done, h1, h2⟩ := hord hl
    have hwire : w.wire ++ (x.buffer.drop x.sent).take k
        = done.flatten ++ x.buffer.take (x.sent + k) := by
      rw [h2, hw, List.take_add]
      simp
    refine ⟨by simp [hw], ?_, fun _ => ⟨done, by simp [h1, hw], by simp [hwire, hw]⟩⟩
    simp only [Outcome.state_ok, hwire]
    have := @prefix_of_order done { x with sent := x.sent + k } w.posted
    simpa [h1, hw] using this
  | writeDone i =>
    obtain ⟨x, hx, hk, rfl⟩ := heff
    obtain ⟨rfl, hw⟩ := writes_eq_singleton hone hx
    refine ⟨by simp [hw], hpre, fun hl => ?_⟩
    obtain ⟨done, h1, h2⟩ := hord hl
    exact ⟨done ++ [x.buffer], by simp [h1, hw], by simp [h2, hw, hk]⟩
  | writeFailed i =>
    obtain ⟨x, hx, rfl⟩ := heff
    obtain ⟨rfl, hw⟩ := writes_eq_singleton hone hx
    exact ⟨by simp [hw], hpre, fun hl => by simp at hl⟩
  | close =>
    obtain rfl : w' = _ := heff
    exact ⟨hone, hpre, hord⟩

end WriteSide

end XRNetwork
