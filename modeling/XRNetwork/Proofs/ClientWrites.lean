import XRNetwork.ClientQueue
import XRNetwork.ChatClient

/-!
# One write at a time

The client leaves the message it writes at the front of the deque, so the deque is empty only when
nothing is being written and what a posted handler tests is what it means to test. The queue is
idle, or writes its front, or has failed on its front (`Stage`); in each case the messages written
before, the deque and the posted ones are those given to `write_byte`, in order.
-/

namespace XRNetwork

def XRMessagePtr.data (p : XRMessagePtr) : Bytes := p.message.data

namespace ClientQueue

variable {q q' : ClientQueue} {e : ClientEvent} {o : Outcome Fault ClientQueue}
  {done : List XRMessagePtr}

/-- What the queue is doing after the messages `done`. -/
inductive Stage (q : ClientQueue) (done : List XRMessagePtr) : Prop
  | idle (hd : q.deque = []) (hw : q.writes = []) (hs : q.started = done)
      (hwire : q.wire = done.flatMap XRMessagePtr.data)
  | writing (x : ClientWrite) (rest : List XRMessagePtr) (hd : q.deque = x.front :: rest)
      (hw : q.writes = [x]) (hs : q.started = done ++ [x.front]) (hle : x.sent ≤ 65536)
      (hwire : q.wire = done.flatMap XRMessagePtr.data ++ x.front.data.take x.sent)
  | failed (p : XRMessagePtr) (k : ℕ) (rest : List XRMessagePtr) (hlost : q.lost = true)
      (hd : q.deque = p :: rest) (hw : q.writes = []) (hs : q.started = done ++ [p])
      (hwire : q.wire = done.flatMap XRMessagePtr.data ++ p.data.take k)

/-- The messages that are done, those in the deque and those posted are all there have been. -/
structure InOrder (q : ClientQueue) (done : List XRMessagePtr) : Prop where
  written : q.written = done ++ (q.deque ++ q.posted)
  numbered : q.written.map XRMessagePtr.number = List.range q.written.length
  stage : Stage q done

theorem inOrder_init : InOrder init [] := ⟨rfl, rfl, .idle rfl rfl rfl rfl⟩

theorem Stage.congr (h : Stage q done) (hd : q'.deque = q.deque) (hw : q'.writes = q.writes)
    (hs : q'.started = q.started) (hwire : q'.wire = q.wire) (hlost : q'.lost = q.lost) :
    Stage q' done := by
  cases h with
  | idle h1 h2 h3 h4 => exact .idle (hd ▸ h1) (hw ▸ h2) (hs ▸ h3) (hwire ▸ h4)
  | writing x rest h1 h2 h3 hle h4 =>
    exact .writing x rest (hd ▸ h1) (hw ▸ h2) (hs ▸ h3) hle (hwire ▸ h4)
  | failed p k rest h0 h1 h2 h3 h4 =>
    exact .failed p k rest (hlost ▸ h0) (hd ▸ h1) (hw ▸ h2) (hs ▸ h3) (hwire ▸ h4)

theorem inOrder_writeByte (h : InOrder q done) (m : XRMessage) : InOrder (q.writeByte m) done := by
  refine ⟨?_, ?_, h.stage.congr rfl rfl rfl rfl rfl⟩
  · simp [writeByte, h.written]
  · simp [writeByte, h.numbered, List.range_succ]

/-- A message pushed on a deque that is not empty waits; on an empty one it is written. -/
theorem inOrder_posted (h : InOrder q done) (hs : q.runPosted = some o) :
    ∃ q', o = .ok q' ∧ InOrder q' done := by
  unfold runPosted at hs
  rcases hp : q.posted with _ | ⟨p, rest⟩
  · simp [hp] at hs
  have hwritten := h.written
  rw [hp] at hwritten
  cases h.stage with
  | idle hd hw hst hwire =>
    simp only [hp, hd, doWriteByte, List.isEmpty_nil, Bool.not_true, Bool.false_eq_true, if_false,
      List.nil_append, Option.some.injEq] at hs
    refine ⟨_, hs.symm, ?_, h.numbered, .writing ⟨p, 0, q.isOpen⟩ [] rfl ?_ ?_ ?_ ?_⟩
    · simpa [hd] using hwritten
    · simp [hw]
    · simp [hst]
    · simp
    · simp [hwire]
  | writing x l hd hw hst hle hwire =>
    simp only [hp, hd, List.isEmpty_cons, Bool.not_false, if_true, Option.some.injEq] at hs
    refine ⟨_, hs.symm, ?_, h.numbered, .writing x (l ++ [p]) rfl hw hst hle hwire⟩
    simpa [hd] using hwritten
  | failed f k l hlost hd hw hst hwire =>
    simp only [hp, hd, List.isEmpty_cons, Bool.not_false, if_true, Option.some.injEq] at hs
    refine ⟨_, hs.symm, ?_, h.numbered, .failed f k (l ++ [p]) hlost rfl hw hst hwire⟩
    simpa [hd] using hwritten

/-- Only the one write there is can go on or complete. -/
theorem Stage.write_eq (h : Stage q done) {i : ℕ} {x : ClientWrite} (hx : q.writes[i]? = some x) :
    i = 0 ∧ ∃ rest, q.deque = x.front :: rest ∧ q.writes = [x] ∧ q.started = done ++ [x.front]
      ∧ x.sent ≤ 65536
      ∧ q.wire = done.flatMap XRMessagePtr.data ++ x.front.data.take x.sent := by
  cases h with
  | idle _ hw | failed _ _ _ _ _ hw => simp [hw] at hx
  | writing y rest hd hw hst hle hwire =>
    obtain rfl : i = 0 := by
      have hi := (List.getElem?_eq_some_iff.1 hx).1
      rw [hw, List.length_singleton] at hi
      omega
    obtain rfl : y = x := by simpa [hw] using hx
    exact ⟨rfl, rest, hd, hw, hst, hle, hwire⟩

theorem inOrder_writeSome (h : InOrder q done) {i k : ℕ} (hs : q.writeSome i k = some q') :
    InOrder q' done := by
  unfold writeSome at hs
  rcases hx : q.writes[i]? with _ | x
  · simp [hx] at hs
  simp only [hx] at hs
  split_ifs at hs with hcond
  obtain rfl := Option.some.inj hs
  obtain ⟨rfl, rest, hd, hw, hst, hle, hwire⟩ := h.stage.write_eq hx
  have hk : x.sent + k ≤ 65536 := by simp at hcond; omega
  refine ⟨h.written, h.numbered, .writing { x with sent := x.sent + k } rest hd ?_ hst hk ?_⟩
  · simp [hw]
  · show q.wire ++ (x.front.data.drop x.sent).take k = _
    rw [hwire, List.append_assoc, ← List.take_add]

theorem inOrder_writeFailed (h : InOrder q done) {i : ℕ} (hs : q.writeFailed i = some q') :
    InOrder q' done := by
  unfold writeFailed at hs
  rcases hx : q.writes[i]? with _ | x
  · simp [hx] at hs
  simp only [hx, Option.some.injEq] at hs
  subst hs
  obtain ⟨rfl, rest, hd, hw, hst, -, hwire⟩ := h.stage.write_eq hx
  exact ⟨h.written, h.numbered, .failed x.front x.sent rest rfl hd (by simp [hw]) hst hwire⟩

/-- The message written is popped, and the next is written if there is one. -/
theorem inOrder_writeDone (h : InOrder q done) {i : ℕ} (hs : q.writeDone i = some o) :
    ∃ q' p, o = .ok q' ∧ InOrder q' (done ++ [p]) := by
  unfold writeDone at hs
  rcases hx : q.writes[i]? with _ | x
  · simp [hx] at hs
  obtain ⟨rfl, rest, hd, hw, hst, -, hwire⟩ := h.stage.write_eq hx
  have hwritten := h.written
  simp only [hx, hd] at hs
  by_cases hcond : (x.onOpen && decide (x.sent = 65536)) = true
  swap
  · rw [if_neg hcond] at hs
    cases hs
  rw [if_pos hcond] at hs
  have hs := Option.some.inj hs
  have hsent : x.sent = 65536 := by simp at hcond; exact hcond.2
  have hall : x.front.data.take x.sent = x.front.data :=
    List.take_of_length_le (x.front.message.size_eq.trans_le hsent.ge)
  have hwire' : q.wire = (done ++ [x.front]).flatMap XRMessagePtr.data := by
    rw [hwire, hall]
    simp
  rcases rest with _ | ⟨p, rest⟩
  · simp only [List.isEmpty_nil, if_true] at hs
    refine ⟨_, x.front, hs.symm, ?_, h.numbered, .idle rfl (by simp [hw]) hst hwire'⟩
    simpa [hd] using hwritten
  · simp only [List.isEmpty_cons, Bool.false_eq_true, if_false, doWriteByte] at hs
    refine ⟨_, x.front, hs.symm, ?_, h.numbered,
      .writing ⟨p, 0, q.isOpen⟩ rest rfl (by simp [hw]) (by simp [hst]) (by simp) ?_⟩
    · simpa [hd] using hwritten
    · simpa using hwire'

/-- No event faults, and the messages stay in order. -/
theorem inOrder_step (h : InOrder q done) (hs : q.step e = some o) :
    ∃ q' done', o = .ok q' ∧ InOrder q' done' := by
  cases e with
  | writeByte m =>
    cases hs
    exact ⟨_, done, rfl, inOrder_writeByte h m⟩
  | posted =>
    obtain ⟨q', rfl, h'⟩ := inOrder_posted h hs
    exact ⟨q', done, rfl, h'⟩
  | writeSome i k =>
    obtain ⟨q', hq, rfl⟩ := Option.map_eq_some_iff.1 hs
    exact ⟨q', done, rfl, inOrder_writeSome h hq⟩
  | writeDone i =>
    obtain ⟨q', p, rfl, h'⟩ := inOrder_writeDone h hs
    exact ⟨q', _, rfl, h'⟩
  | writeFailed i =>
    obtain ⟨q', hq, rfl⟩ := Option.map_eq_some_iff.1 hs
    exact ⟨q', done, rfl, inOrder_writeFailed h hq⟩
  | close =>
    cases hs
    exact ⟨_, done, rfl, h.written, h.numbered, h.stage.congr rfl rfl rfl rfl rfl⟩

theorem inOrder (h : clientQueueMachine.Reachable o) : ∃ q done, o = .ok q ∧ InOrder q done := by
  obtain ⟨r, hr⟩ := h
  induction hr with
  | nil => exact ⟨_, [], rfl, inOrder_init⟩
  | snoc hr hs ih =>
    obtain ⟨q, done, hq, h⟩ := ih
    cases hq
    obtain ⟨q', done', rfl, h'⟩ := inOrder_step h hs
    exact ⟨q', done', rfl, h'⟩

/-- A write has failed, and the deque holds its message for good. -/
def Failed (q : ClientQueue) : Prop := q.lost = true ∧ q.writes = [] ∧ q.deque ≠ []

theorem length_flatMap_data (l : List XRMessagePtr) :
    (l.flatMap XRMessagePtr.data).length = l.length * 65536 := by
  induction l with
  | nil => rfl
  | cons p l ih =>
    rw [List.flatMap_cons, List.length_append, ih, List.length_cons, XRMessagePtr.data,
      p.message.size_eq]
    omega

/-- What is on the wire: the messages that are done and what there is of the one at the front. -/
theorem Stage.wire (h : Stage q done) : ∃ front rest part, q.started = done ++ front
    ∧ q.deque = front ++ rest ∧ front.length ≤ 1 ∧ part <+: front.flatMap XRMessagePtr.data
    ∧ q.wire = done.flatMap XRMessagePtr.data ++ part := by
  cases h with
  | idle hd hw hs hwire => exact ⟨[], [], [], by simp [hs], by simp [hd], by simp, by simp,
      by simp [hwire]⟩
  | writing x rest hd hw hs hle hwire =>
    exact ⟨[x.front], rest, _, hs, hd, le_rfl, by simpa using List.take_prefix _ _, hwire⟩
  | failed p k rest hlost hd hw hs hwire =>
    exact ⟨[p], rest, _, hs, hd, le_rfl, by simpa using List.take_prefix _ _, hwire⟩

theorem writeFailed_spec (h : InOrder q done) {i : ℕ} (hs : q.writeFailed i = some q') :
    Failed q' ∧ q'.started = q.started ∧ q'.wire = q.wire := by
  unfold writeFailed at hs
  rcases hx : q.writes[i]? with _ | x
  · simp [hx] at hs
  simp only [hx, Option.some.injEq] at hs
  subst hs
  obtain ⟨rfl, rest, hd, hw, -⟩ := h.stage.write_eq hx
  exact ⟨⟨rfl, by simp [hw], by simp [hd]⟩, rfl, rfl⟩

theorem failed_step (hf : Failed q) (hs : q.step e = some o) :
    Failed o.state ∧ o.state.started = q.started ∧ o.state.wire = q.wire := by
  obtain ⟨hlost, hw, hd⟩ := hf
  cases e with
  | writeByte m | close =>
    cases hs
    exact ⟨⟨hlost, hw, hd⟩, rfl, rfl⟩
  | posted =>
    have hs : q.runPosted = some o := hs
    obtain ⟨p, rest, hp⟩ := List.exists_cons_of_ne_nil hd
    unfold runPosted at hs
    split at hs
    · cases hs
    · simp only [hp, List.isEmpty_cons, Bool.not_false, if_true, Option.some.injEq] at hs
      subst hs
      exact ⟨⟨hlost, hw, by simp⟩, rfl, rfl⟩
  | writeSome i k => simp [step, writeSome, hw] at hs
  | writeDone i => simp [step, writeDone, hw] at hs
  | writeFailed i => simp [step, writeFailed, hw] at hs

end ClientQueue

open ClientQueue

/-- In every run of the client's queue: no handler takes the front of an empty deque; one write at
most is outstanding, and its message is at the front; the wire has the messages started, all of
them whole but perhaps the last, and these are the first of the messages written, in order and each
once; and after a failed write nothing more is started or sent. -/
theorem client_writes_in_order {r : List (ClientQueue × ClientEvent)}
    {o : Outcome Fault ClientQueue} (hr : clientQueueMachine.Run r o) :
    ∃ q, o = .ok q
      ∧ q.writes.length ≤ 1 ∧ (∀ x ∈ q.writes, q.deque.head? = some x.front)
      ∧ q.wire <+: q.started.flatMap XRMessagePtr.data
      ∧ q.started.length * 65536 ≤ q.wire.length + 65536
      ∧ q.started <+: q.written ∧ q.written.Nodup
      ∧ ∀ q₁ i, (q₁, .writeFailed i) ∈ r → q.started = q₁.started ∧ q.wire = q₁.wire := by
  obtain ⟨q, done, rfl, h⟩ := inOrder ⟨r, hr⟩
  obtain ⟨front, rest, part, hstarted, hdeque, hlen, hpart, hwire⟩ := h.stage.wire
  refine ⟨q, rfl, ?_, ?_, ?_, ?_, ?_, ?_, ?_⟩
  · cases h.stage with
    | idle _ hw | writing _ _ _ hw | failed _ _ _ _ _ hw => simp [hw]
  · cases h.stage with
    | idle _ hw | failed _ _ _ _ _ hw => simp [hw]
    | writing x rest hd hw => simp [hw, hd]
  · rw [hstarted, hwire, List.flatMap_append]
    exact (List.prefix_append_right_inj _).2 hpart
  · rw [hstarted, hwire, List.length_append, List.length_append, length_flatMap_data]
    omega
  · rw [hstarted, h.written, hdeque, List.append_assoc]
    exact (List.prefix_append_right_inj _).2 (List.prefix_append _ _)
  · refine List.Nodup.of_map XRMessagePtr.number ?_
    rw [h.numbered]
    exact List.nodup_range
  · intro q₁ i hx
    obtain ⟨r₁, -, hr₁, -, -⟩ := hr.before hx
    obtain ⟨q₂, done₁, hq₂, h₁⟩ := inOrder ⟨r₁, hr₁⟩
    cases hq₂
    obtain ⟨o₁, hs, hafter⟩ := hr.after
      (R := fun a b => Failed a → Failed b ∧ b.started = a.started ∧ b.wire = a.wire)
      (fun a ha => ⟨ha, rfl, rfl⟩)
      (fun a b c hab hbc ha => by
        obtain ⟨hb, h1, h2⟩ := hab ha
        obtain ⟨hc, h3, h4⟩ := hbc hb
        exact ⟨hc, h3.trans h1, h4.trans h2⟩)
      (fun a e o _ hs ha => failed_step ha hs) hx
    obtain ⟨q₂, hq, rfl⟩ := Option.map_eq_some_iff.1 hs
    obtain ⟨hfailed, hst, hwr⟩ := writeFailed_spec h₁ hq
    obtain ⟨-, hst', hwr'⟩ := hafter hfailed
    exact ⟨hst'.trans hst, hwr'.trans hwr⟩

/-- Two messages are written, and the second write fails. -/
def secondFails : List ClientEvent :=
  [.writeByte (ChatClient.helloAck 0 0), .writeByte ChatClient.credentialsAck, .posted, .posted,
    .writeSome 0 65536, .writeDone 0, .writeSome 0 8, .writeFailed 0]

theorem client_writes_in_order_two : ∃ r q, clientQueueMachine.Run r (.ok q)
    ∧ r.map Prod.snd = secondFails ∧ q.started.length = 2 ∧ q.wire.length = 65544
    ∧ q.wire <+: q.started.flatMap XRMessagePtr.data := by
  -- the bytes are counted by what is known of the state before the failure
  have hrun : (clientQueueMachine.exec ClientQueue.init secondFails.dropLast).any
      (Outcome.okAnd fun q => q.started.length = 2 ∧ q.writes.map ClientWrite.sent = [8])
        = true := by
    decide +kernel
  obtain ⟨r, q, hr, hes, hq⟩ := Machine.exec_okAnd hrun
  obtain ⟨hstarted, hsent⟩ := of_decide_eq_true hq
  obtain ⟨x, hwrites, hx⟩ := List.map_eq_singleton_iff.1 hsent
  have hget : q.writes[0]? = some x := by simp [hwrites]
  have hs : q.writeFailed 0 = some { q with writes := [], lost := true } := by
    simp [ClientQueue.writeFailed, hwrites]
  have hstep : clientQueueMachine.step q (.writeFailed 0)
      = some (.ok { q with writes := [], lost := true }) := congrArg (Option.map Outcome.ok) hs
  have hr' := hr.snoc hstep
  obtain ⟨q', done, hq', h⟩ := inOrder ⟨r, hr⟩
  cases hq'
  obtain ⟨-, rest, -, -, hdone, -, hwire⟩ := h.stage.write_eq hget
  obtain ⟨q', hq', -, -, hpre, -⟩ := client_writes_in_order hr'
  cases hq'
  refine ⟨_, _, hr', by rw [List.map_append, hes]; rfl, hstarted, ?_, hpre⟩
  have hlen : done.length + 1 = 2 := by rw [← hstarted, hdone, List.length_append]; rfl
  have htake : (x.front.data.take 8).length = 8 := by
    rw [List.length_take, XRMessagePtr.data, x.front.message.size_eq]
    rfl
  show q.wire.length = 65544
  rw [hwire, hx, List.length_append, length_flatMap_data, htake]
  omega

end XRNetwork
