import XRNetwork.ChatLoop
import XRNetwork.Proofs.ClientWrites
import XRNetwork.Lib.Simulation

/-!
# The chat client's reads, timer and writes

The client's write queue goes through a run of its own (`follows_queue`), so no handler finds it empty
that takes its front, and what holds of the queue holds here. Reads and waits are told apart by what a
step does to them (`Reads`, `Waits`).
-/

namespace XRNetwork

namespace ChatLoop

variable {participantId serviceId : UInt64} {c c' : ChatLoop} {e : ChatEvent}
  {o : Outcome Fault ChatLoop}

/-- What the event is to the write queue. -/
def queueEvents (c : ChatLoop) : ChatEvent → List ClientEvent
  | .read _ readBuffer timestamp =>
    ((c.client.onMessage timestamp (receivedMessage readBuffer)).2.map .writeByte).toList
  | .timer _ timestamp stack => [.writeByte (c.client.onTimer timestamp stack)]
  | .posted => [.posted]
  | .writeSome i k => [.writeSome i k]
  | .writeDone i => [.writeDone i]
  | .writeFailed i => [.writeFailed i]
  | .closePosted => [.close]
  | _ => []

@[simp] theorem answer_queue (c : ChatLoop) (x : Option XRMessage) :
    (c.answer x).queue = x.elim c.queue c.queue.writeByte := by cases x <;> rfl

@[simp] theorem beginParticipantUpdate_queue (c : ChatLoop) :
    c.beginParticipantUpdate.queue = c.queue := rfl

@[simp] theorem doReadByte_queue (c : ChatLoop) : c.doReadByte.queue = c.queue := rfl

theorem onRead_queue (c : ChatLoop) (t : UInt64) (m : XRMessage) : (c.onRead t m).queue
    = (c.client.onMessage t m).2.elim c.queue c.queue.writeByte := by
  unfold onRead
  split_ifs <;> simp

theorem putQueue_eq_ok {q : Outcome Fault ClientQueue} :
    c.putQueue q = .ok c' ↔ ∃ x, q = .ok x ∧ c' = { c with queue := x } := by
  cases q <;> simp [putQueue, Outcome.map, eq_comm]

/-- A handler of the queue that has returned. -/
theorem queue_step {ev : ClientEvent} {d : ChatLoop}
    (hs : (c.queue.step ev).map d.putQueue = some (.ok c')) :
    ∃ q, clientQueueMachine.exec c.queue [ev] = some (.ok q) ∧ c' = { d with queue := q } := by
  obtain ⟨x, hx, hc⟩ := Option.map_eq_some_iff.1 hs
  obtain ⟨q, rfl, rfl⟩ := putQueue_eq_ok.1 hc
  exact ⟨q, Machine.exec_singleton.2 hx, rfl⟩

theorem queue_exec (hs : c.step e = some (.ok c')) :
    clientQueueMachine.exec c.queue (c.queueEvents e) = some (.ok c'.queue) := by
  cases e with
  | connected | connectFailed | readFailed | expire | timerAborted =>
    simp only [step] at hs
    split_ifs at hs
    cases hs
    rfl
  | close =>
    cases hs
    rfl
  | read i buf t =>
    simp only [step] at hs
    split_ifs at hs
    cases hs
    rw [onRead_queue, queueEvents]
    cases (c.client.onMessage t (receivedMessage buf)).2 <;> rfl
  | timer i t stack =>
    simp only [step] at hs
    split_ifs at hs
    cases hs
    rfl
  | posted | writeSome | writeDone | writeFailed =>
    obtain ⟨q, hq, rfl⟩ := queue_step hs
    exact hq
  | closePosted =>
    simp only [step] at hs
    split_ifs at hs
    obtain ⟨q, hq, rfl⟩ := queue_step hs
    exact hq

theorem follows_queue : (chatMachine participantId serviceId).Follows clientQueueMachine
    (fun _ _ => True) (fun _ => True) queue queueEvents where
  holds := trivial
  init := rfl
  step := fun _ _ _ _ _ _ hs => ⟨trivial, queue_exec hs⟩

theorem queue_inOrder (h : (chatMachine participantId serviceId).Reachable (.ok c)) :
    ∃ done, c.queue.InOrder done := by
  obtain ⟨r, hr⟩ := h
  obtain ⟨q, done, hq, hin⟩ :=
    ClientQueue.inOrder (follows_queue.reachable hr fun _ _ => trivial)
  cases hq
  exact ⟨done, hin⟩

/-- No handler of the client takes the front of an empty queue, the one fault its steps know. -/
theorem returns_of_inOrder {done : List XRMessagePtr} (hin : c.queue.InOrder done)
    (hs : c.step e = some o) : ∃ c', o = .ok c' := by
  have hqueue : ∀ {ev : ClientEvent} {d : ChatLoop}, (c.queue.step ev).map d.putQueue = some o →
      ∃ c', o = .ok c' := by
    intro ev d hs
    obtain ⟨x, hx, rfl⟩ := Option.map_eq_some_iff.1 hs
    obtain ⟨q, -, rfl, -⟩ := ClientQueue.inOrder_step hin hx
    exact ⟨_, rfl⟩
  cases e with
  | connected | connectFailed | read | readFailed | expire | timer | timerAborted =>
    simp only [step] at hs
    split_ifs at hs
    cases hs
    exact ⟨_, rfl⟩
  | close =>
    cases hs
    exact ⟨_, rfl⟩
  | posted | writeSome | writeDone | writeFailed => exact hqueue hs
  | closePosted =>
    simp only [step] at hs
    split_ifs at hs
    exact hqueue hs

theorem returns (h : (chatMachine participantId serviceId).Reachable (.ok c))
    (hs : c.step e = some o) : ∃ c', o = .ok c' := by
  obtain ⟨done, hin⟩ := queue_inOrder h
  exact returns_of_inOrder hin hs

theorem run_ok {r : List (ChatLoop × ChatEvent)}
    (hr : (chatMachine participantId serviceId).Run r o) : ∃ c, o = .ok c := by
  cases hr with
  | nil => exact ⟨_, rfl⟩
  | snoc hr hs => exact returns ⟨_, hr⟩ hs

/-! ## What a step does to the reads and to the timer -/

/-- The connection is made, or fails; a read fills its buffer and the next is started; a read
fails. -/
inductive Reads (c c' : ChatLoop) : ChatEvent → Prop
  | connected (hc : c.connecting = true) (hc' : c'.connecting = false)
      (hr : c'.reads = c.reads ++ [c.queue.isOpen]) : Reads c c' .connected
  | connectFailed (hc : c.connecting = true) (hc' : c'.connecting = false)
      (hr : c'.reads = c.reads) : Reads c c' .connectFailed
  | read {i : ℕ} {buf : Buffer 65536} {t : UInt64} {b : Bool} (hi : c.reads[i]? = some true)
      (hc : c'.connecting = c.connecting) (hr : c'.reads = c.reads.eraseIdx i ++ [b]) :
      Reads c c' (.read i buf t)
  | readFailed {i : ℕ} (hi : i < c.reads.length) (hc : c'.connecting = c.connecting)
      (hr : c'.reads = c.reads.eraseIdx i) : Reads c c' (.readFailed i)
  | other {e : ChatEvent} (he : e ≠ .connected) (hf : ∀ i, e ≠ .readFailed i)
      (hc : c'.connecting = c.connecting) (hr : c'.reads = c.reads) : Reads c c' e

@[simp] theorem answer_reads (c : ChatLoop) (x : Option XRMessage) :
    (c.answer x).reads = c.reads := by cases x <;> rfl

@[simp] theorem answer_connecting (c : ChatLoop) (x : Option XRMessage) :
    (c.answer x).connecting = c.connecting := by cases x <;> rfl

@[simp] theorem answer_waits (c : ChatLoop) (x : Option XRMessage) :
    (c.answer x).waits = c.waits := by cases x <;> rfl

@[simp] theorem answer_received (c : ChatLoop) (x : Option XRMessage) :
    (c.answer x).received = c.received := by cases x <;> rfl

@[simp] theorem answer_client (c : ChatLoop) (x : Option XRMessage) :
    (c.answer x).client = c.client := by cases x <;> rfl

@[simp] theorem answer_closing (c : ChatLoop) (x : Option XRMessage) :
    (c.answer x).closing = c.closing := by cases x <;> rfl

theorem onRead_reads (c : ChatLoop) (t : UInt64) (m : XRMessage) :
    (c.onRead t m).connecting = c.connecting
      ∧ (c.onRead t m).reads = c.reads ++ [(c.onRead t m).queue.isOpen] := by
  unfold onRead
  split_ifs <;> simp [doReadByte, beginParticipantUpdate]

theorem reads_cases (hs : c.step e = some (.ok c')) : Reads c c' e := by
  cases e with
  | connected =>
    simp only [step] at hs
    split_ifs at hs with hc
    cases hs
    exact .connected hc rfl rfl
  | connectFailed =>
    simp only [step] at hs
    split_ifs at hs with hc
    cases hs
    exact .connectFailed hc rfl rfl
  | read i buf t =>
    simp only [step] at hs
    split_ifs at hs with hi
    cases hs
    obtain ⟨hc, hr⟩ := onRead_reads { c with reads := c.reads.eraseIdx i } t (receivedMessage buf)
    exact .read hi hc hr
  | readFailed i =>
    simp only [step] at hs
    split_ifs at hs with hi
    cases hs
    exact .readFailed hi rfl rfl
  | expire | timer | timerAborted =>
    simp only [step] at hs
    split_ifs at hs
    cases hs
    exact .other (by simp) (by simp) rfl rfl
  | close =>
    cases hs
    exact .other (by simp) (by simp) rfl rfl
  | posted | writeSome | writeDone | writeFailed =>
    obtain ⟨q, -, rfl⟩ := queue_step hs
    exact .other (by simp) (by simp) rfl rfl
  | closePosted =>
    simp only [step] at hs
    split_ifs at hs
    obtain ⟨q, -, rfl⟩ := queue_step hs
    exact .other (by simp) (by simp) rfl rfl

/-- A message is read, and the timer is started if it is the word that the client has joined; the
pending wait's time comes; a handler of the timer runs, with or without error. -/
inductive Waits (c c' : ChatLoop) : ChatEvent → Prop
  | read {i : ℕ} {buf : Buffer 65536} {t : UInt64} {m : XRMessage}
      (hm : c'.received = c.received ++ [m]) (hc : c'.client = (c.client.onMessage t m).1)
      (hw : c'.waits = if m.kind = some .participantJoin then c.waits.map Wait.cancel ++ [.pending]
        else c.waits) : Waits c c' (.read i buf t)
  | expire (hp : .pending ∈ c.waits) (hm : c'.received = c.received) (hc : c'.client = c.client)
      (hw : c'.waits = c.waits.map Wait.expire) : Waits c c' .expire
  | timer {i : ℕ} {t : UInt64} {stack : Buffer 12} (hi : c.waits[i]? = some .expired)
      (hm : c'.received = c.received) (hc : c'.client = c.client)
      (hw : c'.waits = (c.waits.eraseIdx i).map Wait.cancel ++ [.pending]) :
      Waits c c' (.timer i t stack)
  | timerAborted {i : ℕ} (hi : c.waits[i]? = some .aborted) (hm : c'.received = c.received)
      (hc : c'.client = c.client) (hw : c'.waits = c.waits.eraseIdx i) :
      Waits c c' (.timerAborted i)
  | other {e : ChatEvent} (he : e ≠ .expire) (ht : ∀ i t stack, e ≠ .timer i t stack)
      (hm : c'.received = c.received) (hc : c'.client = c.client) (hw : c'.waits = c.waits) :
      Waits c c' e

theorem waits_cases (hs : c.step e = some (.ok c')) : Waits c c' e := by
  cases e with
  | read i buf t =>
    simp only [step] at hs
    split_ifs at hs with hi
    cases hs
    unfold onRead
    split_ifs with hk
    · exact .read (m := receivedMessage buf) (by simp [doReadByte, beginParticipantUpdate])
        (by simp [doReadByte, beginParticipantUpdate])
        (by simp [doReadByte, beginParticipantUpdate, hk])
    · exact .read (m := receivedMessage buf) (by simp [doReadByte]) (by simp [doReadByte])
        (by simp [doReadByte, hk])
  | expire =>
    simp only [step] at hs
    split_ifs at hs with hp
    cases hs
    exact .expire hp rfl rfl rfl
  | timer i t stack =>
    simp only [step] at hs
    split_ifs at hs with hi
    cases hs
    exact .timer hi rfl rfl rfl
  | timerAborted i =>
    simp only [step] at hs
    split_ifs at hs with hi
    cases hs
    exact .timerAborted hi rfl rfl rfl
  | connected | connectFailed | readFailed =>
    simp only [step] at hs
    split_ifs at hs
    cases hs
    exact .other (by simp) (by simp) rfl rfl rfl
  | close =>
    cases hs
    exact .other (by simp) (by simp) rfl rfl rfl
  | posted | writeSome | writeDone | writeFailed =>
    obtain ⟨q, -, rfl⟩ := queue_step hs
    exact .other (by simp) (by simp) rfl rfl rfl
  | closePosted =>
    simp only [step] at hs
    split_ifs at hs
    obtain ⟨q, -, rfl⟩ := queue_step hs
    exact .other (by simp) (by simp) rfl rfl rfl

/-- A read has failed. -/
def ReadFailed (r : List (ChatLoop × ChatEvent)) : Prop := ∃ x ∈ r, ∃ i, x.2 = .readFailed i

/-- The connection has been made. -/
def Connected (r : List (ChatLoop × ChatEvent)) : Prop := ∃ x ∈ r, x.2 = .connected

theorem connected_snoc {r : List (ChatLoop × ChatEvent)} :
    Connected (r ++ [(c, e)]) ↔ Connected r ∨ e = .connected := by
  simp [Connected, or_and_right, exists_or]

theorem readFailed_snoc {r : List (ChatLoop × ChatEvent)} :
    ReadFailed (r ++ [(c, e)]) ↔ ReadFailed r ∨ ∃ i, e = .readFailed i := by
  simp [ReadFailed, or_and_right, exists_or]

/-- A read is outstanding from the connection on until one fails. -/
structure Reading (r : List (ChatLoop × ChatEvent)) (c : ChatLoop) : Prop where
  connecting : c.connecting = true → ¬ Connected r
  failed : ReadFailed r → Connected r
  some : Connected r → ¬ ReadFailed r → c.reads.length = 1
  none : ¬ Connected r ∨ ReadFailed r → c.reads = []

theorem Reading.one {r : List (ChatLoop × ChatEvent)} (h : Reading r c) {i : ℕ}
    (hi : i < c.reads.length) : i = 0 ∧ c.reads.length = 1 ∧ Connected r ∧ ¬ ReadFailed r := by
  have hc : Connected r ∧ ¬ ReadFailed r := by
    by_contra hno
    rw [not_and_or, not_not] at hno
    simp [h.none hno] at hi
  have hlen := h.some hc.1 hc.2
  exact ⟨by omega, hlen, hc⟩

theorem reading_step {r : List (ChatLoop × ChatEvent)} (h : Reading r c)
    (hs : c.step e = some (.ok c')) : Reading (r ++ [(c, e)]) c' := by
  cases reads_cases hs with
  | connected hc hc' hr =>
    have hno := h.connecting hc
    have hfailed : ¬ ReadFailed r := fun hf => hno (h.failed hf)
    refine ⟨fun h => by simp [hc'] at h, fun _ => connected_snoc.2 (.inr rfl), fun _ _ => ?_,
      fun hor => ?_⟩
    · simp [hr, h.none (.inl hno)]
    · rw [connected_snoc, readFailed_snoc] at hor
      simp [hfailed] at hor
  | connectFailed hc hc' hr =>
    have hno := h.connecting hc
    refine ⟨fun h => by simp [hc'] at h, fun hf => ?_, fun hcon => ?_, fun _ => ?_⟩
    · rw [readFailed_snoc] at hf
      simp at hf
      exact absurd (h.failed hf) hno
    · rw [connected_snoc] at hcon
      simp [hno] at hcon
    · rw [hr, h.none (.inl hno)]
  | @read i buf t b hi hc hr =>
    obtain ⟨rfl, hlen, hcon, hfailed⟩ := h.one (List.getElem?_eq_some_iff.1 hi).1
    refine ⟨fun hc' => absurd hcon (h.connecting (hc ▸ hc')),
      fun _ => connected_snoc.2 (.inl hcon), fun _ _ => ?_, fun hor => ?_⟩
    · rw [hr, List.length_append, List.length_eraseIdx, hlen]
      simp
    · rw [connected_snoc, readFailed_snoc] at hor
      simp [hcon, hfailed] at hor
  | @readFailed i hi hc hr =>
    obtain ⟨rfl, hlen, hcon, -⟩ := h.one hi
    refine ⟨fun hc' => absurd hcon (h.connecting (hc ▸ hc')),
      fun _ => connected_snoc.2 (.inl hcon), fun _ hno => ?_, fun _ => ?_⟩
    · exact absurd (readFailed_snoc.2 (.inr ⟨0, rfl⟩)) hno
    · rw [hr, List.eraseIdx_eq_nil_iff]
      exact .inr ⟨hlen, rfl⟩
  | other he hf hc hr =>
    have hfailed : ReadFailed (r ++ [(c, e)]) ↔ ReadFailed r := by
      rw [readFailed_snoc]
      exact or_iff_left (by simpa using hf)
    have hcon : Connected (r ++ [(c, e)]) ↔ Connected r := by
      rw [connected_snoc]
      exact or_iff_left he
    refine ⟨fun hc' => hcon.not.2 (h.connecting (hc ▸ hc')),
      fun hf => hcon.2 (h.failed (hfailed.1 hf)), fun h1 h2 => ?_, fun hor => ?_⟩
    · rw [hr]
      exact h.some (hcon.1 h1) (hfailed.not.1 h2)
    · rw [hcon, hfailed] at hor
      rw [hr, h.none hor]

theorem reading {r : List (ChatLoop × ChatEvent)}
    (hr : (chatMachine participantId serviceId).Run r (.ok c)) : Reading r c := by
  generalize ho : Outcome.ok c = o at hr
  induction hr generalizing c with
  | nil =>
    cases ho
    exact ⟨by simp [Connected], by simp [ReadFailed], by simp [Connected], fun _ => rfl⟩
  | snoc hr hs ih =>
    subst ho
    exact reading_step (ih rfl) hs

end ChatLoop

open ChatLoop

/-- In every run of the chat client its one `read_buffer_` is never being read into twice: a read is
outstanding from the connection on, and none after one has failed. -/
theorem client_reader {participantId serviceId : UInt64} {r : List (ChatLoop × ChatEvent)}
    {o : Outcome Fault ChatLoop} (hr : (chatMachine participantId serviceId).Run r o) :
    o.state.reads.length ≤ 1 ∧ (o.state.reads.length = 1 ↔ Connected r ∧ ¬ ReadFailed r) := by
  obtain ⟨c, rfl⟩ := run_ok hr
  have h := reading hr
  rw [Outcome.state_ok]
  by_cases hc : Connected r ∧ ¬ ReadFailed r
  · have hone := h.some hc.1 hc.2
    exact ⟨hone.le, iff_of_true hone hc⟩
  · have hnil : c.reads = [] := h.none (by rwa [not_and_or, not_not] at hc)
    exact ⟨by simp [hnil], iff_of_false (by simp [hnil]) hc⟩

/-- The connection is lost after a message. -/
def lostConnection : List ChatEvent :=
  [.connected, .read 0 HandshakeCredentials.default.toMessage.frame 0, .close, .readFailed 0]

theorem client_reader_lost : ∃ r c, (chatMachine 0 0).Run r (.ok c)
    ∧ r.map Prod.snd = lostConnection ∧ ReadFailed r ∧ c.reads.length ≠ 1 := by
  have hrun : ((chatMachine 0 0).exec (init 0 0) lostConnection).any
      (Outcome.okAnd fun c => c.received.length = 1) = true := by
    decide +kernel
  obtain ⟨r, c, hr, hes, -⟩ := Machine.exec_okAnd hrun
  have hfailed : ReadFailed r := by
    have hmem : ChatEvent.readFailed 0 ∈ r.map Prod.snd := by
      rw [hes]
      simp [lostConnection]
    obtain ⟨x, hx, hi⟩ := List.mem_map.1 hmem
    exact ⟨x, hx, 0, hi⟩
  obtain ⟨-, hiff⟩ := client_reader hr
  exact ⟨r, c, hr, hes, hfailed, fun h => (hiff.1 h).2 hfailed⟩

end XRNetwork
