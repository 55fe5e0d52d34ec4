import XRNetwork.Proofs.ChatLoop
import XRNetwork.Proofs.Agreement
import XRNetwork.Lib.Progress

/-!
# The update timer

Whoever starts the timer cancels the wait that is pending, so only one ever is. A wait that has
expired is not cancelled: its handler sends an update and starts the timer again. So from the first
`PARTICIPANT_JOIN` on there is a wait that will end without error (`Timing`), closing the socket
does not touch it, and `run` does not return (`shutdown_iff`).
-/

namespace XRNetwork

theorem countP_eraseIdx {α : Type*} {l : List α} {i : ℕ} {a : α} (p : α → Bool)
    (h : l[i]? = some a) : l.countP p = (l.eraseIdx i).countP p + if p a then 1 else 0 := by
  obtain ⟨hi, rfl⟩ := List.getElem?_eq_some_iff.1 h
  rw [← (List.getElem_cons_eraseIdx_perm hi).countP_eq p, List.countP_cons]

namespace Wait

theorem count_cancel (ws : List Wait) : (ws.map cancel).count pending = 0
    ∧ (ws.map cancel).count expired = ws.count expired
    ∧ (ws.map cancel).countP live + ws.count pending = ws.countP live := by
  induction ws with
  | nil => simp
  | cons w ws ih => cases w <;> simp [cancel, live, List.countP_cons, -List.countP_map] <;> omega

theorem count_expire (ws : List Wait) : (ws.map expire).count pending = 0
    ∧ (ws.map expire).count expired = ws.count expired + ws.count pending
    ∧ (ws.map expire).countP live = ws.countP live := by
  induction ws with
  | nil => simp
  | cons w ws ih => cases w <;> simp [expire, live, List.countP_cons, -List.countP_map] <;> omega

end Wait

theorem ClientQueue.written_step {q : ClientQueue} {e : ClientEvent} {o : Outcome Fault ClientQueue}
    (he : ∀ m, e ≠ .writeByte m) (hs : q.step e = some o) : o.state.written = q.written := by
  cases e with
  | writeByte m => exact absurd rfl (he m)
  | posted =>
    have hs : q.runPosted = some o := hs
    unfold runPosted doWriteByte at hs
    split at hs
    · cases hs
    · cases hs
      simp only
      split_ifs
      · rfl
      · split <;> rfl
  | writeSome i k =>
    obtain ⟨q', hq, rfl⟩ := Option.map_eq_some_iff.1 hs
    unfold writeSome at hq
    split at hq
    · cases hq
    · split_ifs at hq
      cases hq
      rfl
  | writeDone i =>
    have hs : q.writeDone i = some o := hs
    unfold writeDone doWriteByte at hs
    split at hs
    · cases hs
    · split_ifs at hs
      cases hs
      split
      · rfl
      · simp only
        split_ifs
        · rfl
        · split <;> rfl
  | writeFailed i =>
    obtain ⟨q', hq, rfl⟩ := Option.map_eq_some_iff.1 hs
    unfold writeFailed at hq
    split at hq
    · cases hq
    · cases hq
      rfl
  | close =>
    cases hs
    rfl

/-- The timer's handler runs without error. -/
def ChatEvent.isTimer : ChatEvent → Bool
  | timer .. => true
  | _ => false

/-- The time of the pending wait comes. -/
def ChatEvent.isExpire : ChatEvent → Bool
  | expire => true
  | _ => false

/-- A posted handler takes its message and starts one write at most. -/
theorem ClientQueue.runPosted_spec {q : ClientQueue} {p : XRMessagePtr} {rest : List XRMessagePtr}
    (hp : q.posted = p :: rest) : ∃ q', q.runPosted = some (.ok q') ∧ q'.posted = rest
      ∧ q'.writes.length ≤ q.writes.length + 1 := by
  rcases hd : q.deque with _ | ⟨front, deque⟩
  · exact ⟨{ q with
      posted := rest
      deque := [p]
      writes := q.writes ++ [⟨p, 0, q.isOpen⟩]
      started := q.started ++ [p] }, by simp [runPosted, hp, hd, doWriteByte], rfl, by simp⟩
  · exact ⟨{ q with posted := rest, deque := q.deque ++ [p] }, by simp [runPosted, hp, hd], rfl,
      by simp⟩

namespace ChatLoop

variable {participantId serviceId : UInt64} {c c' : ChatLoop} {e : ChatEvent}
  {o : Outcome Fault ChatLoop}

/-- How many times the client was told that it has joined. -/
def joins (c : ChatLoop) : ℕ := c.received.countP fun m => m.kind = some .participantJoin

/-- How many updates it has written. -/
def updates (c : ChatLoop) : ℕ :=
  c.queue.written.countP fun p => p.message.kind = some .participantUpdateAck

/-- The timer's waits: one pending at most; no more in force than times it was started by a message,
and some if it ever was; none before that. -/
structure Timing (c : ChatLoop) : Prop where
  one : c.waits.count .pending ≤ 1
  le : c.waits.countP Wait.live ≤ c.joins
  pos : 0 < c.joins → 0 < c.waits.countP Wait.live
  none : c.joins = 0 → c.waits = []
  updating : c.client.updating = true ↔ 0 < c.joins

theorem timing_init : Timing (init participantId serviceId) where
  one := by simp [init]
  le := by simp [init]
  pos := by simp [init, joins]
  none := fun _ => rfl
  updating := by simp [init, joins]

theorem joins_concat {m : XRMessage} (hm : c'.received = c.received ++ [m]) :
    c'.joins = c.joins + if m.kind = some .participantJoin then 1 else 0 := by
  simp [joins, hm, List.countP_append, List.countP_singleton]

theorem joins_same (hm : c'.received = c.received) : c'.joins = c.joins := by
  rw [joins, hm, joins]

theorem updating_onMessage (t : UInt64) (m : XRMessage) : (c.client.onMessage t m).1.updating = true
    ↔ c.client.updating = true ∨ m.kind = some .participantJoin := by
  rcases ChatClient.onMessage_cases (c := c.client) (t := t) (m := m) with
    ⟨hk, h⟩ | ⟨hk, h⟩ | ⟨hk, -, h⟩
  · simp [h, hk]
  · simp [h, hk]
  · simp [h, hk]

theorem timing_step (h : Timing c) (hs : c.step e = some (.ok c')) : Timing c' := by
  obtain ⟨hone, hle, hpos, hnone, hupd⟩ := h
  cases waits_cases hs with
  | @read i buf t m hm hc hw =>
    have hj := joins_concat hm
    have hupd' : c'.client.updating = true ↔ 0 < c'.joins := by
      rw [hc, updating_onMessage, hj, hupd]
      split_ifs with hk
      · simp [hk]
      · simp [hk]
    split_ifs at hw hj with hk
    · obtain ⟨h1, -, h3⟩ := Wait.count_cancel c.waits
      refine ⟨?_, ?_, fun _ => ?_, fun h => by omega, hupd'⟩ <;> rw [hw]
      · simp [List.count_append, h1]
      · rw [List.countP_append, List.countP_singleton, hj]
        simp only [Wait.live, if_true]
        omega
      · simp [List.countP_append, Wait.live]
    · exact ⟨hw ▸ hone, by rw [hw]; omega, fun h => by rw [hw]; omega,
        fun h => by rw [hw]; exact hnone (by omega), hupd'⟩
  | expire hp hm hc hw =>
    have hj := joins_same hm
    obtain ⟨h1, -, h3⟩ := Wait.count_expire c.waits
    refine ⟨?_, ?_, ?_, fun h => ?_, by rw [hc, hj]; exact hupd⟩
    · rw [hw, h1]
      exact zero_le_one
    · rw [hw, h3, hj]
      exact hle
    · rw [hw, h3, hj]
      exact hpos
    · rw [hw, hnone (hj ▸ h)]
      rfl
  | @timer i t stack hi hm hc hw =>
    have hj := joins_same hm
    have hlive := countP_eraseIdx Wait.live hi
    obtain ⟨h1, -, h3⟩ := Wait.count_cancel (c.waits.eraseIdx i)
    simp only [Wait.live, if_true] at hlive
    refine ⟨?_, ?_, fun _ => ?_, fun h => ?_, by rw [hc, hj]; exact hupd⟩
    · simp [hw, List.count_append, h1]
    · rw [hw, List.countP_append, List.countP_singleton, hj]
      simp only [Wait.live, if_true]
      omega
    · simp [hw, List.countP_append, Wait.live]
    · rw [hnone (hj ▸ h)] at hi
      simp at hi
  | @timerAborted i hi hm hc hw =>
    have hj := joins_same hm
    have hlive := countP_eraseIdx Wait.live hi
    have hcount := countP_eraseIdx (· == Wait.pending) hi
    simp only [Wait.live, Bool.false_eq_true, if_false, add_zero] at hlive
    refine ⟨?_, ?_, ?_, fun h => ?_, by rw [hc, hj]; exact hupd⟩
    · rw [hw]
      refine le_trans ?_ hone
      rw [List.count_eq_countP, List.count_eq_countP, hcount]
      omega
    · rw [hw, hj, ← hlive]
      exact hle
    · rw [hw, hj, ← hlive]
      exact hpos
    · rw [hnone (hj ▸ h)] at hi
      simp at hi
  | other _ _ hm hc hw =>
    have hj := joins_same hm
    exact ⟨hw ▸ hone, by rw [hw, hj]; exact hle, by rw [hw, hj]; exact hpos,
      by rw [hw, hj]; exact hnone, by rw [hc, hj]; exact hupd⟩

theorem timing (h : (chatMachine participantId serviceId).Reachable (.ok c)) : Timing c := by
  obtain ⟨r, hr⟩ := h
  exact hr.invariant_ok (P := fun _ _ => True) timing_init
    (fun c e c' _ hI _ hs => timing_step hI hs) fun _ _ => trivial

theorem kind_onTimer (d : ChatClient) (t : UInt64) (stack : Buffer 12) :
    (d.onTimer t stack).kind = some .participantUpdateAck := by
  rw [XRMessage.kind, ChatClient.onTimer, ChatClient.updateAck, XRMessage.head_ofPayload,
    ofCode_code]

/-- What the event makes the client write. -/
def writes (c : ChatLoop) : ChatEvent → List XRMessage
  | .read _ readBuffer timestamp =>
    (c.client.onMessage timestamp (receivedMessage readBuffer)).2.toList
  | .timer _ timestamp stack => [c.client.onTimer timestamp stack]
  | _ => []

theorem written_step (hs : c.step e = some (.ok c')) : c'.queue.written.map XRMessagePtr.message
    = c.queue.written.map XRMessagePtr.message ++ c.writes e := by
  have hq := queue_exec hs
  have hother : ∀ ev, (∀ m, ev ≠ .writeByte m) → clientQueueMachine.exec c.queue [ev]
      = some (.ok c'.queue) → c'.queue.written.map XRMessagePtr.message
        = c.queue.written.map XRMessagePtr.message ++ [] := by
    intro ev hev hexec
    have hw : c'.queue.written = c.queue.written :=
      ClientQueue.written_step hev (Machine.exec_singleton.1 hexec)
    rw [hw, List.append_nil]
  have hsame : clientQueueMachine.exec c.queue [] = some (.ok c'.queue) →
      c'.queue.written.map XRMessagePtr.message
        = c.queue.written.map XRMessagePtr.message ++ [] := by
    intro hexec
    obtain hw : c.queue = c'.queue := by simpa [Machine.exec] using hexec
    rw [hw, List.append_nil]
  have hwrite : ∀ m, clientQueueMachine.exec c.queue [.writeByte m] = some (.ok c'.queue) →
      c'.queue.written.map XRMessagePtr.message
        = c.queue.written.map XRMessagePtr.message ++ [m] := by
    intro m hexec
    have hstep : some (Outcome.ok (c.queue.writeByte m)) = some (.ok c'.queue) :=
      Machine.exec_singleton.1 hexec
    obtain hw : c.queue.writeByte m = c'.queue := Outcome.ok.inj (Option.some.inj hstep)
    rw [← hw, ClientQueue.writeByte, List.map_append]
    rfl
  cases e with
  | connected | connectFailed | readFailed | expire | timerAborted | close => exact hsame hq
  | read i buf t =>
    simp only [queueEvents] at hq
    rw [writes]
    rcases hx : (c.client.onMessage t (receivedMessage buf)).2 with _ | a <;> rw [hx] at hq
    · exact hsame hq
    · exact hwrite a hq
  | timer i t stack => exact hwrite _ hq
  | posted | writeSome | writeDone | writeFailed | closePosted => exact hother _ (by simp) hq

/-- Only the timer's handler writes an update. -/
theorem updates_step (hs : c.step e = some (.ok c')) :
    c'.updates = c.updates + if e.isTimer then 1 else 0 := by
  have hcount : ∀ d : ChatLoop, d.updates = (d.queue.written.map XRMessagePtr.message).countP
      fun m => m.kind = some .participantUpdateAck := fun d => by
    rw [updates, List.countP_map]
    rfl
  rw [hcount, hcount, written_step hs, List.countP_append]
  refine congrArg _ ?_
  cases e with
  | read i buf t =>
    refine List.countP_eq_zero.2 fun m hm => ?_
    have hk := ChatClient.kind_onMessage (c := c.client) (t := t) (m := receivedMessage buf) m
      (Option.mem_toList.1 hm)
    simpa using hk
  | timer i t stack => simp [writes, kind_onTimer, ChatEvent.isTimer]
  | _ => rfl

/-- Each expiry is answered by a handler or awaits it. -/
theorem expiries_step (h : Timing c) (hs : c.step e = some (.ok c')) :
    c'.waits.count .expired + (if e.isTimer then 1 else 0)
      = c.waits.count .expired + if e.isExpire then 1 else 0 := by
  cases waits_cases hs with
  | @read i buf t m hm hc hw =>
    simp only [ChatEvent.isTimer, ChatEvent.isExpire, hw]
    by_cases hk : m.kind = some .participantJoin
    · simp [hk, List.count_append, (Wait.count_cancel c.waits).2.1]
    · simp [hk]
  | expire hp hm hc hw =>
    have hpos := List.count_pos_iff.2 hp
    have hone := h.one
    simp only [ChatEvent.isTimer, ChatEvent.isExpire, hw, (Wait.count_expire c.waits).2.1]
    simp
    omega
  | @timer i t stack hi hm hc hw =>
    have hcount := countP_eraseIdx (· == Wait.expired) hi
    simp only [ChatEvent.isTimer, ChatEvent.isExpire, hw, List.count_append,
      (Wait.count_cancel _).2.1]
    simp [List.count_eq_countP, hcount]
  | @timerAborted i hi hm hc hw =>
    have hcount := countP_eraseIdx (· == Wait.expired) hi
    simp only [ChatEvent.isTimer, ChatEvent.isExpire, hw]
    simp [List.count_eq_countP, hcount]
  | other he ht hm hc hw =>
    cases e <;> simp_all [ChatEvent.isTimer, ChatEvent.isExpire]

/-! ## Coming to an end -/

theorem received_step (hs : c.step e = some (.ok c')) : c.received <+: c'.received := by
  cases waits_cases hs with
  | read hm => exact ⟨_, hm.symm⟩
  | expire _ hm | timer _ hm | timerAborted _ hm | other _ _ hm => rw [hm]

theorem Timing.not_idle (h : Timing c) (hj : 0 < c.joins) : ¬ c.Idle := by
  rintro ⟨-, -, hw, -⟩
  have := h.pos hj
  simp [hw] at this

/-- What is outstanding, each with what its handlers may start in turn. -/
def outstanding (c : ChatLoop) : ℕ :=
  2 * (if c.connecting then 1 else 0) + 2 * c.reads.length + c.closing
    + 3 * c.queue.posted.length + 2 * c.queue.writes.length

/-- Before the client has joined, some operation of those outstanding can fail or some handler run,
and leaves less to be done. -/
theorem settles (h : (chatMachine participantId serviceId).Reachable (.ok c)) (hj : c.joins = 0)
    (hidle : ¬ c.Idle) : ∃ e c', c.step e = some (.ok c') ∧ c'.joins = 0
      ∧ c'.outstanding < c.outstanding := by
  by_cases hconn : c.connecting = true
  · refine ⟨.connectFailed, { c with connecting := false }.close, by simp [step, hconn], hj, ?_⟩
    simp [outstanding, close, hconn]
    omega
  rcases hreads : c.reads with _ | ⟨b, reads⟩
  swap
  · refine ⟨.readFailed 0, { c with reads := c.reads.eraseIdx 0 }.close, by simp [step, hreads], hj,
      ?_⟩
    simp [outstanding, close, hreads]
    omega
  by_cases hclosing : 0 < c.closing
  · refine ⟨.closePosted, { c with closing := c.closing - 1, queue := { c.queue with
      isOpen := false } }, by rw [step, if_pos hclosing]; rfl, hj, ?_⟩
    simp only [outstanding]
    omega
  rcases hposted : c.queue.posted with _ | ⟨p, posted⟩
  swap
  · obtain ⟨q, hq, hlen, hwrites⟩ := ClientQueue.runPosted_spec hposted
    refine ⟨.posted, { c with queue := q }, by simp [step, ClientQueue.step, hq, putQueue,
      Outcome.map], hj, ?_⟩
    simp only [outstanding, hlen, hposted, List.length_cons]
    omega
  rcases hwrites : c.queue.writes with _ | ⟨x, writes⟩
  swap
  · refine ⟨.writeFailed 0, { c with queue := { c.queue with
      writes := c.queue.writes.eraseIdx 0, lost := true } }.close,
      by simp [step, ClientQueue.step, ClientQueue.writeFailed, hwrites, putQueue, Outcome.map,
        close], hj, ?_⟩
    simp [outstanding, close, hwrites]
    omega
  exact absurd ⟨by simpa using hconn, hreads, (timing h).none hj, by omega, hposted, hwrites⟩ hidle

end ChatLoop

open ChatLoop

/-- In every run of the chat client its update timer has one pending wait at most, and no more waits in
force than `PARTICIPANT_JOIN`s were read; and every expiry of the timer is answered by one update, or
its handler has yet to run. -/
theorem update_timer {participantId serviceId : UInt64} {r : List (ChatLoop × ChatEvent)}
    {o : Outcome Fault ChatLoop} (hr : (chatMachine participantId serviceId).Run r o) :
    o.state.waits.count .pending ≤ 1 ∧ o.state.waits.countP Wait.live ≤ o.state.joins
      ∧ o.state.updates = r.countP (fun x => x.2.isTimer)
      ∧ o.state.updates + o.state.waits.count .expired = r.countP fun x => x.2.isExpire := by
  induction hr with
  | nil => exact ⟨by simp [chatMachine, init], by simp [chatMachine, init],
      by simp [chatMachine, init, updates, ClientQueue.init],
      by simp [chatMachine, init, updates, ClientQueue.init]⟩
  | @snoc r c e o hr hs ih =>
    obtain ⟨-, -, htimer, hexpire⟩ := ih
    obtain ⟨c', rfl⟩ := returns ⟨r, hr⟩ hs
    rw [Outcome.state_ok] at htimer hexpire ⊢
    have hT := timing ⟨_, hr⟩
    have hT' := timing_step hT hs
    have hupdates := updates_step hs
    have hexpiries := expiries_step hT hs
    refine ⟨hT'.one, hT'.le, ?_, ?_⟩
    · rw [List.countP_append, List.countP_singleton, hupdates, htimer]
    · rw [List.countP_append, List.countP_singleton, ← hexpire]
      show _ = _ + if e.isExpire then 1 else 0
      omega

/-- The client is told twice that it has joined, the second time when the timer has expired but its
handler has not run. -/
def welcomedTwice : List ChatEvent :=
  [.connected, .read 0 (Server.participantJoin 1).toMessage.frame 0, .expire,
    .read 0 (Server.participantJoin 1).toMessage.frame 0, .timer 0 0 (.zero 12), .expire]

theorem update_timer_twice : ∃ r c, (chatMachine 0 0).Run r (.ok c)
    ∧ r.map Prod.snd = welcomedTwice ∧ c.waits = [.aborted, .expired] ∧ c.joins = 2
    ∧ c.updates + c.waits.count .expired = r.countP fun x => x.2.isExpire := by
  have hrun : ((chatMachine 0 0).exec (init 0 0) welcomedTwice).any
      (Outcome.okAnd fun c => c.waits = [.aborted, .expired] ∧ c.joins = 2) = true := by
    decide +kernel
  obtain ⟨r, c, hr, hes, hc⟩ := Machine.exec_okAnd hrun
  obtain ⟨hw, hj⟩ := of_decide_eq_true hc
  obtain ⟨-, -, -, hcount⟩ := update_timer hr
  exact ⟨r, c, hr, hes, hw, hj, hcount⟩

/-- The client's `io_context` can run out of work, so that `run` returns and `main` can join its
thread, if and only if the client was never told that it has joined. -/
theorem shutdown_iff {participantId serviceId : UInt64} {c : ChatLoop}
    (h : (chatMachine participantId serviceId).Reachable (.ok c)) :
    (∃ es c', (chatMachine participantId serviceId).exec c es = some (.ok c') ∧ c'.Idle) ↔
      c.joins = 0 := by
  constructor
  · rintro ⟨es, c', hexec, hidle⟩
    have hreceived : c.received <+: c'.received :=
      Machine.exec_invariant (I := fun d => c.received <+: d.received)
        (fun d e d' hd hs => hd.trans (received_step hs)) List.prefix_rfl hexec
    have hle : c.joins ≤ c'.joins := hreceived.sublist.countP_le
    by_contra hj
    exact (timing (h.exec hexec)).not_idle (by omega) hidle
  · intro hj
    obtain ⟨es, c', -, hexec, -, hidle⟩ := Machine.exec_until (M := chatMachine participantId serviceId)
      (I := fun d => (chatMachine participantId serviceId).Reachable (.ok d) ∧ d.joins = 0)
      (R := Idle) (P := fun _ => True) outstanding (fun d hd hidle => by
        obtain ⟨e, d', hs, hj', hlt⟩ := settles hd.1 hd.2 hidle
        exact ⟨e, d', trivial, hs, ⟨hd.1.step hs, hj'⟩, hlt⟩) c ⟨h, hj⟩
    exact ⟨es, c', hexec, hidle⟩

/-- A client that is connected and has joined. -/
theorem shutdown_iff_joined : ∃ c, (chatMachine 0 0).Reachable (.ok c) ∧ c.joins = 1
    ∧ ¬ ∃ es c', (chatMachine 0 0).exec c es = some (.ok c') ∧ c'.Idle := by
  have hrun : ((chatMachine 0 0).exec (init 0 0) (welcomedTwice.take 2)).any
      (Outcome.okAnd fun c => c.joins = 1) = true := by
    decide +kernel
  obtain ⟨r, c, hr, -, hc⟩ := Machine.exec_okAnd hrun
  have hj := of_decide_eq_true hc
  exact ⟨c, ⟨r, hr⟩, hj, fun h => by simp [(shutdown_iff ⟨r, hr⟩).1 h] at hj⟩

end XRNetwork
