import XRNetwork.ByteLink
import XRNetwork.Proofs.HandOff
import XRNetwork.Proofs.Handed
import XRNetwork.Proofs.Heard
import XRNetwork.Proofs.UpdateTimer
import XRNetwork.Proofs.Codec

/-!
# Whole messages out of bytes

As long as the session has one writer, a block of 65536 bytes taken off either wire is a message of
those written to it, the next in order: the streams of bytes are the channels of whole messages of
`Link` (`follows_link`), and what holds of those holds here.
-/

namespace XRNetwork

/-! ## Blocks of a stream of messages -/

theorem length_data {ms : List XRMessage} : ∀ b ∈ ms.map XRMessage.data, b.length = 65536 := by
  intro b hb
  obtain ⟨m, -, rfl⟩ := List.mem_map.1 hb
  exact m.size_eq

theorem length_wire_le {ms : List XRMessage} {wire : Bytes}
    (h : wire <+: (ms.map XRMessage.data).flatten) : wire.length ≤ 65536 * ms.length := by
  have := h.length_le
  rwa [Blocks.length_flatten length_data, List.length_map] at this

theorem streamBlock_eq_some {ms : List XRMessage} {wire : Bytes} {n : ℕ} {b : Buffer 65536}
    (h : wire <+: (ms.map XRMessage.data).flatten) (hb : streamBlock n wire = some b) :
    65536 * (n + 1) ≤ wire.length ∧ ∃ m, ms[n]? = some m ∧ b = m.frame := by
  unfold streamBlock at hb
  simp only at hb
  split_ifs at hb with hlen
  cases hb
  have hle : 65536 * (n + 1) ≤ wire.length := by
    rw [List.length_take, List.length_drop] at hlen
    omega
  have hms := length_wire_le h
  have hn : n < ms.length := by omega
  refine ⟨hle, ms[n], List.getElem?_eq_getElem hn, Subtype.ext ?_⟩
  have hdrop : (ms.map XRMessage.data).drop n
      = ms[n].data :: (ms.map XRMessage.data).drop (n + 1) := by
    rw [List.drop_eq_getElem_cons (by simpa using hn), List.getElem_map]
  show (wire.drop (65536 * n)).take 65536 = ms[n].data
  rw [List.prefix_iff_eq_take.1 h, List.drop_take, List.take_take,
    Blocks.drop_flatten n length_data, hdrop, List.flatten_cons,
    Nat.min_eq_left (by omega), List.take_left' ms[n].size_eq]

section Window

variable {α : Type*} {L : List α} {d n : ℕ} {x : α}

theorem take_append_window (h : d ≤ n) : L.take d ++ (L.take n).drop d = L.take n := by
  have hL := List.take_append_drop d (L.take n)
  rwa [List.take_take, Nat.min_eq_left h] at hL

theorem window_succ (h : d ≤ n) (hx : L[n]? = some x) :
    (L.take (n + 1)).drop d = (L.take n).drop d ++ [x] := by
  obtain ⟨hn, rfl⟩ := List.getElem?_eq_some_iff.1 hx
  rw [← List.take_append_getElem hn, List.drop_append_of_le_length]
  rw [List.length_take]
  omega

theorem window_cons (h : d < n) (hx : L[d]? = some x) :
    (L.take n).drop d = x :: (L.take n).drop (d + 1) := by
  obtain ⟨hd, rfl⟩ := List.getElem?_eq_some_iff.1 hx
  have hlt : d < (L.take n).length := by
    rw [List.length_take]
    omega
  rw [List.drop_eq_getElem_cons hlt, List.getElem_take]

theorem take_succ_of_getElem? (hx : L[d]? = some x) : L.take (d + 1) = L.take d ++ [x] := by
  obtain ⟨hd, rfl⟩ := List.getElem?_eq_some_iff.1 hx
  exact (List.take_append_getElem hd).symm

end Window

namespace WriteSide

/-- A write goes on within its message: at most one message more is on the wire, and then it is one
whose write was started. -/
theorem InOrder.writeSome {x y : WriteSide} (h : InOrder x) (hd : x.deque = []) (hsplit : Split x)
    {ms : List XRMessage} (hms : x.delivered = ms.map XRMessage.data) {i k : ℕ}
    (hs : x.writeSome i k = some y) : y.wire.length = x.wire.length + k
      ∧ (y.wire.length / 65536 = x.wire.length / 65536
        ∨ y.wire.length / 65536 = x.wire.length / 65536 + 1
          ∧ y.sends (x.wire.length / 65536) = true) := by
  have hopen : y.isOpen = true := by
    unfold WriteSide.writeSome at hs
    split at hs
    · cases hs
    · split_ifs at hs with hc
      cases hs
      simp only [Bool.and_eq_true] at hc
      exact hc.1.1.1
  obtain ⟨w', hw', -, z, hz, hle, hlost, rfl⟩ := step_cases (e := .writeSome i k) hd
    (Option.map_eq_some_iff.2 ⟨y, hs, rfl⟩)
  cases hw'
  obtain ⟨rfl, hw⟩ := writes_eq_singleton h.one hz
  obtain ⟨done, horder, hwire⟩ := h.order hlost
  have hlen : ∀ b ∈ done ++ (x.writes.map Write.buffer ++ x.posted), b.length = 65536 := by
    rw [← horder, hms]
    exact length_data
  have hbuf : z.buffer.length = 65536 := hlen _ (by simp [hw])
  have hstarted : x.started.length = done.length + 1 := by
    have happ : x.started ++ x.posted = (done ++ [z.buffer]) ++ x.posted := by
      rw [← hsplit, horder, hw, List.append_assoc]
      rfl
    rw [List.append_cancel_right happ, List.length_append, List.length_singleton]
  have hdone : done.flatten.length = 65536 * done.length :=
    Blocks.length_flatten fun b hb => hlen b (List.mem_append_left _ hb)
  have hx : x.wire.length = 65536 * done.length + z.sent := by
    rw [hwire, hw, List.length_append, hdone]
    simp
    omega
  have hy : (x.wire ++ (z.buffer.drop z.sent).take k).length = x.wire.length + k := by
    simp
    omega
  have hopen : x.isOpen = true := hopen
  refine ⟨hy, ?_⟩
  simp only [hy, hx, sends, hopen, hlost, hstarted, Bool.not_false, Bool.and_self, Bool.true_and,
    decide_eq_true_eq]
  omega

end WriteSide

namespace Server

variable {E : Env} {w : Server} {e : Event} {o : Outcome Fault Server} {s : ℕ}

theorem prefix_wire (hw : (serverMachine E).Reachable (.ok w))
    (hI : WriteSide.InOrder (w.sides s)) :
    (w.sides s).wire <+: ((w.told s).map XRMessage.data).flatten := by
  have hd := delivered_eq hw s
  rw [Outcome.state_ok] at hd
  rw [← hd]
  exact hI.pre

/-- The session keeps its one writer, and only a write puts bytes on its wire. -/
theorem inOrder_side (hw : (serverMachine E).Reachable (.ok w))
    (hI : WriteSide.InOrder (w.sides s)) (hP : e = .posted s → (w.sides s).writes = [])
    (hs : w.step E e = some o) : WriteSide.InOrder (o.state.sides s) := by
  have hstable : Stable fun t x => t = s → x.deque = [] ∧ WriteSide.InOrder x := by
    refine ⟨fun t x b h ht => ?_, fun t x h ht => ?_⟩
    · exact ⟨(h ht).1, WriteSide.inOrder_step (e := .deliverByte b) (h ht).2 (h ht).1 (by simp) rfl⟩
    · exact ⟨(h ht).1, WriteSide.inOrder_step (e := .close) (h ht).2 (h ht).1 (by simp) rfl⟩
  have hdeque : (w.sides s).deque = [] := WriteSide.deque_nil (side_reachable hw s)
  refine (sidesAre_step hstable (fun t ht => ht ▸ ⟨hdeque, hI⟩)
    (fun _ => ⟨rfl, WriteSide.inOrder_fresh⟩) hs (fun t we x hwe hx ht => ?_) s rfl).2
  subst ht
  obtain ⟨x', rfl, hd, -⟩ := WriteSide.step_cases hdeque hx
  refine ⟨hd, WriteSide.inOrder_step hI hdeque ?_ hx⟩
  rintro rfl
  cases e <;> simp only [Event.write, Option.some.injEq, Prod.mk.injEq, reduceCtorEq,
    and_false] at hwe
  exact hP (by rw [hwe.1])

theorem wire_eq (hw : (serverMachine E).Reachable (.ok w)) (hI : WriteSide.InOrder (w.sides s))
    (he : ∀ i k, e ≠ .writeSome s i k) (hs : w.step E e = some o) :
    (o.state.sides s).wire = (w.sides s).wire := by
  have hstable : Stable fun t x => t = s → x.wire = (w.sides s).wire :=
    ⟨fun _ _ _ h => h, fun _ _ h => h⟩
  refine sidesAre_step hstable (fun t ht => by rw [ht]) (fun hmade => ?_) hs
    (fun t we x hwe hx ht => ?_) s rfl
  · -- a session that is not made has nothing on its wire
    have htold := told_unmade hw (s := s) hmade.le
    have hpre := prefix_wire hw hI
    rw [Outcome.state_ok] at htold
    rw [htold] at hpre
    exact (List.prefix_nil.1 hpre).symm
  · subst ht
    have hdeque : (w.sides t).deque = [] := WriteSide.deque_nil (side_reachable hw t)
    obtain ⟨x', rfl, -, heff⟩ := WriteSide.step_cases hdeque hx
    cases we with
    | writeSome i k =>
      cases e <;> simp only [Event.write, Option.some.injEq, Prod.mk.injEq, reduceCtorEq,
        and_false, WriteEvent.writeSome.injEq] at hwe
      exact absurd (by rw [hwe.1, hwe.2.1, hwe.2.2]) (he i k)
    | deliverByte b =>
      obtain rfl : x' = _ := heff
      rfl
    | posted =>
      obtain ⟨b, rest, -, rfl⟩ := heff
      rfl
    | writeDone i =>
      obtain ⟨y, -, -, rfl⟩ := heff
      rfl
    | writeFailed i =>
      obtain ⟨y, -, rfl⟩ := heff
      rfl
    | close =>
      obtain rfl : x' = _ := heff
      rfl

end Server

theorem ClientQueue.wire_step {q q' : ClientQueue} {e : ClientEvent}
    (hs : q.step e = some (.ok q')) : q.wire <+: q'.wire := by
  cases e with
  | writeByte m | close =>
    cases hs
    exact List.prefix_rfl
  | posted =>
    have hs : q.runPosted = some (.ok q') := hs
    rcases hp : q.posted with _ | ⟨p, rest⟩
    · simp [runPosted, hp] at hs
    · rcases hd : q.deque with _ | ⟨front, deque⟩
      · simp only [runPosted, hp, hd, doWriteByte, List.isEmpty_nil, Bool.not_true,
          Bool.false_eq_true, if_false, List.nil_append, Option.some.injEq, Outcome.ok.injEq] at hs
        rw [← hs]
      · simp only [runPosted, hp, hd, List.isEmpty_cons, Bool.not_false, if_true,
          Option.some.injEq, Outcome.ok.injEq] at hs
        rw [← hs]
  | writeSome i k =>
    obtain ⟨x, hx, hq⟩ := Option.map_eq_some_iff.1 hs
    cases hq
    unfold writeSome at hx
    split at hx
    · cases hx
    · split_ifs at hx
      cases hx
      exact List.prefix_append _ _
  | writeDone i =>
    have hs : q.writeDone i = some (.ok q') := hs
    unfold writeDone at hs
    split at hs
    · cases hs
    · split_ifs at hs
      rcases hd : q.deque with _ | ⟨front, _ | ⟨next, rest⟩⟩
      · simp [hd] at hs
      · simp only [hd, List.isEmpty_nil, if_true, Option.some.injEq, Outcome.ok.injEq] at hs
        rw [← hs]
      · simp only [hd, List.isEmpty_cons, Bool.false_eq_true, if_false, doWriteByte,
          Option.some.injEq, Outcome.ok.injEq] at hs
        rw [← hs]
  | writeFailed i =>
    obtain ⟨x, hx, hq⟩ := Option.map_eq_some_iff.1 hs
    cases hq
    unfold writeFailed at hx
    split at hx
    · cases hx
    · cases hx
      exact List.prefix_rfl

theorem ClientQueue.InOrder.prefix_wire {q : ClientQueue} {done : List XRMessagePtr}
    (h : q.InOrder done) :
    q.wire <+: ((q.written.map XRMessagePtr.message).map XRMessage.data).flatten := by
  obtain ⟨front, rest, part, -, hdeque, -, hpart, hwire⟩ := h.stage.wire
  have hdata : ∀ ps : List XRMessagePtr, ((ps.map XRMessagePtr.message).map XRMessage.data).flatten
      = ps.flatMap XRMessagePtr.data := fun ps => by
    rw [List.map_map, List.flatMap_def]
    rfl
  rw [hdata, h.written, hdeque, hwire, List.flatMap_append, List.append_assoc,
    List.flatMap_append]
  exact (List.prefix_append_right_inj _).2 (hpart.trans (List.prefix_append _ _))

namespace ByteLink

open Server

variable {E : Env} {s : ℕ} {participantId serviceId : UInt64} {l l' : ByteLink} {e : ByteLinkEvent}

/-- How many whole messages the session has put on the wire. -/
def sent (s : ℕ) (l : ByteLink) : ℕ := (l.server.sides s).wire.length / 65536

/-- The messages given to the client's `write_byte`. -/
def written (l : ByteLink) : List XRMessage := l.loop.queue.written.map XRMessagePtr.message

/-- The channels of whole messages: what is on the wire whole and has not been read, and all that the
client was given to write and that has not been read. -/
def link (s : ℕ) (l : ByteLink) : Link where
  server := l.server
  client := l.loop.client
  down := ((l.server.told s).take (l.sent s)).drop l.down
  up := l.written.drop l.up
  processed := (l.server.told s).take l.down
  written := l.written

/-- The event puts the last byte of a message on the session's wire. -/
def completes (s : ℕ) (l : ByteLink) : Event → Bool
  | .writeSome t _ k => decide (t = s ∧ ((l.server.sides s).wire.length + k) / 65536 ≠ l.sent s)
  | _ => false

/-- What the event is to the channels. -/
def linkEvents (s : ℕ) (l : ByteLink) : ByteLinkEvent → List LinkEvent
  | .server e => .server e :: if l.completes s e then [.transmit] else []
  | .client (.timer _ timestamp stack) => [.timer timestamp stack]
  | .client _ => []
  | .sessionReads i c => [.deliver i c]
  | .clientReads _ timestamp => [.receive timestamp]

/-- A posted handler of the session finds no write outstanding, and what a write puts on the wire is
its whole message, as `async_write` does when it is called: `do_write_byte` frees the buffer then. -/
def WritesWhole (s : ℕ) (l : ByteLink) : ByteLinkEvent → Prop
  | .server (.posted t) => t = s → (l.server.sides s).writes = []
  | .server (.writeSome t _ k) => t = s → k = 65536
  | _ => True

instance : Decidable (WritesWhole s l e) := by
  unfold WritesWhole
  split <;> infer_instance

/-- Either end takes no more than there is, of what was written in order. -/
structure Carries (E : Env) (s : ℕ) (l : ByteLink) : Prop where
  server : (serverMachine E).Reachable (.ok l.server)
  side : WriteSide.InOrder (l.server.sides s)
  down : 65536 * l.down ≤ (l.server.sides s).wire.length
  queue : ∃ done, l.loop.queue.InOrder done
  up : 65536 * l.up ≤ l.loop.queue.wire.length
  timing : l.loop.Timing

theorem carries_init : Carries E s (init participantId serviceId) where
  server := Machine.reachable_init
  side := WriteSide.inOrder_fresh
  down := Nat.zero_le _
  queue := ⟨_, ClientQueue.inOrder_init⟩
  up := Nat.zero_le _
  timing := ChatLoop.timing_init

namespace Carries

theorem sent_le (h : Carries E s l) : l.sent s ≤ (l.server.told s).length := by
  have := length_wire_le (prefix_wire h.server h.side)
  unfold sent
  omega

theorem down_le (h : Carries E s l) : l.down ≤ l.sent s := by
  have := h.down
  unfold sent
  omega

theorem up_le (h : Carries E s l) : l.up ≤ l.written.length := by
  obtain ⟨done, hq⟩ := h.queue
  have := length_wire_le hq.prefix_wire
  have hup := h.up
  unfold written
  omega

theorem transmitted (h : Carries E s l) :
    (l.link s).transmitted = (l.server.told s).take (l.sent s) :=
  take_append_window h.down_le

/-- The server has taken a step: what was on the wire is there still, and at most one message
more. -/
theorem server_step (h : Carries E s l) {e : Event} {w' : Server}
    (hP : WritesWhole s l (.server e)) (hs : l.server.step E e = some (.ok w')) :
    Carries E s { l with server := w' } ∧ (w'.sides s).wire.length / 65536
      = l.sent s + (if l.completes s e then 1 else 0)
      ∧ (l.completes s e = true → (w'.sides s).sends (l.sent s) = true) := by
  have hside := inOrder_side h.server h.side (fun he => by subst he; exact hP rfl) hs
  have hreach : (serverMachine E).Reachable (.ok w') := h.server.step hs
  have hlen : (l.server.sides s).wire.length ≤ (w'.sides s).wire.length
      ∧ (w'.sides s).wire.length / 65536 = l.sent s + (if l.completes s e then 1 else 0)
      ∧ (l.completes s e = true → (w'.sides s).sends (l.sent s) = true) := by
    by_cases he : ∃ i k, e = .writeSome s i k
    · obtain ⟨i, k, rfl⟩ := he
      obtain ⟨y, hy, hw'⟩ := Option.map_eq_some_iff.1 hs
      obtain rfl := Outcome.ok.inj hw'
      have hself : ((l.server.tick.setSide s y).sides s) = y := by simp [setSide]
      have hside := side_reachable h.server s
      obtain ⟨hlen, hblocks⟩ := h.side.writeSome (WriteSide.deque_nil hside)
        (WriteSide.split hside) (delivered_eq h.server s) hy
      rw [hself]
      simp only [completes, sent, true_and, ← hlen, decide_eq_true_eq]
      refine ⟨by omega, ?_, fun hc => (hblocks.resolve_left hc).2⟩
      split_ifs with hc
      · exact (hblocks.resolve_left hc).1
      · exact not_not.1 hc
    · have hwire := wire_eq h.server h.side (fun i k hik => he ⟨i, k, hik⟩) hs
      have hno : l.completes s e = false := by
        cases e with
        | writeSome t i k =>
          have hne : t ≠ s := fun ht => he ⟨i, k, by rw [ht]⟩
          simp [completes, hne]
        | _ => rfl
      simp only [Outcome.state_ok] at hwire
      rw [hwire, hno]
      simp [sent]
  exact ⟨⟨hreach, hside, h.down.trans hlen.1, h.queue, h.up, h.timing⟩, hlen.2⟩

theorem told_take (h : Carries E s l) {e : Event} {w' : Server}
    (hs : l.server.step E e = some (.ok w')) {n : ℕ} (hn : n ≤ l.sent s) :
    (w'.told s).take n = (l.server.told s).take n := by
  obtain ⟨ch, -, hg⟩ := step_cases hs
  rw [← Outcome.state_ok w', told_step hg, List.take_append_of_le_length (hn.trans h.sent_le)]

/-- The server's part of a step: if the last byte of a message has gone out, the message is
transmitted. -/
theorem link_server (h : Carries E s l) {e : Event} {w' : Server}
    (hP : WritesWhole s l (.server e)) (hs : l.server.step E e = some (.ok w')) :
    (linkMachine E s participantId serviceId).exec { l.link s with server := w' }
      (if l.completes s e then [.transmit] else []) = some (.ok ({ l with server := w' }.link s)) := by
  obtain ⟨h', hsent, hsends⟩ := h.server_step hP hs
  have hsent' : ({ l with server := w' } : ByteLink).sent s
      = l.sent s + if l.completes s e then 1 else 0 := hsent
  by_cases hc : l.completes s e = true
  · simp only [hc, if_true] at hsent' ⊢
    have hlt : l.sent s < (w'.told s).length := by
      have hle : ({ l with server := w' } : ByteLink).sent s ≤ (w'.told s).length := h'.sent_le
      omega
    obtain ⟨m, hm⟩ : ∃ m, (w'.told s)[l.sent s]? = some m :=
      ⟨_, List.getElem?_eq_getElem hlt⟩
    have hlen : ({ l.link s with server := w' } : Link).transmitted.length = l.sent s := by
      rw [show ({ l.link s with server := w' } : Link).transmitted = (l.link s).transmitted from rfl,
        h.transmitted, List.length_take]
      exact Nat.min_eq_left h.sent_le
    refine Machine.exec_singleton.2 ?_
    simp only [linkMachine, Link.step, hlen, hm, hsends hc, if_true]
    simp only [link, hsent', window_succ h.down_le hm, h.told_take hs le_rfl,
      h.told_take hs h.down_le]
    rfl
  · simp only [hc, Bool.false_eq_true, if_false, add_zero] at hsent' ⊢
    simp only [Machine.exec, link, hsent', h.told_take hs le_rfl, h.told_take hs h.down_le]
    rfl

end Carries

theorem Carries.client_step (h : Carries E s l) {e : ChatEvent} {c' : ChatLoop}
    (hs : l.loop.step e = some (.ok c')) : (∃ done, c'.queue.InOrder done)
      ∧ l.loop.queue.wire.length ≤ c'.queue.wire.length ∧ c'.Timing := by
  obtain ⟨hin, hwire⟩ := Machine.exec_invariant (M := clientQueueMachine)
    (I := fun q => (∃ done, q.InOrder done) ∧ l.loop.queue.wire <+: q.wire)
    (fun q ev q' hq hs => by
      obtain ⟨⟨done, hin⟩, hpre⟩ := hq
      obtain ⟨q₁, done', hq₁, hin'⟩ := ClientQueue.inOrder_step hin hs
      cases hq₁
      exact ⟨⟨done', hin'⟩, hpre.trans (ClientQueue.wire_step hs)⟩)
    ⟨h.queue, List.prefix_rfl⟩ (ChatLoop.queue_exec hs)
  exact ⟨hin, hwire.length_le, ChatLoop.timing_step h.timing hs⟩

/-- The client's reads apart, its own steps are those of the timer to the channels. -/
theorem Carries.link_client (h : Carries E s l) {e : ChatEvent} (he : e.isRead = false)
    {c' : ChatLoop} (hs : l.loop.step e = some (.ok c')) :
    (linkMachine E s participantId serviceId).exec (l.link s) (linkEvents s l (.client e))
      = some (.ok ({ l with loop := c' }.link s)) := by
  have hwritten := ChatLoop.written_step hs
  have hlink : ∀ ms, l.loop.writes e = ms → c'.client = l.loop.client →
      ({ l with loop := c' } : ByteLink).link s = (l.link s).write ms := by
    intro ms hms hc
    have hup : l.up ≤ (l.loop.queue.written.map XRMessagePtr.message).length := h.up_le
    rw [hms] at hwritten
    simp only [link, written, Link.write, hwritten, hc]
    rw [List.drop_append_of_le_length hup]
    rfl
  have hsame : l.loop.writes e = [] → c'.client = l.loop.client →
      (linkMachine E s participantId serviceId).exec (l.link s) []
        = some (.ok ({ l with loop := c' }.link s)) := by
    intro hms hc
    rw [hlink [] hms hc, Link.write, List.append_nil, List.append_nil]
    rfl
  cases ChatLoop.waits_cases hs with
  | read => cases he
  | timer hi hm hc hw =>
    have hlive : 0 < l.loop.waits.countP Wait.live := by
      rw [countP_eraseIdx Wait.live hi]
      simp [Wait.live]
    have hu : l.loop.client.updating = true :=
      h.timing.updating.2 (hlive.trans_le h.timing.le)
    refine Machine.exec_singleton.2 ?_
    rw [hlink _ rfl hc]
    exact if_pos hu
  | expire _ hm hc hw | timerAborted _ hm hc hw => exact hsame rfl hc
  | other he' ht hm hc hw =>
    cases e with
    | read => cases he
    | timer i t stack => exact absurd rfl (ht i t stack)
    | _ => exact hsame rfl hc

/-- The session reads the next message of those written. -/
theorem Carries.up_cons (h : Carries E s l) {b : Buffer 65536}
    (hb : streamBlock l.up l.loop.queue.wire = some b) :
    ∃ m, (l.link s).up = m :: l.written.drop (l.up + 1) ∧ b = m.frame := by
  obtain ⟨done, hq⟩ := h.queue
  obtain ⟨-, m, hm, rfl⟩ := streamBlock_eq_some hq.prefix_wire hb
  obtain ⟨hlt, hget⟩ := List.getElem?_eq_some_iff.1 hm
  refine ⟨m, ?_, rfl⟩
  show l.written.drop l.up = _
  rw [written, List.drop_eq_getElem_cons hlt, hget]

/-- The client reads the next message of those transmitted. -/
theorem Carries.link_read (h : Carries E s l) {b : Buffer 65536}
    (hb : streamBlock l.down (l.server.sides s).wire = some b) {i : ℕ} {t : UInt64}
    {c' : ChatLoop} (hs : l.loop.step (.read i b t) = some (.ok c')) :
    65536 * (l.down + 1) ≤ (l.server.sides s).wire.length
      ∧ (linkMachine E s participantId serviceId).exec (l.link s) [.receive t]
        = some (.ok ({ l with loop := c', down := l.down + 1 }.link s)) := by
  obtain ⟨hle, m, hm, rfl⟩ := streamBlock_eq_some (prefix_wire h.server h.side) hb
  have hlt : l.down < l.sent s := by
    unfold sent
    omega
  refine ⟨hle, Machine.exec_singleton.2 ?_⟩
  have hwritten := ChatLoop.written_step hs
  have hup : l.up ≤ (l.loop.queue.written.map XRMessagePtr.message).length := h.up_le
  rw [ChatLoop.writes, receivedMessage_frame] at hwritten
  have hclient : c'.client = (l.loop.client.onMessage t m).1 := by
    simp only [ChatLoop.step] at hs
    split_ifs at hs
    cases hs
    rw [receivedMessage_frame]
    unfold ChatLoop.onRead
    split_ifs <;> simp [ChatLoop.doReadByte, ChatLoop.beginParticipantUpdate]
  simp only [linkMachine, Link.step, link, window_cons hlt hm, Link.write, written, hwritten,
    hclient, take_succ_of_getElem? hm]
  rw [List.drop_append_of_le_length hup]
  rfl

theorem follows_link : (byteLinkMachine E s participantId serviceId).Follows
    (linkMachine E s participantId serviceId) (WritesWhole s) (Carries E s) (link s)
    (linkEvents s) where
  holds := carries_init
  init := by
    simp [byteLinkMachine, linkMachine, init, Link.init, link, written, sent, told, Server.init,
      handedTo, ChatLoop.init, ClientQueue.init]
  step := by
    intro l e l' _ h hP hs
    have hs : l.step E s e = some (.ok l') := hs
    cases e with
    | server e =>
      simp only [step] at hs
      split_ifs at hs with hr
      obtain ⟨o, ho, hl⟩ := Option.map_eq_some_iff.1 hs
      obtain ⟨w', rfl, rfl⟩ := Outcome.map_eq_ok.1 hl
      refine ⟨(h.server_step hP ho).1, Machine.exec_cons_ok.2 ⟨_, ?_, h.link_server hP ho⟩⟩
      simp only [linkMachine, Link.step, if_neg hr]
      rw [show (l.link s).server = l.server from rfl, ho]
      rfl
    | client e =>
      simp only [step] at hs
      split_ifs at hs with hr
      obtain ⟨o, ho, hl⟩ := Option.map_eq_some_iff.1 hs
      obtain ⟨c', rfl, rfl⟩ := Outcome.map_eq_ok.1 hl
      obtain ⟨hq, hwire, ht⟩ := h.client_step ho
      exact ⟨⟨h.server, h.side, h.down, hq, h.up.trans hwire, ht⟩,
        h.link_client (by simpa using hr) ho⟩
    | sessionReads i c =>
      simp only [step] at hs
      split at hs
      · cases hs
      · rename_i b hb
        obtain ⟨o, ho, hl⟩ := Option.map_eq_some_iff.1 hs
        obtain ⟨w', rfl, rfl⟩ := Outcome.map_eq_ok.1 hl
        obtain ⟨done, hq⟩ := h.queue
        obtain ⟨hle, -⟩ := streamBlock_eq_some hq.prefix_wire hb
        obtain ⟨m, hup, rfl⟩ := h.up_cons hb
        have hP' : WritesWhole s l (.server (.read s i m.frame c)) := by simp [WritesWhole]
        have hlink : (linkMachine E s participantId serviceId).exec _ _ = some _ :=
          h.link_server hP' ho
        obtain ⟨h', -, -⟩ := h.server_step hP' ho
        refine ⟨⟨h'.server, h'.side, h'.down, h'.queue, hle, h'.timing⟩,
          Machine.exec_singleton.2 ?_⟩
        have hw : ({ l.link s with server := w' } : Link)
            = ({ l with server := w' } : ByteLink).link s := by
          simpa [completes, Machine.exec] using hlink
        simp only [linkMachine, Link.step, hup]
        rw [show (l.link s).server = l.server from rfl, ho]
        simp only [Option.map_some, Outcome.map]
        show some (Outcome.ok { ({ l.link s with server := w' } : Link) with
          up := l.written.drop (l.up + 1) }) = _
        rw [hw]
        rfl
    | clientReads i t =>
      simp only [step] at hs
      split at hs
      · cases hs
      · rename_i b hb
        obtain ⟨o, ho, hl⟩ := Option.map_eq_some_iff.1 hs
        obtain ⟨c', rfl, rfl⟩ := Outcome.map_eq_ok.1 hl
        obtain ⟨hq, hwire, ht⟩ := h.client_step ho
        obtain ⟨hle, hexec⟩ := h.link_read hb ho
        exact ⟨⟨h.server, h.side, hle, hq, h.up.trans hwire, ht⟩, hexec⟩

/-- A step that faults is the server's, and one of the channels' steps. -/
theorem Carries.fault (h : Carries E s l) {f : Fault} (hs : l.step E s e = some (.fault f l')) :
    ∃ ev k, (l.link s).step E s ev = some (.fault f k) ∧ k.server = l'.server := by
  have hserver : ∀ {g : Server → ByteLink} {o : Outcome Fault Server},
      (∀ w, (g w).server = w) → o.map g = .fault f l' → o = .fault f l'.server := by
    intro g o hg ho
    cases o with
    | ok w => cases ho
    | fault f' w =>
      cases ho
      rw [hg]
  have hclient : ∀ {ev : ChatEvent} {g : ChatLoop → ByteLink} {o : Outcome Fault ChatLoop},
      l.loop.step ev = some o → o.map g ≠ .fault f l' := by
    intro ev g o ho hfault
    obtain ⟨done, hq⟩ := h.queue
    obtain ⟨c', rfl⟩ := ChatLoop.returns_of_inOrder hq ho
    cases hfault
  cases e with
  | server e =>
    simp only [step] at hs
    split_ifs at hs with hr
    obtain ⟨o, ho, hl⟩ := Option.map_eq_some_iff.1 hs
    obtain rfl := hserver (fun _ => rfl) hl
    refine ⟨.server e, { l.link s with server := l'.server }, ?_, rfl⟩
    simp only [Link.step, if_neg hr]
    rw [show (l.link s).server = l.server from rfl, ho]
    rfl
  | client e =>
    simp only [step] at hs
    split_ifs at hs
    obtain ⟨o, ho, hl⟩ := Option.map_eq_some_iff.1 hs
    exact absurd hl (hclient ho)
  | sessionReads i c =>
    simp only [step] at hs
    split at hs
    · cases hs
    · rename_i b hb
      obtain ⟨o, ho, hl⟩ := Option.map_eq_some_iff.1 hs
      obtain rfl := hserver (fun _ => rfl) hl
      obtain ⟨m, hup, rfl⟩ := h.up_cons hb
      refine ⟨.deliver i c, { l.link s with
        server := l'.server, up := l.written.drop (l.up + 1) }, ?_, rfl⟩
      simp only [Link.step, hup]
      rw [show (l.link s).server = l.server from rfl, ho]
      rfl
  | clientReads i t =>
    simp only [step] at hs
    split at hs
    · cases hs
    · obtain ⟨o, ho, hl⟩ := Option.map_eq_some_iff.1 hs
      exact absurd hl (hclient ho)

/-- A write that has just been started can go out, and then the client can read it. -/
theorem Carries.exists_read (h : Carries E s l) {b : Bytes}
    (hw : (l.server.sides s).writes = [⟨b, 0, true⟩]) (ho : (l.server.sides s).isOpen = true)
    (hl : (l.server.sides s).lost = false) (hd : (l.server.sides s).wire = []) (hdown : l.down = 0)
    {i : ℕ} (hr : l.loop.reads[i]? = some true) (t : UInt64) :
    ∃ y c, (byteLinkMachine E s participantId serviceId).step l (.server (.writeSome s 0 65536))
        = some (.ok { l with server := l.server.tick.setSide s y })
      ∧ (byteLinkMachine E s participantId serviceId).step
        { l with server := l.server.tick.setSide s y } (.clientReads i t)
        = some (.ok ⟨l.server.tick.setSide s y, c, 1, l.up⟩) := by
  have hside := side_reachable h.server s
  have hlen : b.length = 65536 := by
    obtain ⟨done, horder, -⟩ := h.side.order hl
    have hdelivered : (l.server.sides s).delivered = (l.server.told s).map XRMessage.data :=
      delivered_eq h.server s
    have hmem : b ∈ (l.server.told s).map XRMessage.data := by
      rw [← hdelivered, horder, hw]
      simp
    exact length_data b hmem
  obtain ⟨y, hy⟩ : ∃ y, (l.server.sides s).writeSome 0 65536 = some y := by
    simp [WriteSide.writeSome, hw, ho, hl, hlen]
  obtain ⟨hwire, -⟩ := h.side.writeSome (WriteSide.deque_nil hside) (WriteSide.split hside)
    (delivered_eq h.server s) hy
  have hwire : y.wire.length = 65536 := by rw [hwire, hd, List.length_nil, zero_add]
  have hself : (l.server.tick.setSide s y).sides s = y := by simp [setSide]
  obtain ⟨buf, hblock⟩ : ∃ buf, streamBlock 0 y.wire = some buf :=
    ⟨⟨(y.wire.drop 0).take 65536, by simp [hwire]⟩, dif_pos (by simp [hwire])⟩
  obtain ⟨c, hc⟩ : ∃ c, l.loop.step (.read i buf t) = some (.ok c) := ⟨_, if_pos hr⟩
  refine ⟨y, c, ?_, ?_⟩
  · simp only [byteLinkMachine, step, Event.reader, reduceCtorEq, if_false, Server.step, hy, Option.map_some]
    rfl
  · simp only [byteLinkMachine, step, hself, hdown, hblock, hc, Option.map_some]
    rfl

end ByteLink

open ByteLink

/-- As long as every posted handler of the session finds no write outstanding and its writes go out
whole, a run of a chat client and its session over the bytes between them, of which the client writes
any number at a time, is a run of the two over channels of whole messages, in order in either
direction, with the same server and the same client; and where it faults, so does that one. -/
theorem byte_link_refines {E : Env} {s : ℕ} {participantId serviceId : UInt64}
    {r : List (ByteLink × ByteLinkEvent)} {o : Outcome Fault ByteLink}
    (hr : (byteLinkMachine E s participantId serviceId).Run r o)
    (hP : Machine.Steps (WritesWhole s) r) :
    (∀ l, o = .ok l → (linkMachine E s participantId serviceId).Reachable (.ok (l.link s)))
    ∧ ∀ f l, o = .fault f l → ∃ k,
      (linkMachine E s participantId serviceId).Reachable (.fault f k) ∧ k.server = l.server := by
  constructor
  · rintro l rfl
    exact follows_link.reachable hr hP
  · rintro f l rfl
    cases hr with
    | snoc hr hs =>
      obtain ⟨hP, -⟩ := Machine.steps_snoc.1 hP
      obtain ⟨ev, k, hstep, hk⟩ := (follows_link.run hr hP).1.fault hs
      exact ⟨k, (follows_link.reachable hr hP).step hstep, hk⟩

/-- The client connects; the hello is put on the wire, and the client reads it. -/
def helloOverBytes : List ByteLinkEvent :=
  [.client .connected, .server (.accept (some []) 0), .server (.posted 0),
    .server (.writeSome 0 0 65536), .clientReads 0 0]

theorem byte_link_refines_hello : ∃ r l, (byteLinkMachine .counting 0 0 0).Run r (.ok l)
    ∧ r.map Prod.snd = helloOverBytes ∧ Machine.Steps (WritesWhole 0) r
    ∧ (l.link 0).processed.map XRMessage.kind = [some .handshakeHello]
    ∧ (linkMachine .counting 0 0 0).Reachable (.ok (l.link 0)) := by
  have hrun : (((byteLinkMachine .counting 0 0 0).restrict fun l e =>
      decide (WritesWhole 0 l e)).exec (init 0 0) (helloOverBytes.take 3)).any
      (Outcome.okAnd fun l => (l.server.sides 0).writes.map (fun x => (x.sent, x.onOpen)) = [(0, true)]
        ∧ (l.server.sides 0).isOpen = true ∧ (l.server.sides 0).lost = false
        ∧ (l.server.sides 0).wire = [] ∧ l.down = 0 ∧ l.loop.reads[0]? = some true
        ∧ (l.server.told 0).map XRMessage.kind = [some .handshakeHello]) = true := by
    decide +kernel
  obtain ⟨r, l, hr, hes, hl⟩ := Machine.exec_okAnd hrun
  obtain ⟨hr, hP⟩ := Machine.restrict_run hr
  have hP : Machine.Steps (WritesWhole 0) r := fun x hx => of_decide_eq_true (hP x hx)
  obtain ⟨hwrites, ho, hlost, hwire, hdown, hreads, htold⟩ := of_decide_eq_true hl
  obtain ⟨⟨b, sent, onOpen⟩, hw, hx⟩ := List.map_eq_singleton_iff.1 hwrites
  cases hx
  obtain ⟨y, c, hs₁, hs₂⟩ :=
    (follows_link.run hr hP).1.exists_read hw ho hlost hwire hdown hreads 0
  have hP₁ : Machine.Steps (WritesWhole 0) (r ++ [(l, .server (.writeSome 0 0 65536))]) :=
    Machine.steps_snoc.2 ⟨hP, fun _ => rfl⟩
  have hP₂ := Machine.steps_snoc.2 ⟨hP₁, show WritesWhole 0
    { l with server := l.server.tick.setSide 0 y } (.clientReads 0 0) from trivial⟩
  have hr₂ := (hr.snoc hs₁).snoc hs₂
  refine ⟨_, _, hr₂, ?_, hP₂, ?_, (byte_link_refines hr₂ hP₂).1 _ rfl⟩
  · rw [List.map_append, List.map_append, hes]
    rfl
  · show ((l.server.told 0).take 1).map XRMessage.kind = _
    rw [List.map_take, htold]
    rfl

end XRNetwork
