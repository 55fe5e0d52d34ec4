import XRNetwork.AsyncTcpClient

/-!
# What the Unity client's socket has received

A receive leaves its bytes at the front of `state.buffer`, and the callback copies exactly those
before it clears the buffer; what it collects it either keeps or passes on. So nothing is lost or
repeated (`receive_accumulates`), and the client that is without a buffer does the same
(`unity_run`).
-/

namespace XRNetwork

@[simp] theorem concatByteArrays_eq (arr1 arr2 : Bytes) :
    concatByteArrays arr1 arr2 = arr1 ++ arr2 := by
  unfold concatByteArrays
  split_ifs with h
  · have h1 : arr1 = [] := List.length_eq_zero_iff.1 (by omega)
    have h2 : arr2 = [] := List.length_eq_zero_iff.1 (by omega)
    rw [h1, h2, List.append_nil]
  · rfl

namespace RxSide

variable {x x' : RxSide} {bytes : Bytes}

/-- Room for the bytes is all that a receive needs. -/
theorem fill_eq_some : x.fill bytes = some x' ↔
    bytes.length ≤ 65536 ∧ x' = { x with buffer := x'.buffer }
      ∧ x'.buffer.toList = bytes ++ x.buffer.toList.drop bytes.length := by
  unfold fill Buffer.memcpy
  split_ifs with h
  · constructor
    · rintro heq
      obtain rfl := Option.some.inj heq
      exact ⟨h, rfl, rfl⟩
    · rintro ⟨-, heq, hbuf⟩
      rw [heq]
      exact congrArg some (congrArg (fun b => { x with buffer := b }) (Subtype.ext hbuf.symm))
  · simp [h]

/-- What a completed receive collects, and what it passes on. -/
theorem callback_eq (hf : x.fill bytes = some x') (available : ℕ) (throws : Bool) :
    ∃ b, x'.asyncReceiveCallback bytes.length available throws =
      if bytes.length = 0 ∨ available = 0 then
        if throws then .fault .onReceive
          ⟨b, x.mRxBuffer ++ bytes, x.passed ++ [x.mRxBuffer ++ bytes]⟩
        else .ok ⟨.zero 65536, [], x.passed ++ [x.mRxBuffer ++ bytes]⟩
      else .ok ⟨b, x.mRxBuffer ++ bytes, x.passed⟩ := by
  obtain ⟨-, hx, hbuf⟩ := fill_eq_some.1 hf
  have hm : x'.mRxBuffer = x.mRxBuffer := by rw [hx]
  have hp : x'.passed = x.passed := by rw [hx]
  have hsplit : x'.splitByteArray 0 bytes.length = bytes := by
    rw [splitByteArray, hbuf, List.drop_zero, List.take_left]
  refine ⟨if 0 < bytes.length then .zero 65536 else x'.buffer, ?_⟩
  unfold asyncReceiveCallback
  rcases Nat.eq_zero_or_pos bytes.length with h0 | hpos
  · have hnil : bytes = [] := List.length_eq_zero_iff.1 h0
    subst hnil
    cases throws <;> simp [hm, hp]
  · simp only [if_pos hpos, hsplit, concatByteArrays_eq, hm, hp, Bool.or_eq_true,
      decide_eq_true_eq]

/-- Bytes are neither lost nor repeated. -/
theorem step_bytes {r : ReceiveDone} (hs : rxMachine.step x r = some (.ok x')) :
    x'.passed.flatten ++ x'.mRxBuffer = x.passed.flatten ++ x.mRxBuffer ++ r.bytes := by
  obtain ⟨x₁, hf, hcall⟩ := Option.map_eq_some_iff.1 hs
  obtain ⟨b, hb⟩ := callback_eq hf r.available r.throws
  rw [hb] at hcall
  split_ifs at hcall
  · cases hcall
    simp
  · cases hcall
    simp

end RxSide

/-- After any row of completed receives none of whose callbacks has thrown, what has been passed on
and what is kept are all the bytes received. -/
theorem receive_accumulates {r : List (RxSide × ReceiveDone)} {x : RxSide}
    (hr : rxMachine.Run r (.ok x)) :
    x.passed.flatten ++ x.mRxBuffer = r.flatMap fun y => y.2.bytes := by
  generalize ho : Outcome.ok x = o at hr
  induction hr generalizing x with
  | nil =>
    cases ho
    rfl
  | @snoc r x₀ d o _ hs ih =>
    subst ho
    rw [RxSide.step_bytes hs, ih rfl, List.flatMap_append, List.flatMap_singleton]

/-- A message in two pieces, and the next one. -/
theorem receive_accumulates_pieces : ∃ r x, rxMachine.Run r (.ok x)
    ∧ r.map Prod.snd = [⟨[1, 2], 3, false⟩, ⟨[3], 0, false⟩, ⟨[4], 1, false⟩]
    ∧ x.passed = [[1, 2, 3]] ∧ x.mRxBuffer = [4]
    ∧ x.passed.flatten ++ x.mRxBuffer = r.flatMap fun y => y.2.bytes := by
  have hrun : (rxMachine.exec RxSide.init
      [⟨[1, 2], 3, false⟩, ⟨[3], 0, false⟩, ⟨[4], 1, false⟩]).any
        (Outcome.okAnd fun x => x.passed = [[1, 2, 3]] ∧ x.mRxBuffer = [4]) = true := by
    decide +kernel
  obtain ⟨r, x, hr, hes, hx⟩ := Machine.exec_okAnd hrun
  obtain ⟨hpassed, hkept⟩ := of_decide_eq_true hx
  exact ⟨r, x, hr, hes, hpassed, hkept, receive_accumulates hr⟩

namespace UnityClient

/-- The client collects and hands over as the socket with the buffer does. -/
theorem rx_step {c c' : UnityClient} {r : Receive} (hs : unityMachine.step c r = some (.ok c'))
    {x : RxSide} (hx : x.mRxBuffer = c.mRxBuffer) :
    ∃ x', rxMachine.step x ⟨r.bytes, r.available, false⟩ = some (.ok x')
      ∧ x'.mRxBuffer = c'.mRxBuffer := by
  have hs : (if r.bytes.length ≤ 65536 then some (c.asyncReceiveCallback r) else none)
      = some (.ok c') := hs
  split_ifs at hs with hle
  have hs := Option.some.inj hs
  obtain ⟨x₁, hf⟩ : ∃ x₁, x.fill r.bytes = some x₁ := by
    unfold RxSide.fill Buffer.memcpy
    rw [dif_pos hle]
    exact ⟨_, rfl⟩
  have hstep : rxMachine.step x ⟨r.bytes, r.available, false⟩
      = some (x₁.asyncReceiveCallback r.bytes.length r.available false) := by
    show (x.fill r.bytes).map _ = _
    rw [hf]
    rfl
  have hkept : (if 0 < r.bytes.length then { c with mRxBuffer := c.mRxBuffer ++ r.bytes }
      else c).mRxBuffer = c.mRxBuffer ++ r.bytes := by
    split_ifs with hpos
    · rfl
    · rw [List.length_eq_zero_iff.1 (by omega : r.bytes.length = 0), List.append_nil]
  obtain ⟨b, hb⟩ := RxSide.callback_eq hf r.available false
  rw [hstep, hb]
  unfold asyncReceiveCallback at hs
  simp only [] at hs
  by_cases hover : r.bytes.length = 0 ∨ r.available = 0
  · have hhands : r.handsOver = true := by simpa [Receive.handsOver] using hover
    rw [if_pos hhands] at hs
    obtain ⟨c₁, -, hc⟩ := Outcome.andThen_eq_ok.1 hs
    cases hc
    exact ⟨_, by rw [if_pos hover]; rfl, rfl⟩
  · have hhands : ¬ r.handsOver = true := by simpa [Receive.handsOver] using hover
    rw [if_neg hhands] at hs
    cases hs
    exact ⟨_, by rw [if_neg hover], by rw [hkept, hx]⟩

/-- So the runs of the client without a buffer are runs of the socket with one. -/
theorem rx_run {r : List (UnityClient × Receive)} {c : UnityClient}
    (hr : unityMachine.Run r (.ok c)) : ∃ r' x, rxMachine.Run r' (.ok x)
      ∧ r'.map Prod.snd = r.map (fun y => ⟨y.2.bytes, y.2.available, false⟩)
      ∧ x.mRxBuffer = c.mRxBuffer := by
  generalize ho : Outcome.ok c = o at hr
  induction hr generalizing c with
  | nil =>
    cases ho
    exact ⟨[], RxSide.init, .nil, rfl, rfl⟩
  | @snoc r c₀ d o _ hs ih =>
    subst ho
    obtain ⟨r', x, hr', hevents, hx⟩ := ih rfl
    obtain ⟨x', hs', hx'⟩ := rx_step hs hx
    refine ⟨_, x', hr'.snoc hs', ?_, hx'⟩
    rw [List.map_append, List.map_append, hevents]
    rfl

end UnityClient

end XRNetwork
