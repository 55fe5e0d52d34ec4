import XRNetwork.UnityClient
import XRNetwork.Proofs.Codec

/-!
# Reassembly in the Unity client

`OnReceive` takes a message out of `m_tcp_buffer` as soon as its payload is complete and throws the
rest of the buffer away, though a frame is padded to 64 KiB: a hand-over that ends in the padding
leaves zeros at the front, which are kept for ever, and one that ends in the next frame loses its
start. A hand-over that ends in a header raises. So frames come out as they were sent exactly when
each is handed over to its end, and otherwise only between its header and the end of its payload
(`reassembly_iff`).
-/

namespace XRNetwork

open LittleEndian

/-- A frame as the server sends it. -/
structure ServerFrame where
  header : XRMessageHeader
  payload : Bytes
  head_ne : header.head ≠ 0
  size_eq : payload.length = header.buffersize.toNat
  fits : payload.length ≤ 65528

namespace ServerFrame

variable (F : ServerFrame)

def bytes : Bytes :=
  F.header.toBytes ++ (F.payload ++ List.replicate (65528 - F.payload.length) 0)

/-- The call it should end in. -/
def call : ProcessCall := ⟨F.header.head, F.header.buffersize, F.payload⟩

/-- What `XRMessage(_head, buffer, _buffersize)` builds. -/
def ofPayload (head : UInt16) (buffer : Bytes) (h0 : head ≠ 0) (h : buffer.length ≤ 65528) :
    ServerFrame where
  header := ⟨head, UInt32.ofNat buffer.length, 0xFFFF⟩
  payload := buffer
  head_ne := h0
  size_eq := by
    rw [UInt32.toNat_ofNat']
    omega
  fits := h

end ServerFrame

theorem XRMessageHeader.length_toBytes (h : XRMessageHeader) : h.toBytes.length = 8 := by
  simp [toBytes]

/-- A header is read from the first eight bytes. -/
theorem XRMessageHeader.ofBytes_append {t : Bytes} (ht : 8 ≤ t.length) (rest : Bytes) :
    ofBytes (t ++ rest) = ofBytes t := by
  unfold ofBytes
  rw [field_append_left (by omega), field_append_left (by omega), field_append_left (by omega)]

theorem XRMessageHeader.ofBytes_toBytes (h : XRMessageHeader) : ofBytes h.toBytes = h := by
  have h1 := h.head.toNat_lt
  have h2 := h.buffersize.toNat_lt
  have h3 := h.payloadIsBigEndian.toNat_lt
  have hhead : field 0 2 h.toBytes = h.head.toNat := by
    rw [toBytes, field_encode_append, Nat.mod_eq_of_lt (by omega)]
  have hsize : field 2 4 h.toBytes = h.buffersize.toNat := by
    rw [toBytes, field_append (length_encode 2 _), Nat.mod_eq_of_lt (by omega)]
  have hflag : field 6 2 h.toBytes = h.payloadIsBigEndian.toNat := by
    have hpre : (encode 2 h.head.toNat ++ encode 4 h.buffersize.toNat).length = 6 := by simp
    have hf := field_append hpre 2 h.payloadIsBigEndian.toNat []
    rw [List.append_nil, List.append_assoc] at hf
    rw [toBytes, hf, Nat.mod_eq_of_lt (by omega)]
  rw [ofBytes, hhead, hsize, hflag, UInt16.ofNat_toNat, UInt32.ofNat_toNat, UInt16.ofNat_toNat]

namespace ServerFrame

variable {F : ServerFrame} {t rest more : Bytes}

@[simp] theorem length_bytes : F.bytes.length = 65536 := by
  have := F.fits
  simp only [bytes, List.length_append, XRMessageHeader.length_toBytes, List.length_replicate]
  omega

theorem header_of_append (h : t ++ rest = F.bytes ++ more) (ht : 8 ≤ t.length) :
    XRMessageHeader.ofBytes t = F.header := by
  rw [← XRMessageHeader.ofBytes_append ht rest, h, bytes, List.append_assoc,
    XRMessageHeader.ofBytes_append (by rw [XRMessageHeader.length_toBytes]),
    XRMessageHeader.ofBytes_toBytes]

theorem payload_of_append (h : t ++ rest = F.bytes ++ more) (ht : 8 + F.payload.length ≤ t.length) :
    (t.drop 8).take F.payload.length = F.payload := by
  have hlen : F.payload.length ≤ (t.drop 8).length := by
    rw [List.length_drop]
    omega
  have htake : (t.drop 8).take F.payload.length = ((t ++ rest).drop 8).take F.payload.length := by
    rw [List.drop_append_of_le_length (by omega), List.take_append_of_le_length hlen]
  rw [htake, h, bytes, List.append_assoc, List.drop_left' (XRMessageHeader.length_toBytes _),
    List.append_assoc, List.take_left' rfl]

end ServerFrame

/-- Where in the stream the callback hands over, from a position on, and whether `ProcessMessage`
raises if it is called then. -/
def handOvers : ℕ → List Receive → List (ℕ × Bool)
  | _, [] => []
  | n, r :: rs =>
    let n' := n + r.bytes.length
    if r.handsOver then (n', r.raises) :: handOvers n' rs else handOvers n' rs

/-- The frames, of which the first begins at the position, are each handed over to their end, where
`ProcessMessage` does not raise, and before that only between the header and the end of the payload;
nothing is handed over after the last. -/
def HandedWhole : ℕ → List ServerFrame → List (ℕ × Bool) → Prop
  | _, [], [] => True
  | _, [], _ :: _ => False
  | _, _ :: _, [] => False
  | n, F :: Fs, p :: ps =>
    p = (n + 65536, false) ∧ HandedWhole (n + 65536) Fs ps
      ∨ (n + 8 ≤ p.1 ∧ p.1 < n + 8 + F.payload.length) ∧ HandedWhole n (F :: Fs) ps

/-- The calls the frames should end in, each made from the bytes of its frame. -/
def callsFrom : ℕ → List ServerFrame → List (ℕ × ProcessCall)
  | _, [] => []
  | n, F :: Fs => (n, F.call) :: callsFrom (n + 65536) Fs

/-- The client takes all receives without raising, calls `ProcessMessage` for each frame from that
frame's own bytes, in order and for nothing else, and is left as it was, with both buffers empty. -/
def Reassembled (frames : List ServerFrame) (rs : List Receive) : Prop :=
  ∃ c, unityMachine.exec unityMachine.init rs = some (.ok c) ∧ c.calls = callsFrom 0 frames
    ∧ c.mRxBuffer = [] ∧ c.mTcpBuffer = []

namespace UnityClient

variable {c : UnityClient} {F : ServerFrame} {b rest more : Bytes} {raises : Bool}

theorem tcp_append (c : UnityClient) (b : Bytes) :
    (if c.mTcpBuffer.length ≠ 0 then c.mTcpBuffer ++ b else b) = c.mTcpBuffer ++ b := by
  split_ifs with h
  · rfl
  · rw [List.length_eq_zero_iff.1 (not_not.1 h), List.nil_append]

/-- A buffer that ends in the header. -/
theorem onReceive_short (h : (c.mTcpBuffer ++ b).length < 8) :
    c.onReceive raises b = .fault .header { c with mTcpBuffer := c.mTcpBuffer ++ b } := by
  simp only [onReceive, tcp_append, if_pos h]

/-- A buffer that ends in the payload. -/
theorem onReceive_keep (h : (c.mTcpBuffer ++ b) ++ rest = F.bytes ++ more)
    (h8 : 8 ≤ (c.mTcpBuffer ++ b).length)
    (hlt : (c.mTcpBuffer ++ b).length < 8 + F.payload.length) :
    c.onReceive raises b = .ok { c with mTcpBuffer := c.mTcpBuffer ++ b } := by
  have hsize := F.size_eq
  simp only [onReceive, tcp_append, if_neg h8.not_gt, ServerFrame.header_of_append h h8]
  rw [if_neg (by omega)]

/-- A buffer that has all of the payload. -/
theorem onReceive_call (h : (c.mTcpBuffer ++ b) ++ rest = F.bytes ++ more)
    (hle : 8 + F.payload.length ≤ (c.mTcpBuffer ++ b).length) :
    c.onReceive raises b =
      let c' := { c with mTcpBuffer := c.mTcpBuffer ++ b, calls := c.calls ++ [(c.taken, F.call)] }
      if raises then .fault .processMessage c'
      else .ok { c' with mTcpBuffer := [], taken := c.taken + (c.mTcpBuffer ++ b).length } := by
  have h8 : 8 ≤ (c.mTcpBuffer ++ b).length := by omega
  have hsize := F.size_eq
  simp only [onReceive, tcp_append, if_neg h8.not_gt, ServerFrame.header_of_append h h8]
  rw [if_pos (by omega), if_neg F.head_ne, ← hsize, ServerFrame.payload_of_append h hle]
  rfl

/-- A hand-over makes no call and keeps the buffer, or makes one from its beginning and empties
it. -/
theorem onReceive_ok {c' : UnityClient} (h : c.onReceive raises b = .ok c') :
    (c'.calls = c.calls ∧ c'.taken = c.taken ∧ c'.mTcpBuffer = c.mTcpBuffer ++ b) ∨
      ∃ call, c'.calls = c.calls ++ [(c.taken, call)] := by
  simp only [onReceive, tcp_append] at h
  split_ifs at h
  · cases h
    exact .inl ⟨rfl, rfl, rfl⟩
  · cases h
    exact .inr ⟨_, rfl⟩
  · cases h
    exact .inl ⟨rfl, rfl, rfl⟩

theorem asyncReceiveCallback_eq (c : UnityClient) (r : Receive) :
    c.asyncReceiveCallback r =
      if r.handsOver then
        ({ c with mRxBuffer := c.mRxBuffer ++ r.bytes }.onReceive r.raises
          (c.mRxBuffer ++ r.bytes)).andThen fun c => .ok { c with mRxBuffer := [] }
      else .ok { c with mRxBuffer := c.mRxBuffer ++ r.bytes } := by
  have hrx : (if 0 < r.bytes.length then { c with mRxBuffer := c.mRxBuffer ++ r.bytes } else c) =
      { c with mRxBuffer := c.mRxBuffer ++ r.bytes } := by
    split_ifs with h
    · rfl
    · rw [List.length_eq_zero_iff.1 (by omega : r.bytes.length = 0), List.append_nil]
  unfold asyncReceiveCallback
  rw [hrx]

theorem exec_cons {c' : UnityClient} {r : Receive} {rs : List Receive} (hr : r.bytes.length ≤ 65536) :
    unityMachine.exec c (r :: rs) = some (.ok c') ↔
      ∃ c₁, c.asyncReceiveCallback r = .ok c₁ ∧ unityMachine.exec c₁ rs = some (.ok c') := by
  rw [Machine.exec_cons_ok]
  simp only [unityMachine, if_pos hr, Option.some.injEq]

/-- Receives make no call, and the bytes are still there, or the first call they make is from the
bytes they found. -/
theorem exec_ok : ∀ {rs : List Receive} {c c' : UnityClient}, (∀ r ∈ rs, r.bytes.length ≤ 65536) →
    unityMachine.exec c rs = some (.ok c') →
    (c'.calls = c.calls ∧ c'.mTcpBuffer ++ c'.mRxBuffer =
      c.mTcpBuffer ++ (c.mRxBuffer ++ rs.flatMap Receive.bytes)) ∨
      ∃ call rest, c'.calls = c.calls ++ (c.taken, call) :: rest
  | [], c, c', _, h => by
    obtain rfl : c = c' := by simpa [Machine.exec] using h
    exact .inl ⟨rfl, by simp⟩
  | r :: rs, c, c', hlen, h => by
    obtain ⟨hr, hrs⟩ := List.forall_mem_cons.1 hlen
    obtain ⟨c₁, h₁, h⟩ := (exec_cons hr).1 h
    rw [asyncReceiveCallback_eq] at h₁
    split_ifs at h₁ with hov
    · obtain ⟨c₂, h₂, h₁⟩ := Outcome.andThen_eq_ok.1 h₁
      obtain rfl : { c₂ with mRxBuffer := [] } = c₁ := by simpa using h₁
      rcases onReceive_ok h₂ with ⟨hcalls, htaken, htcp⟩ | ⟨call, hcalls⟩
      · rcases exec_ok hrs h with ⟨hc', hbuf⟩ | ⟨call, l, hc'⟩
        · refine .inl ⟨hc'.trans hcalls, hbuf.trans ?_⟩
          simp only [htcp]
          simp
        · refine .inr ⟨call, l, hc'.trans ?_⟩
          rw [hcalls, htaken]
      · rcases exec_ok hrs h with ⟨hc', -⟩ | ⟨call', l, hc'⟩
        · exact .inr ⟨call, [], hc'.trans hcalls⟩
        · refine .inr ⟨call, (c₂.taken, call') :: l, hc'.trans ?_⟩
          rw [hcalls, List.append_assoc]
          rfl
    · obtain rfl := Outcome.ok.inj h₁
      rcases exec_ok hrs h with ⟨hc', hbuf⟩ | h'
      · exact .inl ⟨hc', hbuf.trans (by simp)⟩
      · exact .inr h'

/-- What is held of the frames to come is nothing, or ends in the payload of the first. -/
def Holds (c : UnityClient) (Fs : List ServerFrame) : Prop :=
  c.mTcpBuffer = [] ∨ ∃ F Gs, Fs = F :: Gs ∧ 8 ≤ c.mTcpBuffer.length
    ∧ c.mTcpBuffer.length < 8 + F.payload.length

section

variable {r : Receive}

theorem receive_wait (hov : ¬ r.handsOver = true) :
    c.asyncReceiveCallback r = .ok { c with mRxBuffer := c.mRxBuffer ++ r.bytes } := by
  rw [asyncReceiveCallback_eq, if_neg hov]

theorem receive_short (hov : r.handsOver = true)
    (h : (c.mTcpBuffer ++ (c.mRxBuffer ++ r.bytes)).length < 8) :
    c.asyncReceiveCallback r = .fault .header { c with
      mTcpBuffer := c.mTcpBuffer ++ (c.mRxBuffer ++ r.bytes)
      mRxBuffer := c.mRxBuffer ++ r.bytes } := by
  rw [asyncReceiveCallback_eq, if_pos hov,
    onReceive_short (c := { c with mRxBuffer := c.mRxBuffer ++ r.bytes }) h]
  rfl

theorem receive_keep (hov : r.handsOver = true)
    (h : (c.mTcpBuffer ++ (c.mRxBuffer ++ r.bytes)) ++ rest = F.bytes ++ more)
    (h8 : 8 ≤ (c.mTcpBuffer ++ (c.mRxBuffer ++ r.bytes)).length)
    (hlt : (c.mTcpBuffer ++ (c.mRxBuffer ++ r.bytes)).length < 8 + F.payload.length) :
    c.asyncReceiveCallback r = .ok { c with
      mTcpBuffer := c.mTcpBuffer ++ (c.mRxBuffer ++ r.bytes), mRxBuffer := [] } := by
  rw [asyncReceiveCallback_eq, if_pos hov,
    onReceive_keep (c := { c with mRxBuffer := c.mRxBuffer ++ r.bytes }) h h8 hlt]
  rfl

theorem receive_raises (hov : r.handsOver = true)
    (h : (c.mTcpBuffer ++ (c.mRxBuffer ++ r.bytes)) ++ rest = F.bytes ++ more)
    (hle : 8 + F.payload.length ≤ (c.mTcpBuffer ++ (c.mRxBuffer ++ r.bytes)).length)
    (hraises : r.raises = true) (c₁ : UnityClient) : c.asyncReceiveCallback r ≠ .ok c₁ := by
  rw [asyncReceiveCallback_eq, if_pos hov,
    onReceive_call (c := { c with mRxBuffer := c.mRxBuffer ++ r.bytes }) h hle, hraises]
  exact nofun

theorem receive_call (hov : r.handsOver = true)
    (h : (c.mTcpBuffer ++ (c.mRxBuffer ++ r.bytes)) ++ rest = F.bytes ++ more)
    (hle : 8 + F.payload.length ≤ (c.mTcpBuffer ++ (c.mRxBuffer ++ r.bytes)).length)
    (hraises : r.raises = false) : c.asyncReceiveCallback r = .ok
      { mRxBuffer := [], mTcpBuffer := []
        taken := c.taken + (c.mTcpBuffer ++ (c.mRxBuffer ++ r.bytes)).length
        calls := c.calls ++ [(c.taken, F.call)] } := by
  rw [asyncReceiveCallback_eq, if_pos hov,
    onReceive_call (c := { c with mRxBuffer := c.mRxBuffer ++ r.bytes }) h hle, hraises]
  rfl

end

theorem reassembled_from : ∀ {rs : List Receive} {c : UnityClient} {Fs : List ServerFrame},
    (∀ r ∈ rs, r.bytes.length ≤ 65536) → c.Holds Fs →
    c.mTcpBuffer ++ (c.mRxBuffer ++ rs.flatMap Receive.bytes) = Fs.flatMap ServerFrame.bytes →
    ((∃ c', unityMachine.exec c rs = some (.ok c') ∧ c'.calls = c.calls ++ callsFrom c.taken Fs
        ∧ c'.mRxBuffer = [] ∧ c'.mTcpBuffer = []) ↔
      HandedWhole c.taken Fs
        (handOvers (c.taken + (c.mTcpBuffer ++ c.mRxBuffer).length) rs))
  | [], c, [], _, _, hs => by
    obtain ⟨htcp, hrx⟩ : c.mTcpBuffer = [] ∧ c.mRxBuffer = [] := by simpa using hs
    refine iff_of_true ⟨c, rfl, by simp [callsFrom], hrx, htcp⟩ ?_
    simp [handOvers, HandedWhole]
  | [], c, F :: Fs, _, _, _ => by
    refine iff_of_false ?_ (by simp [handOvers, HandedWhole])
    rintro ⟨c', h, hcalls, -⟩
    obtain rfl : c = c' := by simpa [Machine.exec] using h
    simp [callsFrom] at hcalls
  | r :: rs, c, Fs, hlen, hh, hs => by
    obtain ⟨hr, hrs⟩ := List.forall_mem_cons.1 hlen
    have hs : (c.mTcpBuffer ++ (c.mRxBuffer ++ r.bytes)) ++ rs.flatMap Receive.bytes =
        Fs.flatMap ServerFrame.bytes := by
      rw [← hs]
      simp
    have hn : c.taken + (c.mTcpBuffer ++ c.mRxBuffer).length + r.bytes.length =
        c.taken + (c.mTcpBuffer ++ (c.mRxBuffer ++ r.bytes)).length := by
      simp only [List.length_append]
      omega
    simp only [exec_cons hr, handOvers, hn]
    by_cases hov : r.handsOver = true
    · rw [if_pos hov]
      cases Fs with
      | nil =>
        have hnil : c.mTcpBuffer ++ (c.mRxBuffer ++ r.bytes) = [] :=
          (List.append_eq_nil_iff.1 hs).1
        refine iff_of_false ?_ id
        rintro ⟨c', ⟨c₁, h₁, -⟩, -⟩
        rw [receive_short hov (by simp [hnil])] at h₁
        cases h₁
      | cons F Gs =>
        rw [List.flatMap_cons] at hs
        have hfits := F.fits
        generalize ht : c.mTcpBuffer ++ (c.mRxBuffer ++ r.bytes) = t at hs
        simp only [HandedWhole, Prod.mk.injEq, Nat.add_left_cancel_iff, Nat.add_assoc,
          Nat.add_le_add_iff_left, Nat.add_lt_add_iff_left]
        rcases lt_or_ge t.length 8 with h8 | h8
        · -- it ends in the header
          refine iff_of_false ?_ (by omega)
          rintro ⟨c', ⟨c₁, h₁, -⟩, -⟩
          rw [receive_short hov (by rwa [ht])] at h₁
          cases h₁
        rcases lt_or_ge t.length (8 + F.payload.length) with hlt | hge
        · -- it ends in the payload
          have hrec := receive_keep hov (ht ▸ hs) (ht ▸ h8) (ht ▸ hlt)
          rw [ht] at hrec
          have ih := reassembled_from (c := { c with mTcpBuffer := t, mRxBuffer := [] }) hrs
            (.inr ⟨F, Gs, rfl, h8, hlt⟩) (by simpa using hs)
          simp only [hrec, Outcome.ok.injEq, exists_eq_left', ih, List.append_nil]
          rw [or_iff_right (by omega), and_iff_right ⟨h8, hlt⟩]
        -- it has all of the payload
        rw [or_iff_left (by omega)]
        cases hraises : r.raises with
        | true =>
          refine iff_of_false ?_ (by simp)
          rintro ⟨c', ⟨c₁, h₁, -⟩, -⟩
          exact receive_raises hov (ht ▸ hs) (ht ▸ hge) hraises c₁ h₁
        | false =>
          have hrec := receive_call hov (ht ▸ hs) (ht ▸ hge) hraises
          rw [ht] at hrec
          simp only [hrec, Outcome.ok.injEq, exists_eq_left', and_true]
          rcases eq_or_ne t.length 65536 with hlen' | hne
          · obtain ⟨-, hrest⟩ := List.append_inj hs (by rw [hlen', ServerFrame.length_bytes])
            have hnil : Holds ⟨[], [], c.taken + 65536, c.calls ++ [(c.taken, F.call)]⟩ Gs := .inl rfl
            have ih := reassembled_from hrs hnil (by simpa using hrest)
            simpa [hlen', callsFrom] using ih
          · -- the next call, if there is one, is not made from the next frame's bytes
            refine iff_of_false ?_ fun h => hne h.1
            rintro ⟨c', h, hcalls, hrx, htcp⟩
            rcases exec_ok hrs h with ⟨hc', hbuf⟩ | ⟨call, l, hc'⟩ <;>
              simp only [hcalls, callsFrom, List.append_assoc, List.append_cancel_left_eq] at hc'
            · cases Gs with
              | nil =>
                have hnil : rs.flatMap Receive.bytes = [] := by simpa [hrx, htcp] using hbuf.symm
                have hlen' := congrArg List.length hs
                rw [hnil, List.flatMap_nil, List.append_nil, List.append_nil,
                  ServerFrame.length_bytes] at hlen'
                exact hne hlen'
              | cons G Gs => simp [callsFrom] at hc'
            · cases Gs with
              | nil => simp [callsFrom] at hc'
              | cons G Gs =>
                simp only [callsFrom, List.cons_append, List.nil_append, List.cons.injEq,
                  Prod.mk.injEq, Nat.add_left_cancel_iff] at hc'
                exact hne hc'.2.1.1.symm
    · rw [if_neg hov]
      have ih := reassembled_from (c := { c with mRxBuffer := c.mRxBuffer ++ r.bytes }) hrs hh
        (by rw [← hs]; simp)
      simpa only [receive_wait hov, Outcome.ok.injEq, exists_eq_left'] using ih

end UnityClient

/-- However the stream of some frames is cut into receives, the client comes out with the frames if
and only if each is handed over to its end, and otherwise only between its header and the end of
its payload. -/
theorem reassembly_iff {frames : List ServerFrame} {rs : List Receive}
    (hstream : rs.flatMap Receive.bytes = frames.flatMap ServerFrame.bytes)
    (hlen : ∀ r ∈ rs, r.bytes.length ≤ 65536) :
    Reassembled frames rs ↔ HandedWhole 0 frames (handOvers 0 rs) :=
  UnityClient.reassembled_from (c := UnityClient.init) hlen (.inl rfl) hstream

/-- A frame as the server sends it when a participant leaves. -/
def leaveFrame (id : UInt64) : ServerFrame :=
  .ofPayload MessageHead.participantLeave.code (ParticipantLeave.mk id).toBytes (by decide)
    (by simp)

/-- Two frames, the second cut behind its header. -/
theorem reassembly_iff_two : Reassembled [leaveFrame 1, leaveFrame 2]
    [⟨(leaveFrame 1).bytes, 0, false⟩, ⟨(leaveFrame 2).bytes.take 10, 0, false⟩,
      ⟨(leaveFrame 2).bytes.drop 10, 0, false⟩] := by
  refine (reassembly_iff (by simp) (by simp)).2 ?_
  have hlen : (leaveFrame 2).payload.length = 8 := by simp [leaveFrame, ServerFrame.ofPayload]
  simp [handOvers, Receive.handsOver, HandedWhole, hlen]

/-- A frame cut in its header: the first receive raises, and there is no second. -/
theorem header_cut_raises :
    (∃ c, unityMachine.exec unityMachine.init [⟨(leaveFrame 1).bytes.take 4, 0, false⟩] =
      some (.fault .header c))
    ∧ ¬ Reassembled [leaveFrame 1] [⟨(leaveFrame 1).bytes.take 4, 0, false⟩,
      ⟨(leaveFrame 1).bytes.drop 4, 0, false⟩] := by
  have hshort : (UnityClient.init.mTcpBuffer ++ (UnityClient.init.mRxBuffer ++
      (leaveFrame 1).bytes.take 4)).length < 8 := by
    simp [UnityClient.init]
  have hraise := UnityClient.receive_short (c := UnityClient.init)
    (r := ⟨(leaveFrame 1).bytes.take 4, 0, false⟩) (by simp [Receive.handsOver]) hshort
  constructor
  · have hlen : ((leaveFrame 1).bytes.take 4).length ≤ 65536 := by simp
    refine ⟨{ UnityClient.init with
      mTcpBuffer := (leaveFrame 1).bytes.take 4, mRxBuffer := (leaveFrame 1).bytes.take 4 }, ?_⟩
    simp only [Machine.exec, unityMachine, if_pos hlen, hraise]
    rfl
  · rintro ⟨c, h, -⟩
    obtain ⟨c₁, h₁, -⟩ := (UnityClient.exec_cons (by simp)).1 h
    rw [show unityMachine.init = UnityClient.init from rfl, hraise] at h₁
    cases h₁

end XRNetwork
