import XRNetwork.Prints
import XRNetwork.Proofs.Sides
import XRNetwork.Proofs.Steps

/-!
# Buffers whose length a client sends

Two frames make the server copy a buffer into `m_descriptor`, each as long as a 32-bit field of the
same frame says. Neither parser compares that length with the buffer's own, so the copy stays in the
field for exactly the lengths that fit it: a longer one runs on through the rest of the message, and
from there past its end. The handshake's parser prints the buffer first, as a C string, and for that
the message needs a zero byte in the buffer or behind it.
-/

namespace XRNetwork

open LittleEndian

/-- The two messages with a buffer the server copies. -/
inductive Inbound
  | handshakeHelloAck
  | participantJoinAck

namespace Inbound

def head : Inbound → MessageHead
  | handshakeHelloAck => .handshakeHelloAck
  | participantJoinAck => .participantJoinAck

/-- The read loop that parses it. -/
def loop : Inbound → ReadLoop
  | handshakeHelloAck => .handshake
  | participantJoinAck => .room

/-- `configuration_buffersize` and `json_buffersize`, as the client sent them. -/
def buffersize : Inbound → XRMessage → ℕ
  | handshakeHelloAck, m => field 16 4 m.payload
  | participantJoinAck, m => field 8 4 m.payload

/-- Where `configuration_buffer` and `json_buffer` start in the message. -/
def offset : Inbound → ℕ
  | handshakeHelloAck => 28
  | participantJoinAck => 20

/-- What the parser copies: `none` when it would read past the end of the message. -/
def copied : Inbound → XRMessage → Option Bytes
  | handshakeHelloAck, m => m.configuration
  | participantJoinAck, m => m.json

/-- What stands in `m_descriptor` before the copy, which `PARTICIPANT_JOIN_ACK` clears. -/
def kept : Inbound → Bytes → Bytes
  | handshakeHelloAck, d => d
  | participantJoinAck, _ => []

variable (k : Inbound)

/-- Handling the frame prints and copies bytes of the received message only, and copies no more of
them than `sizeof(configuration_buffer)` and `sizeof(json_buffer)`, both 20480. -/
def Bounded (E : Env) (c : Choice) (s : ℕ) (w : Server) (buf : Buffer 65536) : Prop :=
  (∀ b ∈ Server.printsRead k.loop (receivedMessage buf), Terminated b)
    ∧ ∃ d, k.copied (receivedMessage buf) = some d ∧ d.length ≤ 20480
      ∧ ((w.onRead E c s k.loop (receivedMessage buf)).state.sessions s).mDescriptor
        = k.kept (w.sessions s).mDescriptor ++ d

/-- A message that is printed has a zero byte from the buffer on. -/
def HasEnd (m : XRMessage) : Prop := k = .handshakeHelloAck → 0 ∈ m.data.drop k.offset

variable {k}

theorem prints_iff {m : XRMessage} (hk : m.kind = some k.head) :
    (∀ b ∈ Server.printsRead k.loop m, Terminated b) ↔ k.HasEnd m := by
  cases k with
  | handshakeHelloAck =>
    have hk : m.kind = some .handshakeHelloAck := hk
    have hprints : Server.printsRead .handshake m = [m.data.drop 28] := by
      simp only [Server.printsRead, Server.printsHandshake, hk, XRMessage.configurationBuffer,
        XRMessage.payload, List.drop_drop]
    simp [loop, hprints, HasEnd, offset, Terminated]
  | participantJoinAck => simp [loop, Server.printsRead, HasEnd]

theorem buffersize_lt (m : XRMessage) : k.buffersize m < 4294967296 := by
  cases k <;> exact (field_lt _ _ _).trans_eq (by norm_num)

/-- The parser copies what the field says, from where the buffer starts. -/
theorem copied_eq (m : XRMessage) : k.copied m =
    if k.offset + k.buffersize m ≤ 65536 then some ((m.data.drop k.offset).take (k.buffersize m))
    else none := by
  have hsize : (UInt32.ofNat (k.buffersize m)).toNat = k.buffersize m := by
    have hlt := k.buffersize_lt m
    rw [UInt32.toNat_ofNat']
    omega
  have hcopied : k.copied m = m.copy (k.offset - 8) (UInt32.ofNat (k.buffersize m)) := by
    cases k <;> rfl
  have hoff : 8 + (k.offset - 8) = k.offset := by cases k <;> rfl
  rw [hcopied, XRMessage.copy, XRMessage.payload, List.drop_drop, hsize, hoff]

theorem length_copied {m : XRMessage} {d : Bytes} (h : k.copied m = some d) :
    d.length = k.buffersize m := by
  rw [copied_eq] at h
  split_ifs at h with hle
  obtain rfl := Option.some.inj h
  rw [List.length_take, List.length_drop, m.size_eq]
  omega

theorem copied_of_le {m : XRMessage} (h : k.buffersize m ≤ 20480) : ∃ d, k.copied m = some d := by
  have hoff : k.offset ≤ 28 := by cases k <;> decide
  rw [copied_eq, if_pos (by omega)]
  exact ⟨_, rfl⟩

theorem onRead_handshakeHelloAck {E : Env} {c : Choice} {s : ℕ} {w : Server} {m : XRMessage}
    {d : Bytes} (hk : m.kind = some .handshakeHelloAck) (hd : m.configuration = some d) :
    ((w.onRead E c s .handshake m).state.sessions s).mDescriptor
      = (w.sessions s).mDescriptor ++ d := by
  unfold Server.onRead Server.onReadHandshake Server.checkHandshakeHelloAck
  simp [hk, hd, Server.doReadHandshake, Server.setSession, Server.deliverByte_eq]

/-- The announcement that follows the copy, returning or not, leaves the descriptor. -/
theorem onRead_participantJoinAck {E : Env} {c : Choice} {s : ℕ} {w : Server} {m : XRMessage}
    {d : Bytes} (hk : m.kind = some .participantJoinAck) (hd : m.json = some d) :
    ((w.onRead E c s .room m).state.sessions s).mDescriptor = d := by
  unfold Server.onRead Server.onReadRoom
  simp only []
  rw [Server.onRoomFrame_joinAck _ hk hd]
  rcases Server.introduces_cases (((w.log (.received s .room m)).described s d).log
      (.initNewParticipant s m.participantId)) c m.participantId with
    ⟨l, f, h, -⟩ | ⟨l, -, h⟩ <;> rw [h]
  · simp [Server.described, Server.setSession]
  · simp [Server.described, Server.setSession, Server.doReadByte]

theorem mDescriptor_onRead {E : Env} {c : Choice} {s : ℕ} {w : Server} {m : XRMessage} {d : Bytes}
    (hk : m.kind = some k.head) (hd : k.copied m = some d) :
    ((w.onRead E c s k.loop m).state.sessions s).mDescriptor
      = k.kept (w.sessions s).mDescriptor ++ d := by
  cases k with
  | handshakeHelloAck => exact onRead_handshakeHelloAck hk hd
  | participantJoinAck => exact onRead_participantJoinAck hk hd

end Inbound

/-- In both loops, whatever the frame and the state, what is read stays in the message and what is
copied in the field exactly when the length the client sent fits the field and, in the handshake's
loop, the message has a zero byte from the field on. -/
theorem inbound_bounded_iff (k : Inbound) (E : Env) (c : Choice) (s : ℕ) (w : Server)
    (buf : Buffer 65536) (hk : (receivedMessage buf).kind = some k.head) :
    k.Bounded E c s w buf ↔
      k.buffersize (receivedMessage buf) ≤ 20480 ∧ k.HasEnd (receivedMessage buf) := by
  rw [Inbound.Bounded, Inbound.prints_iff hk, and_comm]
  refine and_congr_left' ⟨?_, fun hle => ?_⟩
  · rintro ⟨d, hd, hle, -⟩
    rwa [← Inbound.length_copied hd]
  · obtain ⟨d, hd⟩ := Inbound.copied_of_le hle
    exact ⟨d, hd, (Inbound.length_copied hd).trans_le hle, Inbound.mDescriptor_onRead hk hd⟩

/-- A `PARTICIPANT_JOIN_ACK` that is nothing but its length field, all ones. -/
def oversizedJoinAck : XRMessage :=
  .ofPayload MessageHead.participantJoinAck.code (encode 8 0 ++ encode 4 0xFFFFFFFF) (by simp)

/-- What the chat client sends is copied as it should be. -/
theorem inbound_bounded_helloAck : Inbound.handshakeHelloAck.Bounded .counting .plain 0 Server.init
    (ChatClient.helloAck 0 0).frame :=
  (inbound_bounded_iff _ _ _ _ _ _ (by decide +kernel)).2
    ⟨by decide +kernel, fun _ => by decide +kernel⟩

/-- A `HANDSHAKE_HELLO_ACK` with no configuration, and ones all over. -/
def endlessHelloAck : Buffer 65536 :=
  ⟨(XRMessageHeader.toBytes ⟨MessageHead.handshakeHelloAck.code, 20500, 0xFFFF⟩
    ++ (encode 8 0 ++ (encode 8 0 ++ encode 4 0))) ++ List.replicate 65508 1, by
    simp only [XRMessageHeader.toBytes, List.length_append, length_encode, List.length_replicate]⟩

/-- In every state the copy of the oversized buffer runs past the end of the message, and so does the
print of the other one, of which nothing is copied. -/
theorem inbound_unbounded :
    ((receivedMessage oversizedJoinAck.frame).kind = some Inbound.participantJoinAck.head
      ∧ ∀ (E : Env) (c : Choice) (s : ℕ) (w : Server),
        ¬ Inbound.participantJoinAck.Bounded E c s w oversizedJoinAck.frame)
    ∧ (receivedMessage endlessHelloAck).kind = some Inbound.handshakeHelloAck.head
      ∧ Inbound.handshakeHelloAck.buffersize (receivedMessage endlessHelloAck) = 0
      ∧ ∀ (E : Env) (c : Choice) (s : ℕ) (w : Server),
        ¬ Inbound.handshakeHelloAck.Bounded E c s w endlessHelloAck := by
  have hkind : (receivedMessage endlessHelloAck).kind = some Inbound.handshakeHelloAck.head := by
    decide +kernel
  refine ⟨⟨by decide +kernel, fun E c s w h => ?_⟩, hkind, by decide +kernel, fun E c s w h => ?_⟩
  · obtain ⟨-, d, hd, hle, -⟩ := h
    have hsize : Inbound.participantJoinAck.buffersize (receivedMessage oversizedJoinAck.frame)
        = 4294967295 := by decide +kernel
    have hlen := Inbound.length_copied hd
    omega
  · have hend := (Inbound.prints_iff hkind).1 h.1 rfl
    have hlen : (XRMessageHeader.toBytes ⟨MessageHead.handshakeHelloAck.code, 20500, 0xFFFF⟩
        ++ (encode 8 0 ++ (encode 8 0 ++ encode 4 0))).length = 28 := by
      simp only [XRMessageHeader.toBytes, List.length_append, length_encode]
    rw [Server.receivedMessage_data, endlessHelloAck, List.Vector.toList_mk,
      show Inbound.handshakeHelloAck.offset = 28 from rfl, List.drop_left' hlen,
      List.mem_replicate] at hend
    exact absurd hend.2 (by decide)

end XRNetwork
