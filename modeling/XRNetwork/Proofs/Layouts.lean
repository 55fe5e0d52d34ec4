import XRNetwork.UnityProtocol
import XRNetwork.Server
import XRNetwork.Proofs.Codec

/-!
# Where the two sides' structs agree

Three messages have one layout on both sides, and their structs arrive as they were sent. In the
others one side has a 16-bit length field where the other has a 32-bit one, so the reader finds the
buffer two bytes late or two bytes early: the struct arrives only where those bytes do not show.
-/

namespace XRNetwork

open LittleEndian Packed

namespace Sent

/-- The other side's decoding has every integer, every length and the bytes of every buffer its
length covers. -/
def Recovered (x : Sent) : Prop := Packed.Recovered x.received x.payload x.record

/-- Both sides define the struct alike, or what the shorter or longer length field moves is zeros:
the buffer as far as it is in use, and the upper half of its length. -/
def Survives : Sent → Prop
  | server k _ v _ => k.cpp = k.unity ∨ ∀ b ∈ v.buffers, b.1 < 65536 ∧ ∀ x ∈ b.2.take b.1, x = 0
  | unity k _ v => k.cpp = k.unity ∨ ∀ b ∈ v.buffers, ∀ x ∈ b.2.take (b.1 + 2), x = 0

theorem payload_server {k : SharedMessage} {h : k.fromServer} {v : Value k.cpp}
    {padding : Buffer k.padding} :
    (server k h v padding).payload = v.write ++ padding.toList := by
  simp only [payload, message]
  rw [XRMessage.toNat_payloadSize_ofPayload, XRMessage.payload_ofPayload, List.take_left' rfl]

theorem payload_unity {k : SharedMessage} {h : k.fromUnity} {v : Value k.unity} :
    (unity k h v).payload = v.write ++ List.replicate (65528 - k.unity.size) 0 := by
  simp only [payload, message, rawMessage, XRMessage.payload, v.length_write]
  refine List.drop_left' ?_
  simp [XRMessageHeader.toBytes]

theorem recovered_same {L L' : Layout} (hL : L' = L) (v : Value L) (rest : Bytes) :
    Packed.Recovered L' (v.write ++ rest) v.toRecord := by
  subst hL
  exact ⟨_, read_write v rest, .refl _⟩

theorem recovered_server_iff {k : SharedMessage} (h : k.fromServer) (v : Value k.cpp)
    (padding : Buffer k.padding) : (server k h v padding).Recovered ↔
      k.cpp = k.unity ∨ ∀ b ∈ v.buffers, b.1 < 65536 ∧ ∀ x ∈ b.2.take b.1, x = 0 := by
  unfold Recovered
  rw [payload_server]
  show Packed.Recovered k.unity _ v.toRecord ↔ _
  by_cases hL : k.unity = k.cpp
  · exact iff_of_true (recovered_same hL v _) (.inl hL.symm)
  rw [or_iff_right (Ne.symm hL)]
  cases k with
  | handshakeHello | handshakeCredentials => exact absurd rfl hL
  | handshakeHelloAck | handshakeCredentialsAck => cases h
  | participantJoin => exact recovered_narrow (w := 2) (d := 2) (by norm_num) v _
  | participantUpdate => exact recovered_narrow (w := 2) (d := 2) (by norm_num) v _

theorem recovered_unity_iff {k : SharedMessage} (h : k.fromUnity) (v : Value k.unity) :
    (unity k h v).Recovered ↔
      k.cpp = k.unity ∨ ∀ b ∈ v.buffers, ∀ x ∈ b.2.take (b.1 + 2), x = 0 := by
  unfold Recovered
  rw [payload_unity]
  show Packed.Recovered k.cpp _ v.toRecord ↔ _
  by_cases hL : k.cpp = k.unity
  · exact iff_of_true (recovered_same hL v _) (.inl hL)
  rw [or_iff_right hL]
  cases k with
  | handshakeHello | handshakeCredentials | participantJoin => cases h
  | handshakeCredentialsAck => exact absurd rfl hL
  | handshakeHelloAck =>
    exact recovered_wide (w := 2) (d := 2) (by norm_num) (by norm_num) (by norm_num) (by decide) v
  | participantUpdate =>
    exact recovered_wide (w := 2) (d := 2) (by norm_num) (by norm_num) (by norm_num) (by decide) v

end Sent

/-! ## The structs the server builds -/

def HandshakeHello.value (s : HandshakeHello) : Value SharedMessage.handshakeHello.cpp where
  ints := [s.serviceId.toNat, s.participantId.toNat, s.serverTimestamp.toNat]
  buffers := [(s.servernameBuffersize.toNat, s.servernameBuffer.toList)]
  ints_fit := by
    simpa [SharedMessage.cpp] using
      ⟨s.serviceId.toNat_lt, s.participantId.toNat_lt, s.serverTimestamp.toNat_lt⟩
  buffers_fit := by simpa [SharedMessage.cpp] using s.servernameBuffersize.toNat_lt

def HandshakeCredentials.value (s : HandshakeCredentials) :
    Value SharedMessage.handshakeCredentials.cpp where
  ints := []
  buffers := [(s.serverCertificateBuffersize.toNat, s.serverCertificateBuffer.toList)]
  ints_fit := by simp [SharedMessage.cpp]
  buffers_fit := by simpa [SharedMessage.cpp] using s.serverCertificateBuffersize.toNat_lt

def ParticipantJoin.value (s : ParticipantJoin) : Value SharedMessage.participantJoin.cpp where
  ints := [s.participantId.toNat, s.maxDataRate.toNat, s.allowAsynchronousMessages.toNat]
  buffers := [(s.messageBuffersize.toNat, s.messageBuffer.toList)]
  ints_fit := by
    simpa [SharedMessage.cpp] using
      ⟨s.participantId.toNat_lt, s.maxDataRate.toNat_lt, s.allowAsynchronousMessages.toNat_lt⟩
  buffers_fit := by simpa [SharedMessage.cpp] using s.messageBuffersize.toNat_lt

theorem HandshakeHello.write_value (s : HandshakeHello) : s.value.write = s.toBytes := by
  simp [Value.write, value, SharedMessage.cpp, Layout.writeInts, Layout.writeBuffers, toBytes]

theorem HandshakeCredentials.write_value (s : HandshakeCredentials) :
    s.value.write = s.toBytes := by
  simp [Value.write, value, SharedMessage.cpp, Layout.writeInts, Layout.writeBuffers, toBytes]

theorem ParticipantJoin.write_value (s : ParticipantJoin) : s.value.write = s.toBytes := by
  simp [Value.write, value, SharedMessage.cpp, Layout.writeInts, Layout.writeBuffers, toBytes]

/-- For every message both sides define and every value of the sender's struct. -/
theorem layouts_agree_iff (x : Sent) : x.Recovered ↔ x.Survives := by
  cases x with
  | server k h v padding => exact Sent.recovered_server_iff h v padding
  | unity k h v => exact Sent.recovered_unity_iff h v

/-- The message the server welcomes every participant with does not arrive. -/
theorem participantJoin_not_recovered :
    ¬ (Sent.server .participantJoin rfl (Server.participantJoin 0).value (.zero 0)).Recovered := by
  intro h
  rcases (Sent.recovered_server_iff rfl _ _).1 h with h | h
  · exact absurd h (by decide)
  · have ha := (h _ List.mem_cons_self).2 97 (by decide +kernel)
    exact absurd ha (by decide)

end XRNetwork
