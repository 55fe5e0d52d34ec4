import XRNetwork.ChatClient
import XRNetwork.Proofs.Layouts

/-!
# What the chat client encodes

The client encodes each of its three structs with a `sizeof` it names again at the call. Only
`HANDSHAKE_HELLO_ACK` is given its own: `HANDSHAKE_CREDENTIALS_ACK` is cut where the shorter
`ST_HANDSHAKE_CREDENTIALS` would end, in its certificate, and `PARTICIPANT_UPDATE_ACK` runs on over
the twelve bytes that `ST_PARTICIPANT_UPDATE` is longer.
-/

namespace XRNetwork

open LittleEndian Packed

/-- A struct the client sends, and what the stack holds behind one encoded with a larger size. -/
inductive ClientMessage
  | helloAck (s : HandshakeHelloAck)
  | credentialsAck (s : HandshakeCredentialsAck)
  | updateAck (s : ParticipantUpdateAck) (stack : Buffer 12)

/-! ## The structs by their layouts -/

def HandshakeHelloAck.value (s : HandshakeHelloAck) :
    Value SharedMessage.handshakeHelloAck.cpp where
  ints := [s.participantId.toNat, s.clientTimestamp.toNat]
  buffers := [(s.configurationBuffersize.toNat, s.configurationBuffer.toList)]
  ints_fit := by
    simpa [SharedMessage.cpp] using ⟨s.participantId.toNat_lt, s.clientTimestamp.toNat_lt⟩
  buffers_fit := by simpa [SharedMessage.cpp] using s.configurationBuffersize.toNat_lt

def HandshakeCredentialsAck.value (s : HandshakeCredentialsAck) :
    Value SharedMessage.handshakeCredentialsAck.cpp where
  ints := [s.participantId.toNat]
  buffers := [(s.loginBuffersize.toNat, s.loginBuffer.toList),
    (s.passwordBuffersize.toNat, s.passwordBuffer.toList),
    (s.participantCertificateBuffersize.toNat, s.participantCertificateBuffer.toList)]
  ints_fit := by simpa [SharedMessage.cpp] using s.participantId.toNat_lt
  buffers_fit := by
    simpa [SharedMessage.cpp] using ⟨s.loginBuffersize.toNat_lt, s.passwordBuffersize.toNat_lt,
      s.participantCertificateBuffersize.toNat_lt⟩

/-- `ST_PARTICIPANT_UPDATE_ACK`, which the C# side does not define. -/
def participantUpdateAckLayout : Layout := ⟨[8, 8], [(4, 20480)]⟩

def ParticipantUpdateAck.value (s : ParticipantUpdateAck) : Value participantUpdateAckLayout where
  ints := [s.participantId.toNat, s.originTimestamp.toNat]
  buffers := [(s.buffersize.toNat, s.buffer.toList)]
  ints_fit := by
    simpa [participantUpdateAckLayout] using ⟨s.participantId.toNat_lt, s.originTimestamp.toNat_lt⟩
  buffers_fit := by simpa [participantUpdateAckLayout] using s.buffersize.toNat_lt

theorem HandshakeHelloAck.write_value (s : HandshakeHelloAck) : s.value.write = s.toBytes := by
  simp [Value.write, value, SharedMessage.cpp, Layout.writeInts, Layout.writeBuffers, toBytes]

theorem HandshakeCredentialsAck.write_value (s : HandshakeCredentialsAck) :
    s.value.write = s.toBytes := by
  simp [Value.write, value, SharedMessage.cpp, Layout.writeInts, Layout.writeBuffers, toBytes]

theorem ParticipantUpdateAck.write_value (s : ParticipantUpdateAck) :
    s.value.write = s.toBytes := by
  simp [Value.write, value, participantUpdateAckLayout, Layout.writeInts, Layout.writeBuffers,
    toBytes]

namespace ClientMessage

/-- The message as it is encoded. -/
def message : ClientMessage → XRMessage
  | helloAck s => .ofPayload MessageHead.handshakeHelloAck.code s.toBytes (by simp)
  | credentialsAck s =>
    .ofPayload MessageHead.handshakeCredentialsAck.code (s.toBytes.take 20484) (by simp)
  | updateAck s stack =>
    .ofPayload MessageHead.participantUpdateAck.code (s.toBytes ++ stack.toList) (by simp)

def layout : ClientMessage → Layout
  | helloAck _ => SharedMessage.handshakeHelloAck.cpp
  | credentialsAck _ => SharedMessage.handshakeCredentialsAck.cpp
  | updateAck _ _ => participantUpdateAckLayout

def value : (x : ClientMessage) → Value x.layout
  | helloAck s => s.value
  | credentialsAck s => s.value
  | updateAck s _ => s.value

/-- The header has the size of the struct, no other bytes are copied, and the server's cast has the
same value in every field. -/
structure Faithful (x : ClientMessage) : Prop where
  buffersize : x.message.payloadSize.toNat = x.layout.size
  copied : x.message.payload.take x.message.payloadSize.toNat <+: x.value.write
  fields : x.layout.read x.message.payload = some x.value.toRecord

end ClientMessage

/-! ## These are the client's messages -/

theorem ChatClient.onMessage_sends {c : ChatClient} {t : UInt64} {m x : XRMessage}
    (h : (c.onMessage t m).2 = some x) : ∃ k : ClientMessage, x = k.message := by
  unfold onMessage at h
  split at h
  · exact ⟨.helloAck _, (Option.some.inj h).symm⟩
  · exact ⟨.credentialsAck _, (Option.some.inj h).symm⟩
  · cases h
  · cases h

theorem ChatClient.onTimer_sends (c : ChatClient) (t : UInt64) (stack : Buffer 12) :
    ∃ k : ClientMessage, c.onTimer t stack = k.message :=
  ⟨.updateAck _ stack, rfl⟩

/-- The credentials as the server reads them: the certificate is zeros from where it was cut. -/
def HandshakeCredentialsAck.cut (s : HandshakeCredentialsAck) : HandshakeCredentialsAck :=
  { s with participantCertificateBuffer :=
      ⟨s.participantCertificateBuffer.toList.take 18422 ++ List.replicate 2058 0, by
        rw [List.length_append, List.length_take, List.length_replicate, List.Vector.toList_length]
        omega⟩ }

theorem HandshakeCredentialsAck.toBytes_cut (s : HandshakeCredentialsAck) :
    s.cut.toBytes = s.toBytes.take 20484 ++ List.replicate 2058 0 := by
  have htake : ∀ {a b : Bytes} {n k : ℕ}, a.length = k → (a ++ b).take (k + n) = a ++ b.take n := by
    rintro a b n k rfl
    exact List.take_length_add_append n
  have hlen : (20484 : ℕ) = 8 + (2 + (1024 + (2 + (1024 + (2 + 18422))))) := rfl
  unfold toBytes cut
  rw [hlen, htake (length_encode _ _), htake (length_encode _ _), htake (by simp),
    htake (length_encode _ _), htake (by simp), htake (length_encode _ _)]
  simp only [List.append_assoc, List.Vector.toList_mk]

namespace ClientMessage

/-- Nothing of the struct is lost: the end of a certificate that is cut is zero. -/
def Kept : ClientMessage → Prop
  | credentialsAck s => ∀ b ∈ s.participantCertificateBuffer.toList.drop 18422, b = 0
  | _ => True

theorem value_cut_iff (s : HandshakeCredentialsAck) :
    s.cut.value.toRecord = s.value.toRecord ↔ (credentialsAck s).Kept := by
  have hbuffer : s.cut.value.toRecord = s.value.toRecord ↔
      s.participantCertificateBuffer.toList.take 18422 ++ List.replicate 2058 0
        = s.participantCertificateBuffer.toList := by
    simp only [HandshakeCredentialsAck.value, HandshakeCredentialsAck.cut, Record.mk.injEq,
      List.cons.injEq, Prod.mk.injEq, true_and, and_true, List.Vector.toList_mk]
  have hdrop : s.participantCertificateBuffer.toList
      = s.participantCertificateBuffer.toList.take 18422
        ++ s.participantCertificateBuffer.toList.drop 18422 := (List.take_append_drop _ _).symm
  rw [hbuffer]
  constructor
  · intro h b hb
    rw [← h, List.drop_left' (by rw [List.length_take, List.Vector.toList_length]; omega)] at hb
    exact List.eq_of_mem_replicate hb
  · intro h
    refine Eq.trans (congrArg _ (List.eq_replicate_iff.2 ⟨?_, h⟩).symm) hdrop.symm
    rw [List.length_drop, List.Vector.toList_length]

/-- The cast finds every field as it was exactly when nothing is lost. -/
theorem fields_iff (x : ClientMessage) :
    x.layout.read x.message.payload = some x.value.toRecord ↔ x.Kept := by
  cases x with
  | helloAck s =>
    refine iff_of_true ?_ trivial
    simp only [layout, message, value, XRMessage.payload_ofPayload, ← s.write_value]
    exact read_write s.value _
  | credentialsAck s =>
    have hpay : (credentialsAck s).message.payload
        = s.cut.value.write ++ List.replicate 42986 0 := by
      simp only [message, XRMessage.payload_ofPayload, List.length_take, s.length_toBytes]
      rw [s.cut.write_value, s.toBytes_cut, List.append_assoc, List.replicate_append_replicate]
      rfl
    show SharedMessage.handshakeCredentialsAck.cpp.read _ = some s.value.toRecord ↔ _
    rw [hpay, read_write, Option.some.injEq, value_cut_iff]
  | updateAck s stack =>
    refine iff_of_true ?_ trivial
    simp only [layout, message, value, XRMessage.payload_ofPayload, ← s.write_value,
      List.append_assoc]
    exact read_write s.value _

theorem size_message (x : ClientMessage) : x.message.payloadSize.toNat = match x with
    | helloAck _ => 20500
    | credentialsAck _ => 20484
    | updateAck _ _ => 20512 := by
  cases x <;> simp only [message, XRMessage.toNat_payloadSize_ofPayload] <;> simp

theorem size_layout (x : ClientMessage) : x.layout.size = match x with
    | helloAck _ => 20500
    | credentialsAck _ => 22542
    | updateAck _ _ => 20500 := by
  cases x <;> simp [layout, SharedMessage.cpp, participantUpdateAckLayout, Layout.size]

end ClientMessage

/-- For every message and every value of its struct: the encoding is faithful exactly when the
struct is `ST_HANDSHAKE_HELLO_ACK`. -/
theorem client_message_faithful_iff (x : ClientMessage) :
    x.Faithful ↔ ∃ s, x = .helloAck s := by
  constructor
  · intro h
    have hsize := h.buffersize
    rw [x.size_message, x.size_layout] at hsize
    cases x with
    | helloAck s => exact ⟨s, rfl⟩
    | credentialsAck s => simp at hsize
    | updateAck s stack => simp at hsize
  · rintro ⟨s, rfl⟩
    refine ⟨?_, ?_, (ClientMessage.fields_iff _).2 trivial⟩
    · rw [ClientMessage.size_message, ClientMessage.size_layout]
    · have hlen : s.toBytes.length = 20500 := s.length_toBytes
      rw [ClientMessage.size_message]
      simp only [ClientMessage.message, ClientMessage.value, XRMessage.payload_ofPayload]
      rw [List.take_left' hlen, ← s.write_value]
      exact List.prefix_rfl

/-- A certificate that fills its field, all ones. -/
def fullCredentials : HandshakeCredentialsAck where
  participantId := 0
  loginBuffersize := 5
  loginBuffer := .ofText 1024 "login"
  passwordBuffersize := 8
  passwordBuffer := .ofText 1024 "password"
  participantCertificateBuffersize := 20480
  participantCertificateBuffer := .replicate 20480 1

/-- Its frame has another size than the struct, and the server reads the end of the certificate as
zeros. -/
theorem client_message_cut : ¬ (ClientMessage.credentialsAck fullCredentials).Faithful
    ∧ (ClientMessage.credentialsAck fullCredentials).message.payloadSize = 20484
    ∧ SharedMessage.handshakeCredentialsAck.cpp.size = 22542
    ∧ SharedMessage.handshakeCredentialsAck.cpp.read
        (ClientMessage.credentialsAck fullCredentials).message.payload
      ≠ some fullCredentials.value.toRecord := by
  have hread : SharedMessage.handshakeCredentialsAck.cpp.read
      (ClientMessage.credentialsAck fullCredentials).message.payload
        ≠ some fullCredentials.value.toRecord := by
    intro h
    have hzero := (ClientMessage.fields_iff (.credentialsAck fullCredentials)).1 h 1 (by
      decide +kernel)
    cases hzero
  exact ⟨fun h => hread h.fields, by decide +kernel, by decide +kernel, hread⟩

end XRNetwork
