import XRNetwork.Protocol

/-!
# The frame codec

What `XRMessage(head, buffer, size)` writes, its accessors read back, and a stream of such messages
read 65536 bytes at a time comes out as it was sent: every message is one block long, so the blocks
never lose alignment (`Blocks.read_flatten`), and copying a full buffer changes nothing
(`ofBuffer_data`).
-/

namespace XRNetwork

open LittleEndian

namespace XRMessage

theorem data_injective : Function.Injective data := by
  rintro ⟨d, _⟩ ⟨d', _⟩ rfl
  rfl

theorem ofBuffer_data (m : XRMessage) (h : m.data.length ≤ 65536) :
    XRMessage.ofBuffer m.data h = m := by
  apply data_injective
  simp [ofBuffer, m.size_eq]

variable (head : UInt16) (buffer : Bytes) (h : buffer.length ≤ 65528)

theorem payload_ofPayload : (ofPayload head buffer h).payload =
    buffer ++ List.replicate (65528 - buffer.length) 0 := by
  unfold payload ofPayload
  refine List.drop_left' ?_
  simp [XRMessageHeader.toBytes]

variable {head buffer h} in
/-- A message that is not full ends with zeros. -/
theorem ends_ofPayload (hlt : buffer.length < 65528) {n : ℕ} (hn : n < 65528) :
    0 ∈ (ofPayload head buffer h).payload.drop n := by
  rw [payload_ofPayload, List.drop_append, List.drop_replicate]
  refine List.mem_append_right _ (List.mem_replicate.2 ⟨?_, rfl⟩)
  omega

@[simp] theorem head_ofPayload : (ofPayload head buffer h).head = head := by
  have hlt := head.toNat_lt
  unfold XRMessage.head ofPayload XRMessageHeader.toBytes
  simp only [List.append_assoc]
  rw [field_encode_append, Nat.mod_eq_of_lt (by omega), UInt16.ofNat_toNat]

theorem payloadSize_ofPayload :
    (ofPayload head buffer h).payloadSize = UInt32.ofNat buffer.length := by
  have hf := field_append (length_encode 2 head.toNat) 4 (UInt32.ofNat buffer.length).toNat
    (encode 2 (0xFFFF : UInt16).toNat ++ (buffer ++ List.replicate (65528 - buffer.length) 0))
  have hlt := (UInt32.ofNat buffer.length).toNat_lt
  unfold payloadSize getHeader ofPayload XRMessageHeader.toBytes XRMessageHeader.ofBytes
  simp only [List.append_assoc] at hf ⊢
  rw [hf, Nat.mod_eq_of_lt (by omega), UInt32.ofNat_toNat]

theorem toNat_payloadSize_ofPayload :
    (ofPayload head buffer h).payloadSize.toNat = buffer.length := by
  rw [payloadSize_ofPayload, UInt32.toNat_ofNat']
  omega

end XRMessage

/-! ## The kinds of what the server builds -/

theorem ofCode_code (h : MessageHead) : MessageHead.ofCode h.code = some h := by
  cases h <;> rfl

@[simp] theorem kind_participantNew (x : ParticipantNew) :
    x.toMessage.kind = some .participantNew := by
  rw [XRMessage.kind, ParticipantNew.toMessage, XRMessage.head_ofPayload, ofCode_code]

@[simp] theorem kind_participantLeave (x : ParticipantLeave) :
    x.toMessage.kind = some .participantLeave := by
  rw [XRMessage.kind, ParticipantLeave.toMessage, XRMessage.head_ofPayload, ofCode_code]

@[simp] theorem kind_participantJoin (x : ParticipantJoin) :
    x.toMessage.kind = some .participantJoin := by
  rw [XRMessage.kind, ParticipantJoin.toMessage, XRMessage.head_ofPayload, ofCode_code]

@[simp] theorem kind_handshakeHello (x : HandshakeHello) :
    x.toMessage.kind = some .handshakeHello := by
  rw [XRMessage.kind, HandshakeHello.toMessage, XRMessage.head_ofPayload, ofCode_code]

@[simp] theorem kind_handshakeCredentials (x : HandshakeCredentials) :
    x.toMessage.kind = some .handshakeCredentials := by
  rw [XRMessage.kind, HandshakeCredentials.toMessage, XRMessage.head_ofPayload, ofCode_code]

/-! ## Announcements -/

theorem participantId_ofPayload (head : UInt16) (id : UInt64) (rest : Bytes)
    (h : (encode 8 id.toNat ++ rest).length ≤ 65528) :
    (XRMessage.ofPayload head (encode 8 id.toNat ++ rest) h).participantId = id := by
  have hlt := id.toNat_lt
  rw [XRMessage.participantId, XRMessage.payload_ofPayload, List.append_assoc,
    field_encode_append, Nat.mod_eq_of_lt (by omega), UInt64.ofNat_toNat]

@[simp] theorem ParticipantNew.participantId_toMessage (x : ParticipantNew) :
    x.toMessage.participantId = x.participantId :=
  participantId_ofPayload _ _ _ _

@[simp] theorem ParticipantLeave.participantId_toMessage (x : ParticipantLeave) :
    x.toMessage.participantId = x.participantId := by
  have h := participantId_ofPayload MessageHead.participantLeave.code x.participantId []
    (by simp)
  simp only [List.append_nil] at h
  exact h

@[simp] theorem ParticipantJoin.participantId_toMessage (x : ParticipantJoin) :
    x.toMessage.participantId = x.participantId :=
  participantId_ofPayload _ _ _ _

/-- The message tells its receiver of a participant with this id and this descriptor. -/
structure Announces (m : XRMessage) (id : UInt64) (descriptor : Bytes) : Prop where
  kind : m.kind = some .participantNew
  participantId : m.participantId = id
  descriptor : m.descriptor = some descriptor

theorem ParticipantNew.descriptor_toMessage (x : ParticipantNew)
    (h : x.descriptorBuffersize.toNat ≤ 20480) : x.toMessage.descriptor =
      some (x.descriptorBuffer.toList.take x.descriptorBuffersize.toNat) := by
  have hlt := x.descriptorBuffersize.toNat_lt
  have hpay : x.toMessage.payload = encode 8 x.participantId.toNat
      ++ (encode 4 x.descriptorBuffersize.toNat ++ (x.descriptorBuffer.toList
        ++ List.replicate (65528 - x.toBytes.length) 0)) := by
    rw [ParticipantNew.toMessage, XRMessage.payload_ofPayload, ParticipantNew.toBytes]
    simp only [List.append_assoc]
  have hsize : UInt32.ofNat (field 8 4 x.toMessage.payload) = x.descriptorBuffersize := by
    rw [hpay, field_append (length_encode 8 _), Nat.mod_eq_of_lt (by omega), UInt32.ofNat_toNat]
  rw [XRMessage.descriptor, hsize, XRMessage.copy, if_pos (by omega), hpay]
  have hdrop : (12 : ℕ) = 8 + 4 := rfl
  rw [hdrop, ← List.drop_drop, List.drop_left' (length_encode 8 _),
    List.drop_left' (length_encode 4 _), List.take_append_of_le_length (by simpa using h)]

/-- What `describe` copies: as much of the descriptor as its size has in 32 bits. -/
theorem length_take_size (d : Bytes) :
    (d.take (UInt32.ofNat d.length).toNat).length = d.length % 2 ^ 32 := by
  rw [List.length_take, UInt32.toNat_ofNat', min_eq_left (Nat.mod_le _ _)]

theorem describe_eq_none {newp : ParticipantNew} {id : UInt64} {d : Bytes} :
    newp.describe id d = none ↔ 20480 < d.length % 2 ^ 32 := by
  rw [ParticipantNew.describe, Option.map_eq_none_iff, Buffer.memcpy, ← length_take_size]
  split_ifs with h
  · simp only [false_iff, not_lt]
    exact h
  · simp only [true_iff]
    exact not_le.1 h

theorem describe_fits {newp x : ParticipantNew} {id : UInt64} {d : Bytes}
    (h : newp.describe id d = some x) : d.length % 2 ^ 32 ≤ 20480 := by
  by_contra hlt
  rw [describe_eq_none.2 (not_le.1 hlt)] at h
  cases h

theorem announces_describe {newp x : ParticipantNew} {id : UInt64} {d : Bytes}
    (h : newp.describe id d = some x) : Announces x.toMessage id (d.take (d.length % 2 ^ 32)) := by
  have hlen : ((d.take (UInt32.ofNat d.length).toNat)).length ≤ 20480 := by
    rw [length_take_size]
    exact describe_fits h
  rw [ParticipantNew.describe, Buffer.memcpy] at h
  rw [dif_pos hlen] at h
  obtain rfl := Option.some.inj h
  have hsize : (UInt32.ofNat d.length).toNat = d.length % 2 ^ 32 := UInt32.toNat_ofNat'
  refine ⟨kind_participantNew _, ParticipantNew.participantId_toMessage _, ?_⟩
  rw [ParticipantNew.descriptor_toMessage _ (by rwa [length_take_size, ← hsize] at hlen)]
  simp only [List.Vector.toList_mk, hsize]
  rw [List.take_left' (by rw [← hsize, length_take_size, hsize])]

/-- What a caller encodes: a head and a payload that fits. -/
structure Outgoing where
  head : UInt16
  payload : Bytes
  fits : payload.length ≤ 65528

def Outgoing.encode (o : Outgoing) : XRMessage := .ofPayload o.head o.payload o.fits

/-- The decoded message is the one encoded: head, payload size, payload and padding as sent, and
the same bytes. -/
structure Decodes (m : XRMessage) (o : Outgoing) : Prop where
  head : m.head = o.head
  payloadSize : m.payloadSize.toNat = o.payload.length
  payload : m.payload.take m.payloadSize.toNat = o.payload
  padding : ∀ b ∈ m.payload.drop m.payloadSize.toNat, b = 0
  data : m.data = o.encode.data

theorem decodes_encode (o : Outgoing) : Decodes o.encode o := by
  have hsize := XRMessage.toNat_payloadSize_ofPayload o.head o.payload o.fits
  have hpay := XRMessage.payload_ofPayload o.head o.payload o.fits
  unfold Outgoing.encode
  refine ⟨XRMessage.head_ofPayload _ _ _, hsize, ?_, ?_, rfl⟩
  · rw [hsize, hpay, List.take_left]
  · rw [hsize, hpay, List.drop_left]
    exact fun b hb => List.eq_of_mem_replicate hb

theorem readStream_flatten (ms : List XRMessage) :
    readStream (ms.map XRMessage.data).flatten = ms := by
  have hlen : ∀ b ∈ ms.map XRMessage.data, b.length = 65536 := by
    intro b hb
    obtain ⟨m, -, rfl⟩ := List.mem_map.1 hb
    exact m.size_eq
  unfold readStream
  rw [Blocks.read_flatten (by norm_num) hlen, List.filterMap_map]
  calc ms.filterMap _ = ms.filterMap some := by
        refine List.filterMap_congr fun m _ => ?_
        have hm : m.data.length ≤ 65536 := m.size_eq.le
        rw [Function.comp_apply, dif_pos hm, XRMessage.ofBuffer_data]
    _ = ms := List.filterMap_some

/-- Messages encoded, put on a stream one after the other and read back in blocks are the messages
encoded. -/
theorem stream_round_trip (msgs : List Outgoing) :
    List.Forall₂ Decodes (readStream (msgs.map fun o => o.encode.data).flatten) msgs := by
  have hread : readStream (msgs.map fun o => o.encode.data).flatten = msgs.map Outgoing.encode := by
    rw [← readStream_flatten (msgs.map Outgoing.encode), List.map_map]
    rfl
  rw [hread, List.forall₂_map_left_iff]
  exact List.forall₂_same.2 fun o _ => decodes_encode o

end XRNetwork
