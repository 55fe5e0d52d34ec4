import XRNetwork.XRMessage

/-!
# Swapping the bytes of a header

Reversed at its own width a number comes back when it is reversed again. Reversed at a greater one
its bytes end up at the top (`swapEndian_of_lt`), and what is then cut off to the field's width are
zeros: `swap_xr_message_header` clears the fields it is to swap.
-/

namespace XRNetwork

open LittleEndian

theorem swapEndian_lt (w n : ℕ) : swapEndian w n < 256 ^ w := by
  have h := decode_lt (encode w n).reverse
  rwa [List.length_reverse, length_encode] at h

theorem swapEndian_swapEndian {w n : ℕ} (h : n < 256 ^ w) : swapEndian w (swapEndian w n) = n := by
  have hback := encode_decode (encode w n).reverse
  rw [List.length_reverse, length_encode] at hback
  rw [swapEndian, swapEndian, hback, List.reverse_reverse, decode_encode_of_lt h]

@[simp] theorem swapEndian_zero (w : ℕ) : swapEndian w 0 = 0 := by
  rw [swapEndian, encode_zero, List.reverse_replicate, ← encode_zero,
    decode_encode_of_lt (by positivity)]

theorem swapEndian_eq_zero {w n : ℕ} (h : n < 256 ^ w) : swapEndian w n = 0 ↔ n = 0 := by
  refine ⟨fun h0 => ?_, fun h0 => by rw [h0, swapEndian_zero]⟩
  rw [← swapEndian_swapEndian h, h0, swapEndian_zero]

/-- At a greater width the reversal is shifted by what the number leaves free. -/
theorem swapEndian_of_lt {v n : ℕ} (k : ℕ) (h : n < 256 ^ v) :
    swapEndian (v + k) n = 256 ^ k * swapEndian v n := by
  rw [swapEndian, encode_of_lt k h, List.reverse_append, List.reverse_replicate,
    decode_zeros_append, swapEndian]

/-- The header with either field reversed at its own width. -/
def XRMessageHeader.byteReversed (h : XRMessageHeader) : XRMessageHeader :=
  { h with
    head := UInt16.ofNat (swapEndian 2 h.head.toNat)
    buffersize := UInt32.ofNat (swapEndian 4 h.buffersize.toNat) }

namespace XRMessageHeader

variable {h h' : XRMessageHeader}

@[simp] theorem byteReversed_byteReversed : h.byteReversed.byteReversed = h := by
  have hh := h.head.toNat_lt
  have hb := h.buffersize.toNat_lt
  have hhead : swapEndian 2 h.head.toNat < 2 ^ 16 := swapEndian_lt 2 _
  have hsize : swapEndian 4 h.buffersize.toNat < 2 ^ 32 := swapEndian_lt 4 _
  unfold byteReversed
  simp only [UInt16.toNat_ofNat', UInt32.toNat_ofNat', Nat.mod_eq_of_lt hhead,
    Nat.mod_eq_of_lt hsize, swapEndian_swapEndian (w := 2) hh, swapEndian_swapEndian (w := 4) hb,
    UInt16.ofNat_toNat, UInt32.ofNat_toNat]

/-- The truncation to the field's width leaves zero. -/
theorem swapXRMessageHeader_eq (h : XRMessageHeader) :
    swapXRMessageHeader h = { h with head := 0, buffersize := 0 } := by
  have hh : swapEndian 8 h.head.toNat = 256 ^ 6 * swapEndian 2 h.head.toNat :=
    swapEndian_of_lt 6 h.head.toNat_lt
  have hb : swapEndian 8 h.buffersize.toNat = 256 ^ 4 * swapEndian 4 h.buffersize.toNat :=
    swapEndian_of_lt 4 h.buffersize.toNat_lt
  have hhead : UInt16.ofNat (256 ^ 6 * swapEndian 2 h.head.toNat) = 0 := by
    refine UInt16.toNat_inj.1 ?_
    rw [UInt16.toNat_ofNat', UInt16.toNat_zero]
    omega
  have hsize : UInt32.ofNat (256 ^ 4 * swapEndian 4 h.buffersize.toNat) = 0 := by
    refine UInt32.toNat_inj.1 ?_
    rw [UInt32.toNat_ofNat', UInt32.toNat_zero]
    omega
  rw [swapXRMessageHeader, hh, hb, hhead, hsize]

/-- Its two swapped fields are zero. -/
def Blank (h : XRMessageHeader) : Prop := h.head = 0 ∧ h.buffersize = 0

theorem swapXRMessageHeader_eq_self : swapXRMessageHeader h = h ↔ h.Blank := by
  rw [swapXRMessageHeader_eq]
  constructor
  · intro heq
    rw [← heq]
    exact ⟨rfl, rfl⟩
  · rintro ⟨hh, hb⟩
    rw [← hh, ← hb]

theorem byteReversed_blank : h.byteReversed.Blank ↔ h.Blank := by
  have hhead : h.byteReversed.head = 0 ↔ h.head = 0 := by
    have hlt : swapEndian 2 h.head.toNat < 2 ^ 16 := swapEndian_lt 2 _
    rw [← UInt16.toNat_inj, ← UInt16.toNat_inj, byteReversed, UInt16.toNat_ofNat',
      Nat.mod_eq_of_lt hlt]
    exact swapEndian_eq_zero h.head.toNat_lt
  have hsize : h.byteReversed.buffersize = 0 ↔ h.buffersize = 0 := by
    have hlt : swapEndian 4 h.buffersize.toNat < 2 ^ 32 := swapEndian_lt 4 _
    rw [← UInt32.toNat_inj, ← UInt32.toNat_inj, byteReversed, UInt32.toNat_ofNat',
      Nat.mod_eq_of_lt hlt]
    exact swapEndian_eq_zero h.buffersize.toNat_lt
  rw [Blank, Blank, hhead, hsize]

end XRMessageHeader

open XRMessageHeader

/-- A header is swapped to its byte reversal if and only if the two fields are zero, swapped twice
to itself if and only if they are, and two different ones to different ones if and only if they
differ in the flag that is not swapped. -/
theorem swap_iff (h h' : XRMessageHeader) :
    (swapXRMessageHeader h = h.byteReversed ↔ h.head = 0 ∧ h.buffersize = 0)
      ∧ (swapXRMessageHeader (swapXRMessageHeader h) = h ↔ h.head = 0 ∧ h.buffersize = 0)
      ∧ ((h ≠ h' → swapXRMessageHeader h ≠ swapXRMessageHeader h') ↔
          (h ≠ h' → h.payloadIsBigEndian ≠ h'.payloadIsBigEndian)) := by
  refine ⟨⟨fun heq => ?_, fun hb => ?_⟩, ?_, ?_⟩
  · refine byteReversed_blank.1 ?_
    rw [← heq, swapXRMessageHeader_eq]
    exact ⟨rfl, rfl⟩
  · have hrev : h.byteReversed.Blank := byteReversed_blank.2 hb
    rw [swapXRMessageHeader_eq, ← hrev.1, ← hrev.2]
    rfl
  · rw [← Blank, ← swapXRMessageHeader_eq_self, swapXRMessageHeader_eq, swapXRMessageHeader_eq]
  · have hcollide : swapXRMessageHeader h = swapXRMessageHeader h' ↔
        h.payloadIsBigEndian = h'.payloadIsBigEndian := by
      simp [swapXRMessageHeader_eq]
    rw [Ne, Ne, Ne, hcollide]

/-- The header of a `HANDSHAKE_HELLO` becomes that of an empty message without a head. -/
theorem swap_hello : swapXRMessageHeader ⟨1, 1052, 0xFFFF⟩ = ⟨0, 0, 0xFFFF⟩
    ∧ swapXRMessageHeader ⟨1, 1052, 0xFFFF⟩ ≠ byteReversed ⟨1, 1052, 0xFFFF⟩
    ∧ swapXRMessageHeader (swapXRMessageHeader ⟨1, 1052, 0xFFFF⟩) ≠ ⟨1, 1052, 0xFFFF⟩
    ∧ swapXRMessageHeader ⟨0, 0, 0xFFFF⟩ = swapXRMessageHeader ⟨1, 1052, 0xFFFF⟩ := by
  decide

end XRNetwork
