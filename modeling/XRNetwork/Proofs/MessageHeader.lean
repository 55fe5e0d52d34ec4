import XRNetwork.Message

/-!
# What a decimal header keeps

`"%4d"` prints at least four characters, into a buffer of three, and two of them get into the
message: blanks for a length below 100, otherwise the first digits. Read back they are at most a
hundredth of the length (`atoi_sprintf4d`). The bound on `length()` is the setters' work: the
constructor does not meet it, and every call that sets the length does.
-/

namespace XRNetwork

open Decimal

/-- Only digits and blanks. -/
theorem cString_of_text {s : Bytes} (h : ∀ c ∈ s, c = 32 ∨ isDigit c) : cString s = s := by
  refine List.takeWhile_eq_self_iff.2 fun c hc => ?_
  rcases h c hc with rfl | hd
  · rfl
  · rw [decide_eq_true_iff]
    rintro rfl
    cases hd

theorem atoi_of_isDigit {c : UInt8} {s : Bytes} (h : isDigit c) (hs : ∀ c ∈ s, isDigit c) :
    atoi (c :: s) = value (c :: s) := by
  have hspace : isSpace c = false := by
    simp only [isDigit, Bool.and_eq_true, decide_eq_true_eq, UInt8.le_iff_toNat_le] at h
    simp only [isSpace, Bool.or_eq_false_iff, Bool.and_eq_false_iff, decide_eq_false_iff_not,
      UInt8.le_iff_toNat_le, ← UInt8.toNat_inj]
    simp at h ⊢
    omega
  have hall : (c :: s).takeWhile isDigit = c :: s :=
    List.takeWhile_eq_self_iff.2 fun x hx => by
      rcases List.mem_cons.1 hx with rfl | hx
      · exact h
      · exact hs x hx
  have hdrop : (c :: s).dropWhile isSpace = c :: s := by
    rw [List.dropWhile_cons_of_neg (by simp [hspace])]
  unfold atoi
  rw [hdrop]
  split
  · rename_i heq
    obtain ⟨rfl, -⟩ := List.cons.inj heq
    cases h
  · rename_i heq
    obtain ⟨rfl, -⟩ := List.cons.inj heq
    cases h
  · rw [hall]

theorem dropWhile_blanks (k : ℕ) (s : Bytes) :
    (List.replicate k 32 ++ s).dropWhile isSpace = s.dropWhile isSpace := by
  refine List.dropWhile_append_of_pos fun c hc => ?_
  rw [List.eq_of_mem_replicate hc]
  rfl

theorem atoi_blanks (k : ℕ) (s : Bytes) : atoi (List.replicate k 32 ++ s) = atoi s := by
  unfold atoi
  rw [dropWhile_blanks]

theorem atoi_digits (n : ℕ) : atoi (digits n) = n := by
  rcases hd : digits n with _ | ⟨c, s⟩
  · exact absurd hd (digits_ne_nil n)
  · have hall : ∀ x ∈ c :: s, isDigit x := fun x hx => isDigit_of_mem (hd ▸ hx)
    rw [atoi_of_isDigit (hall c List.mem_cons_self) fun x hx => hall x (List.mem_cons_of_mem _ hx),
      ← hd, value_digits]

theorem sprintf4d_natCast (n : ℕ) :
    sprintf4d n = List.replicate (4 - (digits n).length) 32 ++ digits n := by
  simp [sprintf4d]

theorem length_sprintf4d (n : ℤ) : 4 ≤ (sprintf4d n).length := by
  unfold sprintf4d
  rw [List.length_append, List.length_replicate]
  omega

/-- What two characters of the text read as. -/
theorem atoi_sprintf4d (n : ℕ) :
    ∃ v : ℕ, atoi (cString ((sprintf4d n).take 2)) = v ∧ v ≤ n / 100 := by
  have htext : cString ((sprintf4d n).take 2) = (sprintf4d n).take 2 := by
    refine cString_of_text fun c hc => ?_
    have hc := List.mem_of_mem_take hc
    rw [sprintf4d_natCast, List.mem_append] at hc
    exact hc.imp List.eq_of_mem_replicate isDigit_of_mem
  rw [htext, sprintf4d_natCast, List.take_append, List.take_replicate, List.length_replicate,
    atoi_blanks]
  generalize hk : 2 - (4 - (digits n).length) = k
  rcases Nat.eq_zero_or_pos k with rfl | hpos
  · exact ⟨0, rfl, Nat.zero_le _⟩
  · refine ⟨n / 10 ^ ((digits n).length - k), ?_, ?_⟩
    · rw [take_digits hpos n (by omega), atoi_digits]
    · refine Nat.div_le_div_left ?_ (by norm_num)
      calc 100 = 10 ^ 2 := by norm_num
        _ ≤ 10 ^ ((digits n).length - k) := Nat.pow_le_pow_right (by norm_num) (by omega)

namespace NrMessage

variable (m : NrMessage)

theorem headerText_eq (h : m.bodyLength.toNat < 2 ^ 31) :
    m.headerText = sprintf4d m.bodyLength.toNat := by
  have hnat : m.bodyLength.toUInt32.toNat = m.bodyLength.toNat := by
    rw [UInt64.toNat_toUInt32]
    omega
  have hint : m.bodyLength.toUInt32.toInt32.toInt = m.bodyLength.toUInt32.toNat :=
    BitVec.toInt_eq_toNat_of_lt (x := m.bodyLength.toUInt32.toBitVec)
      (by rw [UInt32.toNat_toBitVec]; omega)
  rw [headerText, hint, hnat]

theorem encodeHeader_fault : m.encodeHeader = .fault .outOfBounds m.encodeHeader.state := by
  have hlen := length_sprintf4d m.bodyLength.toUInt32.toInt32.toInt
  have hbig : ¬ m.headerText.length + 1 ≤ 3 := by
    unfold headerText
    omega
  unfold encodeHeader
  simp only []
  rw [if_neg hbig]
  rfl

theorem take_data_encodeHeader : m.encodeHeader.state.data.toList.take 2 = m.headerText.take 2 := by
  have hlen : 4 ≤ m.headerText.length := length_sprintf4d _
  have hheader : ((m.headerText ++ List.replicate 3 0).take 3).take 2 = m.headerText.take 2 := by
    rw [List.take_take, List.take_append_of_le_length (by omega)]
    rfl
  have hdata : m.encodeHeader.state.data.toList
      = ((m.headerText ++ List.replicate 3 0).take 3).take 2 ++ m.data.toList.drop 2 := by
    unfold encodeHeader
    simp only []
    split_ifs <;> rfl
  rw [hdata, hheader, List.take_left']
  rw [List.length_take]
  omega

/-- What a decoded header leaves. -/
theorem decodeHeader_of_atoi {v : ℕ} (h : atoi (cString (m.data.toList.take 2)) = v)
    (hv : v ≤ 65534) : m.decodeHeader = ({ m with bodyLength := UInt64.ofNat v }, true) := by
  have hof : UInt64.ofInt v = UInt64.ofNat v := by
    unfold UInt64.ofInt
    congr 1
    omega
  have hle : ¬ maxBodyLength < UInt64.ofNat v := by
    rw [UInt64.lt_iff_toNat_lt, UInt64.toNat_ofNat', maxBodyLength]
    simp
    omega
  unfold decodeHeader
  simp only [h, hof]
  rw [if_neg hle]

/-- `decode_header` takes back what `encode_header` has written. -/
def RoundTrips (m : NrMessage) : Prop :=
  m.encodeHeader.state.decodeHeader.2 = true
    ∧ m.encodeHeader.state.decodeHeader.1.bodyLength = m.bodyLength

theorem roundTrips_iff (h : m.bodyLength ≤ maxBodyLength) : RoundTrips m ↔ m.bodyLength = 0 := by
  have hle : m.bodyLength.toNat ≤ 65534 := UInt64.le_iff_toNat_le.1 h
  obtain ⟨v, hv, hsmall⟩ := atoi_sprintf4d m.bodyLength.toNat
  rw [← headerText_eq m (by omega), ← take_data_encodeHeader] at hv
  have hdec := decodeHeader_of_atoi m.encodeHeader.state hv (by omega)
  have hnat : (UInt64.ofNat v).toNat = v := by
    rw [UInt64.toNat_ofNat']
    omega
  rw [RoundTrips, hdec]
  simp only [true_and, ← UInt64.toNat_inj, hnat, UInt64.toNat_zero]
  -- a hundredth of the length is the length for zero alone
  omega

end NrMessage

/-- The call sets the length of the body. -/
def MessageCall.setsLength : MessageCall → Bool
  | bodyLength _ | decodeHeader => true
  | encodeHeader | write _ => false

namespace NrMessage

theorem bodyLength_encodeHeader (m : NrMessage) :
    m.encodeHeader.state.bodyLength = m.bodyLength := by
  rw [encodeHeader]
  split_ifs <;> rfl

theorem bodyLength_decodeHeader (m : NrMessage) :
    m.decodeHeader.1.bodyLength ≤ maxBodyLength := by
  unfold decodeHeader
  simp only []
  split_ifs with h
  · exact UInt64.zero_le
  · exact UInt64.not_lt.1 h

theorem bodyLength_setBodyLength (m : NrMessage) (n : UInt64) :
    (m.setBodyLength n).bodyLength ≤ maxBodyLength := by
  unfold setBodyLength
  split_ifs with h
  · exact UInt64.le_refl _
  · exact UInt64.not_lt.1 h

/-- The length is in bounds from the first call that sets it, and until then the constructor's. -/
theorem bodyLength_after (calls : List MessageCall) :
    if calls.any MessageCall.setsLength then (after calls).bodyLength ≤ maxBodyLength
    else (after calls).bodyLength = 65536 := by
  induction calls using List.reverseRecOn with
  | nil => rfl
  | append_singleton calls c ih =>
    rw [List.any_append, List.any_cons, List.any_nil, Bool.or_false, after, List.foldl_append,
      List.foldl_cons, List.foldl_nil, ← after]
    cases c with
    | bodyLength n => simpa [MessageCall.setsLength, call] using bodyLength_setBodyLength _ n
    | decodeHeader => simpa [MessageCall.setsLength, call] using bodyLength_decodeHeader _
    | encodeHeader =>
      simpa [MessageCall.setsLength, call, bodyLength_encodeHeader] using ih
    | write data => simpa [MessageCall.setsLength, call] using ih

theorem length_after (calls : List MessageCall) :
    (after calls).length.toNat ≤ 65536 ↔ calls.any MessageCall.setsLength = true := by
  have h := bodyLength_after calls
  have hlen : (after calls).length.toNat = (2 + (after calls).bodyLength.toNat) % 2 ^ 64 :=
    UInt64.toNat_add _ _
  rw [hlen]
  split_ifs at h with hset
  · have hle : (after calls).bodyLength.toNat ≤ 65534 := UInt64.le_iff_toNat_le.1 h
    simp only [hset, iff_true]
    omega
  · simp [h, hset]

end NrMessage

open NrMessage

/-- For the message that any row of calls leaves: its length is in bounds if and only if one of the
calls set the length of the body; `encode_header` never stays in its buffer; and what it writes is
decoded to the length of a body that fits if and only if that is zero. -/
theorem header_codec_iff (calls : List MessageCall) :
    ((after calls).length.toNat ≤ 65536 ↔ ∃ c ∈ calls, c.setsLength = true)
      ∧ (∀ m, (after calls).encodeHeader ≠ .ok m)
      ∧ (((after calls).bodyLength ≤ maxBodyLength → RoundTrips (after calls)) ↔
          (after calls).bodyLength = 0 ∨ maxBodyLength < (after calls).bodyLength) := by
  refine ⟨?_, fun m => ?_, ?_⟩
  · rw [length_after, List.any_eq_true]
  · rw [encodeHeader_fault]
    exact nofun
  · by_cases hlt : maxBodyLength < (after calls).bodyLength
    · simp only [hlt, or_true, iff_true]
      exact fun h => absurd hlt (UInt64.not_lt.2 h)
    · have hle := UInt64.not_lt.1 hlt
      simp only [hlt, or_false]
      rw [← roundTrips_iff _ hle]
      exact ⟨fun h => h hle, fun h _ => h⟩

/-- A fresh message is two bytes too long, and a body of 1234 bytes is encoded past the buffer and
decoded as one of 12. -/
theorem header_not_kept : (after []).length = 65538
    ∧ (∀ m, (after [.bodyLength 1234]).encodeHeader ≠ .ok m)
    ∧ (after [.bodyLength 1234]).bodyLength = 1234
    ∧ (after [.bodyLength 1234]).encodeHeader.state.decodeHeader.1.bodyLength = 12
    ∧ ¬ RoundTrips (after [.bodyLength 1234]) := by
  have hlen : (after [.bodyLength 1234]).bodyLength = 1234 := by decide
  have htext : atoi (cString ((after [.bodyLength 1234]).encodeHeader.state.data.toList.take 2))
      = (12 : ℕ) := by
    rw [take_data_encodeHeader]
    decide
  refine ⟨by decide, fun m => ?_, hlen, ?_, ?_⟩
  · rw [encodeHeader_fault]
    exact nofun
  · rw [decodeHeader_of_atoi _ htext (by norm_num)]
    rfl
  · rw [roundTrips_iff _ (by rw [hlen]; decide), hlen]
    decide

end XRNetwork
