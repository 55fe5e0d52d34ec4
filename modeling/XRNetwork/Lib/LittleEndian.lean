import Mathlib

/-!
# Little-endian fields of a byte string

`encode w n` is `n` in `w` bytes, least significant first, and `decode` reads such bytes back.
A packed record is a concatenation of encodings, so a field is read by dropping what stands
before it: `field off w`. What a field reads is fixed by the bytes it covers, whatever follows.
-/

namespace LittleEndian

/-- `n` in `w` bytes, least significant first; what does not fit is cut off. -/
def encode : ℕ → ℕ → List UInt8
  | 0, _ => []
  | w + 1, n => UInt8.ofNat n :: encode w (n / 256)

def decode : List UInt8 → ℕ
  | [] => 0
  | b :: bs => b.toNat + 256 * decode bs

/-- The `w`-byte number at offset `off`. -/
def field (off w : ℕ) (bs : List UInt8) : ℕ := decode ((bs.drop off).take w)

@[simp] theorem length_encode : ∀ w n : ℕ, (encode w n).length = w
  | 0, _ => rfl
  | w + 1, n => by simp [encode, length_encode w]

theorem decode_lt : ∀ bs : List UInt8, decode bs < 256 ^ bs.length
  | [] => by simp [decode]
  | b :: bs => by
    have ih := decode_lt bs
    have hb := b.toNat_lt
    simp only [decode, List.length_cons, pow_succ]
    omega

theorem decode_encode : ∀ w n : ℕ, decode (encode w n) = n % 256 ^ w
  | 0, n => by simp [encode, decode, Nat.mod_one]
  | w + 1, n => by
    have hb : (UInt8.ofNat n).toNat = n % 256 := by simp [UInt8.toNat_ofNat']
    rw [encode, decode, decode_encode w, hb, pow_succ', Nat.mod_mul]

theorem decode_encode_of_lt {w n : ℕ} (h : n < 256 ^ w) : decode (encode w n) = n := by
  rw [decode_encode, Nat.mod_eq_of_lt h]

theorem encode_decode : ∀ bs : List UInt8, encode bs.length (decode bs) = bs
  | [] => rfl
  | b :: bs => by
    have hb := b.toNat_lt
    have hdiv : (b.toNat + 256 * decode bs) / 256 = decode bs := by omega
    have hbyte : UInt8.ofNat (b.toNat + 256 * decode bs) = b := by
      refine UInt8.toNat_inj.1 ?_
      rw [UInt8.toNat_ofNat']
      omega
    rw [List.length_cons, encode, decode, hdiv, encode_decode bs, hbyte]

theorem encode_add : ∀ v w n : ℕ, encode (v + w) n = encode v n ++ encode w (n / 256 ^ v)
  | 0, w, n => by simp [encode]
  | v + 1, w, n => by
    rw [Nat.add_right_comm, encode, encode, encode_add v w (n / 256), Nat.div_div_eq_div_mul,
      pow_succ', List.cons_append]

theorem encode_zero : ∀ w : ℕ, encode w 0 = List.replicate w 0
  | 0 => rfl
  | w + 1 => by rw [encode, Nat.zero_div, encode_zero w, List.replicate_succ]; rfl

theorem decode_append : ∀ bs cs : List UInt8,
    decode (bs ++ cs) = decode bs + 256 ^ bs.length * decode cs
  | [], cs => by simp [decode]
  | b :: bs, cs => by
    rw [List.cons_append, decode, decode, decode_append bs cs, List.length_cons]
    ring

theorem decode_eq_zero : ∀ {bs : List UInt8}, decode bs = 0 ↔ ∀ b ∈ bs, b = 0
  | [] => by simp [decode]
  | b :: bs => by
    have hb : b.toNat = 0 ↔ b = 0 := UInt8.toNat_inj (b := 0)
    have ih : decode bs = 0 ↔ ∀ b ∈ bs, b = 0 := decode_eq_zero
    rw [decode, List.forall_mem_cons, ← hb, ← ih]
    omega

/-- What is less than `256 ^ v` fills `v` bytes of a wider encoding. -/
theorem encode_of_lt {v n : ℕ} (k : ℕ) (h : n < 256 ^ v) :
    encode (v + k) n = encode v n ++ List.replicate k 0 := by
  rw [encode_add, Nat.div_eq_of_lt h, encode_zero]

theorem decode_zeros_append (k : ℕ) (bs : List UInt8) :
    decode (List.replicate k 0 ++ bs) = 256 ^ k * decode bs := by
  have hzero : decode (List.replicate k 0) = 0 :=
    decode_eq_zero.2 fun _ hb => List.eq_of_mem_replicate hb
  rw [decode_append, hzero, List.length_replicate, Nat.zero_add]

theorem field_lt (off w : ℕ) (bs : List UInt8) : field off w bs < 256 ^ w := by
  refine (decode_lt _).trans_le (Nat.pow_le_pow_right (by norm_num) ?_)
  exact List.length_take_le _ _

/-- A field written after `off` bytes is read back at `off`, whatever follows it. -/
theorem field_append {pre : List UInt8} {off : ℕ} (hpre : pre.length = off) (w n : ℕ)
    (post : List UInt8) : field off w (pre ++ (encode w n ++ post)) = n % 256 ^ w := by
  rw [field, List.drop_left' hpre, List.take_left' (length_encode w n), decode_encode]

theorem field_encode_append (w n : ℕ) (post : List UInt8) :
    field 0 w (encode w n ++ post) = n % 256 ^ w := by
  rw [field, List.drop_zero, List.take_left' (length_encode w n), decode_encode]

theorem field_append_left {pre : List UInt8} {off w : ℕ} (h : off + w ≤ pre.length)
    (post : List UInt8) : field off w (pre ++ post) = field off w pre := by
  have hlen : w ≤ (pre.drop off).length := by rw [List.length_drop]; omega
  rw [field, field, List.drop_append_of_le_length (by omega),
    List.take_append_of_le_length hlen]

end LittleEndian
