import Mathlib

/-!
# Decimal text

`digits n` is `n` in ASCII digits, most significant first, and `value` reads such bytes back. The
first digits of a number are the digits of a quotient of it (`take_digits`), so text that is cut off
reads as a number that is too small.
-/

namespace Decimal

def digits (n : ℕ) : List UInt8 := (Nat.toDigits 10 n).map fun c => UInt8.ofNat c.toNat

def isDigit (c : UInt8) : Bool := 48 ≤ c && c ≤ 57

def value (s : List UInt8) : ℕ := s.foldl (fun n c => 10 * n + (c.toNat - 48)) 0

theorem byte_digitChar {d : ℕ} (h : d < 10) :
    UInt8.ofNat (Nat.digitChar d).toNat = UInt8.ofNat (48 + d) := by
  interval_cases d <;> rfl

/-- The last digit comes off the end. -/
theorem digits_eq (n : ℕ) :
    digits n = (if n < 10 then [] else digits (n / 10)) ++ [UInt8.ofNat (48 + n % 10)] := by
  unfold digits
  rw [Nat.toDigits_eq_if (by norm_num)]
  split_ifs with h
  · rw [List.map_singleton, byte_digitChar h, Nat.mod_eq_of_lt h, List.nil_append]
  · rw [List.map_append, List.map_singleton, byte_digitChar (Nat.mod_lt _ (by norm_num))]

theorem digits_of_le {n : ℕ} (h : 10 ≤ n) :
    digits n = digits (n / 10) ++ [UInt8.ofNat (48 + n % 10)] := by
  rw [digits_eq n, if_neg (by omega)]

theorem toNat_digit (n : ℕ) : (UInt8.ofNat (48 + n % 10)).toNat = 48 + n % 10 := by
  rw [UInt8.toNat_ofNat']
  omega

theorem length_digits_le_iff {n k : ℕ} (hk : 0 < k) : (digits n).length ≤ k ↔ n < 10 ^ k := by
  rw [digits, List.length_map, Nat.length_toDigits_le_iff (by norm_num) hk]

theorem digits_ne_nil (n : ℕ) : digits n ≠ [] := by
  rw [digits_eq]
  simp

theorem isDigit_of_mem {c : UInt8} : ∀ {n : ℕ}, c ∈ digits n → isDigit c := by
  have hdigit : ∀ n : ℕ, isDigit (UInt8.ofNat (48 + n % 10)) := by
    intro n
    have hlt : n % 10 < 10 := Nat.mod_lt _ (by norm_num)
    generalize n % 10 = d at hlt
    interval_cases d <;> rfl
  intro n
  induction n using Nat.strong_induction_on with
  | _ n ih =>
    intro hc
    rw [digits_eq, List.mem_append, List.mem_singleton] at hc
    rcases hc with hc | rfl
    · split_ifs at hc with h
      · cases hc
      · exact ih (n / 10) (by omega) hc
    · exact hdigit n

theorem value_digits (n : ℕ) : value (digits n) = n := by
  induction n using Nat.strong_induction_on with
  | _ n ih =>
    have hlast : ∀ s, value (s ++ [UInt8.ofNat (48 + n % 10)]) = 10 * value s + n % 10 := by
      intro s
      rw [value, List.foldl_append, List.foldl_cons, List.foldl_nil, toNat_digit, ← value]
      omega
    rw [digits_eq, hlast]
    split_ifs with h
    · simp only [value, List.foldl_nil]
      omega
    · rw [ih (n / 10) (by omega)]
      omega

/-- The first digits of a number are those of the number without the others. -/
theorem take_digits {k : ℕ} (hk : 0 < k) (n : ℕ) (hle : k ≤ (digits n).length) :
    (digits n).take k = digits (n / 10 ^ ((digits n).length - k)) := by
  induction n using Nat.strong_induction_on with
  | _ n ih =>
    rcases hle.eq_or_lt with heq | hlt
    · rw [heq, List.take_length, Nat.sub_self, pow_zero, Nat.div_one]
    · have hn : 10 ≤ n := by
        by_contra h
        have hlen := (length_digits_le_iff (n := n) zero_lt_one).2 (by omega)
        omega
      have hlen : (digits n).length = (digits (n / 10)).length + 1 := by
        rw [digits_of_le hn, List.length_append, List.length_singleton]
      have hle' : k ≤ (digits (n / 10)).length := by omega
      have hpow : (digits n).length - k = (digits (n / 10)).length - k + 1 := by omega
      rw [hpow, pow_succ', ← Nat.div_div_eq_div_mul, ← ih (n / 10) (by omega) hle',
        digits_of_le hn, List.take_append_of_le_length hle']

end Decimal
