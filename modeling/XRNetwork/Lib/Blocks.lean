import Mathlib

/-!
# A stream read in blocks of one size

`read n` takes whole blocks of `n` off the front of a stream for as long as `n` elements are
there. On a concatenation of blocks of `n` it gives the blocks back, and what stands at a position
of the concatenation is in the block the position falls in.
-/

namespace Blocks

variable {α : Type*}

/-- The whole blocks of `n` at the front of the stream. -/
def read (n : ℕ) (l : List α) : List (List α) :=
  if _h : 0 < n ∧ n ≤ l.length then l.take n :: read n (l.drop n) else []
termination_by l.length
decreasing_by rw [List.length_drop]; omega

theorem read_cons {n : ℕ} (hn : 0 < n) {b : List α} (hb : b.length = n) (l : List α) :
    read n (b ++ l) = b :: read n l := by
  rw [read, dif_pos ⟨hn, by rw [List.length_append]; omega⟩, List.take_left' hb,
    List.drop_left' hb]

theorem read_nil {n : ℕ} (hn : 0 < n) : read n ([] : List α) = [] := by
  rw [read, dif_neg]
  simp only [List.length_nil]
  omega

theorem read_flatten {n : ℕ} (hn : 0 < n) :
    ∀ {bs : List (List α)}, (∀ b ∈ bs, b.length = n) → read n bs.flatten = bs
  | [], _ => read_nil hn
  | b :: bs, h => by
    rw [List.flatten_cons, read_cons hn (h b List.mem_cons_self),
      read_flatten hn fun c hc => h c (List.mem_cons_of_mem _ hc)]

theorem length_flatten {n : ℕ} {bs : List (List α)} (h : ∀ b ∈ bs, b.length = n) :
    bs.flatten.length = n * bs.length := by
  rw [List.length_flatten, List.map_congr_left h, List.map_const', List.sum_replicate,
    smul_eq_mul, mul_comm]

theorem drop_flatten {n : ℕ} :
    ∀ {bs : List (List α)} (k : ℕ), (∀ b ∈ bs, b.length = n) →
      bs.flatten.drop (n * k) = (bs.drop k).flatten
  | [], k, _ => by simp
  | b :: bs, 0, _ => by simp
  | b :: bs, k + 1, h => by
    have hb := h b List.mem_cons_self
    rw [List.flatten_cons, List.drop_succ_cons, ← drop_flatten k
      fun c hc => h c (List.mem_cons_of_mem _ hc), Nat.mul_succ, Nat.add_comm, ← List.drop_drop,
      List.drop_left' hb]

end Blocks
