import Mathlib

/-!
# Lists that follow a script

A script says what each entry of a list has to be, by its place. What follows it may be cut off
anywhere, and goes on following it when the entries added suit their places.
-/

variable {α : Type*}

def Script (P : ℕ → α → Prop) (l : List α) : Prop := ∀ k x, l[k]? = some x → P k x

namespace Script

variable {P : ℕ → α → Prop} {l l' : List α} {x : α}

theorem nil : Script P [] := by
  intro k x h
  simp at h

theorem of_prefix (h : Script P l') (hl : l <+: l') : Script P l := by
  obtain ⟨t, rfl⟩ := hl
  intro k x hx
  obtain ⟨hk, -⟩ := List.getElem?_eq_some_iff.1 hx
  exact h k x (by rw [List.getElem?_append_left hk, hx])

theorem append (h : Script P l) (h' : ∀ k x, l'[k]? = some x → P (l.length + k) x) :
    Script P (l ++ l') := by
  intro k x hx
  rcases lt_or_ge k l.length with hk | hk
  · rw [List.getElem?_append_left hk] at hx
    exact h k x hx
  · rw [List.getElem?_append_right hk] at hx
    have hp := h' (k - l.length) x hx
    rwa [Nat.add_sub_cancel' hk] at hp

theorem snoc (h : Script P l) (hx : P l.length x) : Script P (l ++ [x]) := by
  refine h.append fun k y hy => ?_
  rcases k with _ | k
  · obtain rfl : x = y := by simpa using hy
    exact hx
  · simp at hy

/-- The entry that comes after a part of the list. -/
theorem next (h : Script P (l ++ x :: l')) : P l.length x :=
  h l.length x (by rw [List.getElem?_append_right le_rfl, Nat.sub_self, List.getElem?_cons_zero])

/-- Entries any place from some on will do for. -/
theorem append_of_le {n : ℕ} (h : Script P l) (hn : l' ≠ [] → n ≤ l.length)
    (h' : ∀ x ∈ l', ∀ k, n ≤ k → P k x) : Script P (l ++ l') := by
  refine h.append fun k x hx => ?_
  have hmem : x ∈ l' := List.mem_of_getElem? hx
  have hle := hn (List.ne_nil_of_mem hmem)
  exact h' x hmem _ (by omega)

end Script
