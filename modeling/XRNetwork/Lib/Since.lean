import Mathlib

/-!
# Since

`Since P Q l` is the past operator of temporal logic on a finite history, oldest entry first: some
entry satisfies `P` and every entry after it satisfies `Q`.
-/

variable {α : Type*} {P Q : α → Prop} {l l' : List α}

def Since (P Q : α → Prop) : List α → Prop
  | [] => False
  | x :: l => Since P Q l ∨ P x ∧ ∀ y ∈ l, Q y

/-- It held in the later part, or in the earlier part and `Q` has not failed later. -/
theorem since_append : Since P Q (l ++ l') ↔ Since P Q l' ∨ Since P Q l ∧ ∀ y ∈ l', Q y := by
  induction l with
  | nil => simp [Since]
  | cons x l ih =>
    simp only [List.cons_append, Since, ih, List.forall_mem_append]
    tauto

theorem Since.exists_mem (h : Since P Q l) : ∃ x ∈ l, P x := by
  induction l with
  | nil => exact h.elim
  | cons x l ih =>
    rcases h with h | ⟨h, -⟩
    · obtain ⟨y, hy, hP⟩ := ih h
      exact ⟨y, List.mem_cons_of_mem _ hy, hP⟩
    · exact ⟨x, List.mem_cons_self, h⟩

theorem since_of_forall (hQ : ∀ y ∈ l, Q y) (h : ∃ x ∈ l, P x) : Since P Q l := by
  induction l with
  | nil => simp at h
  | cons x l ih =>
    obtain ⟨-, hl⟩ := List.forall_mem_cons.1 hQ
    obtain ⟨y, hy, hP⟩ := h
    rcases List.mem_cons.1 hy with rfl | hy
    · exact .inr ⟨hP, hl⟩
    · exact .inl (ih hl ⟨y, hy, hP⟩)
