import Mathlib

/-!
# Logs stamped with the step they were written in

A log is a list of entries, each with the number of the step that wrote it. `stamps` lists the
steps that wrote an entry of some kind, with repetition. Of two subsequences of a log whose stamps
increase, the common elements come in the same order in both (`filter_mem_comm`).
-/

namespace Stamped

variable {α : Type*} {p : α → Bool} {l : List (ℕ × α)} {acts : List α} {t : ℕ}

/-- The steps that wrote an entry satisfying `p`. -/
def stamps (p : α → Bool) (l : List (ℕ × α)) : List ℕ := (l.filter fun x => p x.2).map Prod.fst

theorem mem_stamps : t ∈ stamps p l ↔ ∃ a, (t, a) ∈ l ∧ p a = true := by
  simp [stamps]

theorem stamps_append :
    stamps p (l ++ acts.map fun a => (t, a)) = stamps p l ++ (acts.filter p).map fun _ => t := by
  simp only [stamps, List.filter_append, List.map_append, List.filter_map, List.map_map]
  rfl

/-- Elements that increase in two lists come in the same order in both. -/
theorem filter_mem_comm {β : Type*} [BEq β] [LawfulBEq β] {key : β → ℕ} {l l' : List β}
    (h : l.Pairwise fun a b => key a < key b) (h' : l'.Pairwise fun a b => key a < key b) :
    (l.filter fun a => a ∈ l') = l'.filter fun a => a ∈ l := by
  have hnd : ∀ {l : List β}, (l.Pairwise fun a b => key a < key b) → l.Nodup := fun h =>
    h.imp fun hab he => absurd (congrArg key he) hab.ne
  refine List.Perm.eq_of_pairwise (fun a b _ _ (hab : key a < key b) (hba : key b < key a) =>
    absurd hab hba.not_gt) (h.filter _) (h'.filter _) ?_
  refine (List.perm_ext_iff_of_nodup ((hnd h).filter _) ((hnd h').filter _)).2 fun a => ?_
  simp [and_comm]

end Stamped
