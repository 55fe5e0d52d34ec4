import Mathlib

/-!
# Ordered sets whose order is read through a key

A set of `α` kept as a list in increasing order of `key`, as an ordered tree with a comparator on
a projection keeps it: an element whose key is taken is not inserted, and lookup and removal go by
the key alone. On a list in strict order the key determines the element (`eq_of_key_eq`), so
removal by an element's key removes that element and no other (`mem_erase_key`).
-/

namespace KeyedSet

variable {α κ : Type*} [LinearOrder κ] (key : α → κ)

/-- `a` before the first element with a larger key, unless its key is taken. -/
def insert (a : α) : List α → List α
  | [] => [a]
  | b :: l =>
    if key a < key b then a :: b :: l
    else if key b < key a then b :: insert a l
    else b :: l

def erase (k : κ) (l : List α) : List α := l.filter fun a => key a ≠ k

def find (k : κ) (l : List α) : Option α := l.find? fun a => key a = k

def Sorted (l : List α) : Prop := l.Pairwise fun a b => key a < key b

variable {key} {a b : α} {k : κ} {l : List α}

theorem Sorted.nodup (h : Sorted key l) : l.Nodup :=
  h.imp fun hab he => absurd (congrArg key he) hab.ne

theorem Sorted.eq_of_key_eq (h : Sorted key l) (ha : a ∈ l) (hb : b ∈ l)
    (hk : key a = key b) : a = b := by
  have hmap : (l.map key).Nodup := (List.pairwise_map.2 h).imp ne_of_lt
  exact List.inj_on_of_nodup_map hmap ha hb hk

theorem Sorted.erase (h : Sorted key l) (k : κ) : Sorted key (erase key k l) := h.filter _

theorem mem_erase : a ∈ erase key k l ↔ a ∈ l ∧ key a ≠ k := by
  simp [erase]

theorem Sorted.mem_erase_key (h : Sorted key l) (hb : b ∈ l) :
    a ∈ KeyedSet.erase key (key b) l ↔ a ∈ l ∧ a ≠ b := by
  rw [mem_erase]
  refine and_congr_right fun ha => not_congr ⟨fun hk => h.eq_of_key_eq ha hb hk, ?_⟩
  rintro rfl
  rfl

theorem Sorted.filter_key (h : Sorted key l) (ha : a ∈ l) :
    (l.filter fun b => key b = key a) = [a] := by
  refine List.perm_singleton.1 ((List.perm_ext_iff_of_nodup (h.nodup.filter _)
    (List.nodup_singleton a)).2 fun b => ?_)
  simp only [List.mem_filter, decide_eq_true_eq, List.mem_singleton]
  refine ⟨fun hb => h.eq_of_key_eq hb.1 ha hb.2, ?_⟩
  rintro rfl
  exact ⟨ha, rfl⟩

theorem find_eq_none : find key k l = none ↔ ∀ a ∈ l, key a ≠ k := by
  simp [find]

theorem mem_of_find (h : find key k l = some a) : a ∈ l ∧ key a = k :=
  ⟨List.mem_of_find?_eq_some h, by simpa using List.find?_some h⟩

theorem Sorted.find_key (h : Sorted key l) (ha : a ∈ l) : find key (key a) l = some a := by
  rcases hf : find key (key a) l with _ | b
  · exact absurd rfl (find_eq_none.1 hf a ha)
  · obtain ⟨hb, hk⟩ := mem_of_find hf
    rw [h.eq_of_key_eq hb ha hk]

theorem mem_insert_imp (hb : b ∈ insert key a l) : b = a ∨ b ∈ l := by
  induction l with
  | nil => simpa [insert] using hb
  | cons c l ih =>
    simp only [insert] at hb
    split_ifs at hb
    · simpa using hb
    · rcases List.mem_cons.1 hb with rfl | hb
      · exact .inr List.mem_cons_self
      · exact (ih hb).imp id (List.mem_cons_of_mem _)
    · exact .inr hb

theorem mem_insert_of_mem (hb : b ∈ l) : b ∈ insert key a l := by
  induction l with
  | nil => simp at hb
  | cons c l ih =>
    simp only [insert]
    split_ifs
    · exact List.mem_cons_of_mem _ hb
    · rcases List.mem_cons.1 hb with rfl | hb
      · exact List.mem_cons_self
      · exact List.mem_cons_of_mem _ (ih hb)
    · exact hb

theorem Sorted.insert (h : Sorted key l) (a : α) : Sorted key (insert key a l) := by
  induction l with
  | nil => simp [KeyedSet.insert, Sorted]
  | cons c l ih =>
    obtain ⟨hc, hl⟩ := List.pairwise_cons.1 h
    simp only [KeyedSet.insert]
    split_ifs with h1 h2
    · refine List.pairwise_cons.2 ⟨fun b hb => ?_, h⟩
      rcases List.mem_cons.1 hb with rfl | hb
      · exact h1
      · exact h1.trans (hc b hb)
    · refine List.pairwise_cons.2 ⟨fun b hb => ?_, ih hl⟩
      rcases mem_insert_imp hb with rfl | hb
      · exact h2
      · exact hc b hb
    · exact h

theorem insert_perm (h : ∀ b ∈ l, key b ≠ key a) : (insert key a l).Perm (a :: l) := by
  induction l with
  | nil => exact List.Perm.refl _
  | cons c l ih =>
    simp only [insert]
    split_ifs with h1 h2
    · exact List.Perm.refl _
    · exact ((ih fun b hb => h b (List.mem_cons_of_mem _ hb)).cons c).trans (List.Perm.swap a c l)
    · exact absurd (le_antisymm (not_lt.1 h1) (not_lt.1 h2)) (h c List.mem_cons_self)

theorem Sorted.insert_of_taken (h : Sorted key l) (hb : b ∈ l) (hk : key b = key a) :
    KeyedSet.insert key a l = l := by
  induction l with
  | nil => simp at hb
  | cons c l ih =>
    obtain ⟨hc, hl⟩ := List.pairwise_cons.1 h
    simp only [KeyedSet.insert]
    rcases List.mem_cons.1 hb with rfl | hb
    · rw [if_neg (by rw [hk]; exact lt_irrefl _), if_neg (by rw [hk]; exact lt_irrefl _)]
    · have hlt : key c < key a := hk ▸ hc b hb
      rw [if_neg hlt.not_gt, if_pos hlt, ih hl hb]

/-- An insertion adds the element or, its key taken, changes nothing. -/
theorem Sorted.insert_cases (h : Sorted key l) (a : α) :
    ((∀ b ∈ l, key b ≠ key a) ∧ (KeyedSet.insert key a l).Perm (a :: l))
      ∨ KeyedSet.insert key a l = l := by
  by_cases hfree : ∀ b ∈ l, key b ≠ key a
  · exact .inl ⟨hfree, insert_perm hfree⟩
  · push Not at hfree
    obtain ⟨b, hb, hk⟩ := hfree
    exact .inr (h.insert_of_taken hb hk)

theorem sorted_congr {key' : α → κ} (h : ∀ a ∈ l, key' a = key a) :
    Sorted key' l ↔ Sorted key l :=
  List.Pairwise.iff_of_mem fun ha hb => by rw [h _ ha, h _ hb]

end KeyedSet
