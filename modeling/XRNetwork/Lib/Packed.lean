import XRNetwork.Lib.LittleEndian

/-!
# Packed records of integers and sized buffers

A layout lists the widths of a record's integers and, behind them, for each buffer the width of its
length field and the bytes reserved for it. Records are written field after field with nothing
between, and read the same way. A reader with the writer's layout reads what was written
(`read_write`). One that takes a length field for narrower or wider than it is reads everything
behind it shifted, and recovers the record only where the shift moves zeros (`recovered_narrow`,
`recovered_wide`).
-/

namespace Packed

open LittleEndian

structure Layout where
  ints : List ℕ
  /-- Of each buffer, the width of its length field and its size. -/
  buffers : List (ℕ × ℕ)
deriving DecidableEq

structure Record where
  ints : List ℕ
  /-- Of each buffer, what its length field says and its bytes. -/
  buffers : List (ℕ × List UInt8)

/-- A record with the fields of a layout. -/
structure Value (L : Layout) extends Record where
  ints_fit : List.Forall₂ (fun w n => n < 256 ^ w) L.ints ints
  buffers_fit : List.Forall₂ (fun l b => b.1 < 256 ^ l.1 ∧ b.2.length = l.2) L.buffers buffers

namespace Layout

variable (L : Layout)

def size : ℕ := L.ints.sum + (L.buffers.map fun l => l.1 + l.2).sum

def writeInts : List ℕ → List ℕ → List UInt8
  | w :: ws, n :: ns => encode w n ++ writeInts ws ns
  | _, _ => []

def writeBuffers : List (ℕ × ℕ) → List (ℕ × List UInt8) → List UInt8
  | l :: ls, b :: bs => encode l.1 b.1 ++ (b.2 ++ writeBuffers ls bs)
  | _, _ => []

def readInts : List ℕ → List UInt8 → List ℕ
  | [], _ => []
  | w :: ws, bs => decode (bs.take w) :: readInts ws (bs.drop w)

def readBuffers : List (ℕ × ℕ) → List UInt8 → List (ℕ × List UInt8)
  | [], _ => []
  | l :: ls, bs =>
    (decode (bs.take l.1), (bs.drop l.1).take l.2) :: readBuffers ls (bs.drop (l.1 + l.2))

/-- The record at the start of a string, if the string is that long. -/
def read (bs : List UInt8) : Option Record :=
  if L.size ≤ bs.length then
    some ⟨readInts L.ints bs, readBuffers L.buffers (bs.drop L.ints.sum)⟩
  else none

end Layout

open Layout

variable {L : Layout}

def Value.write (v : Value L) : List UInt8 :=
  writeInts L.ints v.ints ++ writeBuffers L.buffers v.buffers

/-- A reader's record has every integer and every length of the writer's and, of every buffer, as
many bytes as its length says. -/
def Record.Recovers (r' r : Record) : Prop :=
  r'.ints = r.ints
    ∧ List.Forall₂ (fun b b' => b'.1 = b.1 ∧ b.2.take b.1 <+: b'.2) r.buffers r'.buffers

/-! ## One layout -/

theorem length_writeInts {ws ns : List ℕ} (h : List.Forall₂ (fun w n => n < 256 ^ w) ws ns) :
    (writeInts ws ns).length = ws.sum := by
  induction h with
  | nil => rfl
  | cons _ _ ih => simp [writeInts, ih]

theorem readInts_write {ws ns : List ℕ} (h : List.Forall₂ (fun w n => n < 256 ^ w) ws ns)
    (rest : List UInt8) : readInts ws (writeInts ws ns ++ rest) = ns := by
  induction h with
  | nil => rfl
  | @cons w n ws ns hn _ ih =>
    rw [writeInts, List.append_assoc, readInts, List.take_left' (length_encode w n),
      List.drop_left' (length_encode w n), ih, decode_encode_of_lt hn]

variable {ls : List (ℕ × ℕ)} {bs : List (ℕ × List UInt8)}

theorem length_writeBuffers
    (h : List.Forall₂ (fun l b => b.1 < 256 ^ l.1 ∧ b.2.length = l.2) ls bs) :
    (writeBuffers ls bs).length = (ls.map fun l => l.1 + l.2).sum := by
  induction h with
  | nil => rfl
  | cons hb _ ih => simp [writeBuffers, ih, hb.2, Nat.add_assoc]

theorem readBuffers_write
    (h : List.Forall₂ (fun l b => b.1 < 256 ^ l.1 ∧ b.2.length = l.2) ls bs) (rest : List UInt8) :
    readBuffers ls (writeBuffers ls bs ++ rest) = bs := by
  induction h with
  | nil => rfl
  | @cons l b ls bs hb _ ih =>
    rw [writeBuffers, List.append_assoc, List.append_assoc, readBuffers,
      List.take_left' (length_encode l.1 b.1), ← List.drop_drop,
      List.drop_left' (length_encode l.1 b.1), List.take_left' hb.2, List.drop_left' hb.2, ih,
      decode_encode_of_lt hb.1]

theorem Value.length_write (v : Value L) : v.write.length = L.size := by
  rw [Value.write, List.length_append, length_writeInts v.ints_fit,
    length_writeBuffers v.buffers_fit, Layout.size]

theorem read_write (v : Value L) (rest : List UInt8) :
    L.read (v.write ++ rest) = some v.toRecord := by
  have hlen := v.length_write
  rw [Layout.read, if_pos (by rw [List.length_append]; omega), Value.write, List.append_assoc,
    readInts_write v.ints_fit, List.drop_left' (length_writeInts v.ints_fit),
    readBuffers_write v.buffers_fit]

theorem Record.Recovers.refl (r : Record) : r.Recovers r := by
  refine ⟨rfl, List.forall₂_same.2 fun b _ => ⟨rfl, List.take_prefix _ _⟩⟩

/-! ## A length field of another width -/

/-- Bytes that repeat what stands `d` before them, behind `d` zeros, are zeros. -/
theorem zero_of_shift {d m : ℕ} (hd : 0 < d) {f : ℕ → UInt8}
    (h : ∀ i < m, f i = if i < d then 0 else f (i - d)) : ∀ i < m, f i = 0 := by
  intro i
  induction i using Nat.strong_induction_on with
  | _ i ih =>
    intro hi
    rw [h i hi]
    split_ifs with hid
    · rfl
    · exact ih (i - d) (by omega) (by omega)

theorem forall_take_zero {l : List UInt8} {m : ℕ} :
    (∀ x ∈ l.take m, x = 0) ↔ ∀ i < m, l.getD i 0 = 0 := by
  constructor
  · intro h i hi
    rcases lt_or_ge i l.length with hl | hl
    · rw [List.getD_eq_getElem _ _ hl]
      exact h _ (List.mem_take_iff_getElem.2 ⟨i, by omega, rfl⟩)
    · exact List.getD_eq_default _ _ hl
  · intro h x hx
    obtain ⟨i, hi, rfl⟩ := List.mem_take_iff_getElem.1 hx
    have hl : i < l.length := by omega
    rw [← List.getD_eq_getElem _ 0 hl]
    exact h i (by omega)

theorem take_prefix_iff {l r : List UInt8} {m : ℕ} (hlen : l.length ≤ r.length) :
    l.take m <+: r ↔ ∀ i < m, i < l.length → r.getD i 0 = l.getD i 0 := by
  rw [List.prefix_iff_getElem]
  constructor
  · rintro ⟨hle, h⟩ i hi hl
    have hx := h i (by rw [List.length_take]; omega)
    rw [List.getD_eq_getElem _ 0 hl, List.getD_eq_getElem _ 0 (by omega), ← hx, List.getElem_take]
  · intro h
    refine ⟨(List.length_take_le' _ _).trans hlen, fun i hi => ?_⟩
    rw [List.length_take] at hi
    have hx := h i (by omega) (by omega)
    rw [List.getD_eq_getElem _ 0 (by omega), List.getD_eq_getElem _ 0 (by omega)] at hx
    rw [List.getElem_take, hx]

/-- The record at the start of a string has what was written there. -/
def Recovered (L' : Layout) (bytes : List UInt8) (r : Record) : Prop :=
  ∃ r', L'.read bytes = some r' ∧ r'.Recovers r

/-- A record with one buffer, and what a reader finds that takes its length field for one of
another width. -/
theorem recovered_iff {is : List ℕ} {w n w' n' : ℕ} (v : Value ⟨is, [(w, n)]⟩)
    {rest : List UInt8} (hsize : w' + n' ≤ w + n + rest.length) :
    Recovered ⟨is, [(w', n')]⟩ (v.write ++ rest) v.toRecord ↔
      ∀ b ∈ v.buffers, decode ((encode w b.1 ++ (b.2 ++ rest)).take w') = b.1
        ∧ b.2.take b.1 <+: ((encode w b.1 ++ (b.2 ++ rest)).drop w').take n' := by
  have hlen := v.length_write
  have hread : Layout.read ⟨is, [(w', n')]⟩ (v.write ++ rest)
      = some ⟨v.ints, readBuffers [(w', n')] (writeBuffers [(w, n)] v.buffers ++ rest)⟩ := by
    rw [Layout.read, if_pos (by simp_all [Layout.size]; omega), Value.write, List.append_assoc,
      readInts_write v.ints_fit, List.drop_left' (length_writeInts v.ints_fit)]
  obtain ⟨b, hb⟩ : ∃ b, v.buffers = [b] :=
    List.length_eq_one_iff.1 v.buffers_fit.length_eq.symm
  unfold Recovered Record.Recovers
  simp only [hread, hb, Option.some.injEq, exists_eq_left', writeBuffers, readBuffers,
    List.forall₂_cons, List.forall₂_nil_left_iff, true_and, and_true, List.mem_singleton,
    forall_eq, List.append_assoc, List.nil_append]

theorem Value.buffer_fits {is : List ℕ} {w n : ℕ} (v : Value ⟨is, [(w, n)]⟩)
    {b : ℕ × List UInt8} (hb : b ∈ v.buffers) : b.1 < 256 ^ w ∧ b.2.length = n := by
  obtain ⟨b', hb'⟩ : ∃ b', v.buffers = [b'] :=
    List.length_eq_one_iff.1 v.buffers_fit.length_eq.symm
  have hfit := v.buffers_fit
  rw [hb'] at hb hfit
  obtain rfl := List.mem_singleton.1 hb
  exact (List.forall₂_cons.1 hfit).1

/-- The upper bytes of the length come to stand before the buffer. -/
theorem recovered_narrow {is : List ℕ} {w d n : ℕ} (hd : 0 < d) (v : Value ⟨is, [(w + d, n)]⟩)
    (rest : List UInt8) : Recovered ⟨is, [(w, n)]⟩ (v.write ++ rest) v.toRecord ↔
      ∀ b ∈ v.buffers, b.1 < 256 ^ w ∧ ∀ x ∈ b.2.take b.1, x = 0 := by
  rw [recovered_iff v (by omega)]
  refine forall₂_congr fun b hb => ?_
  obtain ⟨-, hn⟩ := v.buffer_fits hb
  have hmod : b.1 % 256 ^ w = b.1 ↔ b.1 < 256 ^ w :=
    ⟨fun h => h ▸ Nat.mod_lt _ (by positivity), Nat.mod_eq_of_lt⟩
  rw [encode_add, List.append_assoc, List.take_left' (length_encode w _),
    List.drop_left' (length_encode w _), decode_encode, hmod]
  refine and_congr_right fun hlt => ?_
  rw [Nat.div_eq_of_lt hlt, encode_zero]
  have hr : ∀ i < n, ((List.replicate d 0 ++ (b.2 ++ rest)).take n).getD i 0
      = if i < d then 0 else b.2.getD (i - d) 0 := by
    intro i hi
    rw [List.getD_eq_getElem?_getD, List.getElem?_take_of_lt hi, ← List.getD_eq_getElem?_getD]
    split_ifs with hid
    · rw [List.getD_append _ _ _ _ (by simpa using hid), List.getD_eq_getElem _ _ (by simpa using hid),
        List.getElem_replicate]
    · rw [List.getD_append_right _ _ _ _ (by simpa using hid), List.length_replicate,
        List.getD_append _ _ _ _ (by omega)]
  rw [forall_take_zero, take_prefix_iff (by simp; omega)]
  constructor
  · intro h i hi
    have hzero : ∀ j < min b.1 n, b.2.getD j 0 = 0 := zero_of_shift hd fun j hj => by
      rw [← h j (by omega) (by omega), hr j (by omega)]
    rcases lt_or_ge i n with hin | hin
    · exact hzero i (by omega)
    · exact List.getD_eq_default _ _ (by omega)
  · intro h i hi hin
    rw [hr i (by omega), h i hi]
    split_ifs
    · rfl
    · exact h _ (by omega)

/-- The first bytes of the buffer come to stand in the length. -/
theorem recovered_wide {is : List ℕ} {w d n n' k : ℕ} (hd : 0 < d) (hdn : d ≤ n) (hn' : n ≤ n')
    (hk : d + n' ≤ n + k) (v : Value ⟨is, [(w, n)]⟩) :
    Recovered ⟨is, [(w + d, n')]⟩ (v.write ++ List.replicate k 0) v.toRecord ↔
      ∀ b ∈ v.buffers, ∀ x ∈ b.2.take (b.1 + d), x = 0 := by
  rw [recovered_iff v (by simp; omega)]
  refine forall₂_congr fun b hb => ?_
  obtain ⟨hlt, hn⟩ := v.buffer_fits hb
  have hle : d ≤ b.2.length := by omega
  rw [List.take_append, List.drop_append, List.take_of_length_le (by simp),
    List.drop_of_length_le (by simp), length_encode, Nat.add_sub_cancel_left, List.nil_append,
    List.take_append_of_le_length hle, decode_append, length_encode, decode_encode_of_lt hlt,
    Nat.add_eq_left, Nat.mul_eq_zero, or_iff_right (by positivity), decode_eq_zero]
  have hr : ∀ i < n', (((b.2 ++ List.replicate k 0).drop d).take n').getD i 0
      = b.2.getD (d + i) 0 := by
    intro i hi
    rw [List.getD_eq_getElem?_getD, List.getElem?_take_of_lt hi, List.getElem?_drop,
      ← List.getD_eq_getElem?_getD]
    rcases lt_or_ge (d + i) b.2.length with h | h
    · exact List.getD_append _ _ _ _ h
    · rw [List.getD_append_right _ _ _ _ h, List.getD_eq_default _ _ h,
        List.getD_eq_getElem?_getD, List.getElem?_getD_replicate_default_eq]
  rw [take_prefix_iff (by simp; omega), forall_take_zero, forall_take_zero]
  constructor
  · rintro ⟨hz, h⟩ i hi
    have hzero : ∀ j < min (b.1 + d) n, b.2.getD j 0 = 0 := zero_of_shift hd fun j hj => by
      split_ifs with hjd
      · exact hz j hjd
      · rw [← h (j - d) (by omega) (by omega), hr (j - d) (by omega), Nat.add_sub_cancel' (by omega)]
    rcases lt_or_ge i n with hin | hin
    · exact hzero i (by omega)
    · exact List.getD_eq_default _ _ (by omega)
  · intro h
    refine ⟨fun i hi => h i (by omega), fun i hi hin => ?_⟩
    rw [hr i (by omega), h _ (by omega), h _ (by omega)]

end Packed
