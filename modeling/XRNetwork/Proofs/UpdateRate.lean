import XRNetwork.UnityUpdate

/-!
# The rate of the updates

The period is one divided by the rate, in integers: it is zero for every rate above one, and then no
frame updates; for a rate of one it is a millisecond where a second was meant, and every frame with
a new timestamp updates; and a rate of zero is divided by.
-/

namespace XRNetwork

/-- The times in the second that starts at `a`. -/
def inSecond (a : ℤ) (l : List ℤ) : List ℤ := l.filter fun t => a ≤ t ∧ t < a + 1000

theorem mem_inSecond {a t : ℤ} {l : List ℤ} :
    t ∈ inSecond a l ↔ t ∈ l ∧ a ≤ t ∧ t < a + 1000 := by
  rw [inSecond, List.mem_filter, decide_eq_true_iff]

/-- Of increasing times no two lie in one second if and only if any two are a second apart. -/
theorem one_per_second_iff {l : List ℤ} (hl : l.Pairwise (· < ·)) :
    (∀ a, (inSecond a l).length ≤ 1) ↔ ∀ x ∈ l, ∀ y ∈ l, x < y → x + 1000 ≤ y := by
  constructor
  · intro h x hx y hy hlt
    by_contra hclose
    have hx' : x ∈ inSecond x l := mem_inSecond.2 ⟨hx, le_rfl, by omega⟩
    have hy' : y ∈ inSecond x l := mem_inSecond.2 ⟨hy, by omega, by omega⟩
    have hone := h x
    generalize inSecond x l = w at hx' hy' hone
    obtain ⟨z, rfl⟩ : ∃ z, w = [z] := by
      refine List.length_eq_one_iff.1 (le_antisymm hone ?_)
      exact List.length_pos_of_mem hx'
    rw [List.mem_singleton] at hx' hy'
    omega
  · intro h a
    have hsorted : (inSecond a l).Pairwise (· < ·) := hl.filter _
    have hmem := fun t (ht : t ∈ inSecond a l) => mem_inSecond.1 ht
    generalize inSecond a l = w at hsorted hmem
    rcases w with _ | ⟨x, _ | ⟨y, rest⟩⟩
    · exact Nat.zero_le _
    · exact le_rfl
    · obtain ⟨hx, hxa, -⟩ := hmem x List.mem_cons_self
      obtain ⟨hy, -, hya⟩ := hmem y (List.mem_cons_of_mem _ List.mem_cons_self)
      have hlt : x < y := List.rel_of_pairwise_cons hsorted List.mem_cons_self
      have hapart := h x hx y hy hlt
      omega

namespace UnityParticipant

variable {p : UnityParticipant}

theorem frames_snoc (ts : List ℤ) (t : ℤ) : p.frames (ts ++ [t]) = (p.frames ts).update t := by
  simp [frames]

/-- Without a period no frame updates. -/
theorem frames_of_no_period (h : p.mDtMs = 0) (ts : List ℤ) : p.frames ts = p := by
  induction ts using List.reverseRecOn with
  | nil => rfl
  | append_singleton ts t ih =>
    rw [frames_snoc, ih, update, if_neg (by omega)]

/-- The time the participant takes for that of its previous update: none is the epoch. -/
def previous (p : UnityParticipant) : ℤ := p.updates.getLastD 0

theorem previous_cases : p.previous = 0 ∨ p.previous ∈ p.updates := by
  unfold previous
  rcases List.eq_nil_or_concat p.updates with h | ⟨l, t, h⟩
  · exact .inl (by rw [h]; rfl)
  · exact .inr (by simp [h])

/-- With a period of a millisecond, after frames in order, the updates are those of all times from 1
on, each once. -/
structure Eager (ts : List ℤ) (p : UnityParticipant) : Prop where
  period : p.mDtMs = 1
  can : p.canUpdateToTheServer = true
  last : p.mLastTimestamp = p.previous
  sorted : p.updates.Pairwise (· < ·)
  upto : ∀ t ∈ p.updates, t ≤ p.previous
  mem : ∀ t, t ∈ p.updates ↔ t ∈ ts ∧ 1 ≤ t

/-- Every new time updates. -/
theorem Eager.update {ts : List ℤ} {t : ℤ} (h : Eager ts p) (hts : ∀ x ∈ ts, x ≤ t) :
    Eager (ts ++ [t]) (p.update t) ∧
      (1 ≤ t - p.previous → (p.update t).updates = p.updates ++ [t]) := by
  have hguard : (0 < p.mDtMs ∧ (p.mDtMs : ℤ) ≤ t - p.mLastTimestamp ∧ p.canUpdateToTheServer) ↔
      1 ≤ t - p.previous := by
    rw [h.period, h.last, h.can]
    simp
  unfold UnityParticipant.update
  by_cases hnew : 1 ≤ t - p.previous
  · rw [if_pos (hguard.2 hnew)]
    have hprev : previous { p with updates := p.updates ++ [t], mLastTimestamp := t } = t := by
      simp [previous]
    refine ⟨⟨h.period, h.can, hprev.symm, ?_, ?_, ?_⟩, fun _ => rfl⟩
    · refine List.pairwise_append.2 ⟨h.sorted, List.pairwise_singleton _ _, fun x hx y hy => ?_⟩
      have hle := h.upto x hx
      rw [List.mem_singleton.1 hy]
      omega
    · intro x hx
      rw [hprev]
      rcases List.mem_append.1 hx with hx | hx
      · have hle := h.upto x hx
        omega
      · exact (List.mem_singleton.1 hx).le
    · intro x
      have hpos : 0 ≤ p.previous := by
        rcases previous_cases (p := p) with h0 | hmem
        · exact h0.ge
        · exact le_trans zero_le_one ((h.mem _).1 hmem).2
      show x ∈ p.updates ++ [t] ↔ _
      rw [List.mem_append, List.mem_append, List.mem_singleton, h.mem]
      refine ⟨?_, fun ⟨hx, hle⟩ => hx.imp_left fun hx => ⟨hx, hle⟩⟩
      rintro (⟨hx, hle⟩ | rfl)
      · exact ⟨.inl hx, hle⟩
      · exact ⟨.inr rfl, by omega⟩
  · rw [if_neg (hguard.not.2 hnew)]
    refine ⟨⟨h.period, h.can, h.last, h.sorted, h.upto, fun x => ?_⟩, fun hd => absurd hd hnew⟩
    rw [h.mem, List.mem_append, List.mem_singleton]
    refine ⟨fun ⟨hx, hle⟩ => ⟨.inl hx, hle⟩, fun ⟨hx, hle⟩ => ⟨?_, hle⟩⟩
    rcases hx with hx | rfl
    · exact hx
    · -- it is the time of the previous update
      rcases previous_cases (p := p) with h0 | hmem
      · omega
      · have hprev := ((h.mem _).1 hmem).1
        have heq : p.previous = x := le_antisymm (hts _ hprev) (by omega)
        rwa [heq] at hprev

theorem eager_frames (h : Eager [] p) {ts : List ℤ} (hts : ts.Pairwise (· ≤ ·)) :
    Eager ts (p.frames ts) := by
  induction ts using List.reverseRecOn with
  | nil => exact h
  | append_singleton ts t ih =>
    obtain ⟨hpre, -, hle⟩ := List.pairwise_append.1 hts
    rw [frames_snoc]
    exact ((ih hpre).update fun x hx => hle x hx t (List.mem_singleton.2 rfl)).1

/-- A second divided by the rate, rounded up. -/
def interval (maxDataRate : UInt16) : ℤ :=
  ((1000 + (maxDataRate.toNat - 1)) / maxDataRate.toNat : ℕ)

/-- After a `PARTICIPANT_JOIN` with the rate, and frames at the times: it is handled, no second sees
more updates than the rate says, and an update that is due is made. -/
structure Follows (maxDataRate : UInt16) (ts : List ℤ) (p : UnityParticipant) : Prop where
  joined : init.onParticipantJoin maxDataRate = .ok p
  most : ∀ a, (inSecond a (p.frames ts).updates).length ≤ maxDataRate.toNat
  due : 1 ≤ maxDataRate → ∀ ts₁ t, ts₁ ++ [t] <+: ts →
    interval maxDataRate ≤ t - (p.frames ts₁).previous →
      (p.frames (ts₁ ++ [t])).updates = (p.frames ts₁).updates ++ [t]

theorem Follows.eq {maxDataRate : UInt16} {ts : List ℤ} {q : UnityParticipant}
    (h : Follows maxDataRate ts p) (hq : init.onParticipantJoin maxDataRate = .ok q) : p = q :=
  Outcome.ok.inj (h.joined.symm.trans hq)

theorem join_of_ne_zero {maxDataRate : UInt16} (h : maxDataRate ≠ 0) :
    init.onParticipantJoin maxDataRate
      = .ok ⟨maxDataRate, 1 / maxDataRate.toNat, 0, true, []⟩ := by
  unfold onParticipantJoin
  exact if_neg h

/-- A rate of one message a second. -/
theorem follows_one {ts : List ℤ} (hts : ts.Pairwise (· ≤ ·)) :
    (∃ p, Follows 1 ts p) ↔ ∀ x ∈ ts, ∀ y ∈ ts, 1 ≤ x → x < y → x + 1000 ≤ y := by
  have hjoin : init.onParticipantJoin 1 = .ok ⟨1, 1, 0, true, []⟩ := join_of_ne_zero (by decide)
  have hstart : Eager [] ⟨1, 1, 0, true, []⟩ :=
    ⟨rfl, rfl, rfl, List.Pairwise.nil, nofun, by simp⟩
  have hE := eager_frames hstart hts
  have hspaced : (∀ x ∈ ts, ∀ y ∈ ts, 1 ≤ x → x < y → x + 1000 ≤ y) ↔
      ∀ a, (inSecond a (frames ⟨1, 1, 0, true, []⟩ ts).updates).length ≤ 1 := by
    rw [one_per_second_iff hE.sorted]
    simp only [hE.mem]
    refine ⟨fun h x hx y hy hlt => h x hx.1 y hy.1 hx.2 hlt, fun h x hx y hy hle hlt => ?_⟩
    exact h x ⟨hx, hle⟩ y ⟨hy, by omega⟩ hlt
  rw [hspaced]
  constructor
  · rintro ⟨p, hp⟩
    obtain rfl := hp.eq hjoin
    exact hp.most
  · intro hmost
    refine ⟨_, hjoin, hmost, fun _ ts₁ t hpre hdue => ?_⟩
    have hpair := hts.sublist hpre.sublist
    obtain ⟨hpair₁, -, hle⟩ := List.pairwise_append.1 hpair
    have hint : interval 1 = 1000 := rfl
    rw [frames_snoc]
    refine ((eager_frames hstart hpair₁).update fun x hx =>
      hle x hx t (List.mem_singleton.2 rfl)).2 ?_
    omega

/-- A rate above one: there is no period, and nothing may be due. -/
theorem follows_more {maxDataRate : UInt16} (h : 1 < maxDataRate.toNat) (ts : List ℤ) :
    (∃ p, Follows maxDataRate ts p) ↔ ∀ t ∈ ts, t < interval maxDataRate := by
  have hjoin : init.onParticipantJoin maxDataRate = .ok ⟨maxDataRate, 0, 0, true, []⟩ := by
    rw [join_of_ne_zero (by rintro rfl; exact absurd h (by decide)), Nat.div_eq_of_lt h]
  have hidle (l : List ℤ) :
      frames ⟨maxDataRate, 0, 0, true, []⟩ l = ⟨maxDataRate, 0, 0, true, []⟩ :=
    frames_of_no_period rfl l
  constructor
  · rintro ⟨p, hp⟩ t ht
    obtain rfl := hp.eq hjoin
    by_contra hle
    obtain ⟨ts₁, ts₂, rfl⟩ := List.append_of_mem ht
    have hpre : ts₁ ++ [t] <+: ts₁ ++ t :: ts₂ := ⟨ts₂, by simp⟩
    have hone : 1 ≤ maxDataRate := UInt16.le_iff_toNat_le.2 (show 1 ≤ _ by omega)
    have hsent := hp.due hone ts₁ t hpre (by rw [hidle]; simp only [previous]; simpa using hle)
    rw [hidle, hidle] at hsent
    exact absurd hsent (by simp)
  · intro hbefore
    refine ⟨_, hjoin, fun a => ?_, fun _ ts₁ t hpre hdue => ?_⟩
    · rw [hidle]
      exact Nat.zero_le _
    · have hlt := hbefore t (hpre.subset (by simp))
      rw [hidle] at hdue
      have hdue' : interval maxDataRate ≤ t - 0 := hdue
      omega

end UnityParticipant

open UnityParticipant

/-- A client that has joined with a rate keeps to it if and only if the rate is one and any two
different times of its frames from 1 on are a second apart, or it is greater and no update is ever
due. -/
theorem update_rate_iff (maxDataRate : UInt16) {ts : List ℤ} (hts : ts.Pairwise (· ≤ ·)) :
    (∃ p, Follows maxDataRate ts p) ↔
      (maxDataRate = 1 ∧ ∀ x ∈ ts, ∀ y ∈ ts, 1 ≤ x → x < y → x + 1000 ≤ y)
        ∨ (1 < maxDataRate ∧ ∀ t ∈ ts, t < interval maxDataRate) := by
  have hcases : maxDataRate = 0 ∨ maxDataRate = 1 ∨ 1 < maxDataRate := by
    rw [← UInt16.toNat_inj, ← UInt16.toNat_inj, UInt16.lt_iff_toNat_lt]
    show maxDataRate.toNat = 0 ∨ maxDataRate.toNat = 1 ∨ 1 < maxDataRate.toNat
    omega
  rcases hcases with rfl | rfl | hmore
  · -- the division
    have hnot : ¬ ∃ p, Follows 0 ts p := by
      rintro ⟨p, hp⟩
      have hfault := hp.joined
      cases hfault
    simp [hnot]
  · rw [follows_one hts]
    simp
  · rw [follows_more (UInt16.lt_iff_toNat_lt.1 hmore)]
    have hne : maxDataRate ≠ 1 := by
      rintro rfl
      exact absurd hmore (by decide)
    simp [hmore, hne]

/-- One message a second, and two frames that are a second apart. -/
theorem update_rate_iff_slowFrames : ∃ p, Follows 1 [1700000000000, 1700000001000] p :=
  (update_rate_iff 1 (by decide)).2 (.inl ⟨rfl, by decide⟩)

/-- A client that may send twenty messages a second sends none in its first frame; one that may send
one sends one in each of two frames a millisecond apart; and one that may send none has divided by
zero. -/
theorem rates_not_kept :
    (¬ ∃ p, Follows 20 [1700000000000] p)
      ∧ (¬ ∃ p, Follows 1 [1700000000000, 1700000000001] p)
      ∧ init.onParticipantJoin 0 = .fault .divideByZero ⟨0, 0, 0, false, []⟩ := by
  refine ⟨?_, ?_, rfl⟩
  · rintro ⟨p, hp⟩
    obtain rfl : p = ⟨20, 0, 0, true, []⟩ := hp.eq rfl
    have hsent := hp.due (by decide) [] 1700000000000 List.prefix_rfl (by decide)
    exact absurd hsent (by decide)
  · rintro ⟨p, hp⟩
    obtain rfl : p = ⟨1, 1, 0, true, []⟩ := hp.eq rfl
    exact absurd (hp.most 1700000000000) (by decide)

end XRNetwork
