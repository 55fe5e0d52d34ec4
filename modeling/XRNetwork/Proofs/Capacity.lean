import XRNetwork.Proofs.Identity
import XRNetwork.Proofs.Settings

/-!
# How many members there are

The limit may be lowered below the number of members at any time, so the number need not be under
the limit in force. But it grows only in a `join` that has found it under that limit, by one, so it
never passes the largest limit there has been, and 16 bits are enough to count the members
(`capacity`).
-/

namespace XRNetwork

namespace Server

variable {E : Env} {w : Server} {e : Event} {ch : Change} {o : Outcome Fault Server}

theorem length_remaining_le (p : ℕ) : (w.remaining p).length ≤ w.participants.length :=
  List.length_filter_le _ _

theorem length_insert_le {key : ℕ → ℕ} {s : ℕ} {l : List ℕ} :
    (KeyedSet.insert key s l).length ≤ l.length + 1 := by
  induction l with
  | nil => simp [KeyedSet.insert]
  | cons b l ih =>
    simp only [KeyedSet.insert]
    split_ifs <;> simp
    omega

/-- The step adds nobody, or one session, whose join has found the room below its limit. -/
def GrowsBelowLimit (w : Server) (o : Outcome Fault Server) : Prop :=
  o.state.participants.length ≤ w.participants.length
  ∨ (∃ s, .joinCalled s ∈ newActs w o)
    ∧ o.state.participants.length = w.participants.length + 1
    ∧ w.participants.length < w.maxParticipants.toNat

theorem growsBelowLimit (hs : w.step E e = some o) : w.GrowsBelowLimit o := by
  obtain ⟨ch, hc, hg⟩ := step_cases hs
  unfold GrowsBelowLimit
  rw [newActs_eq hg, hg.participants]
  cases hc with
  | @joined s i buf c x ps hr hk hgood hroom hx hps =>
    have hle : ps.length ≤ w.participants.length + 1 := hps ▸ length_insert_le
    by_cases h : ps.length ≤ w.participants.length
    · exact .inl h
    · refine .inr ⟨⟨s, by simp⟩, ?_, hroom⟩
      show ps.length = w.participants.length + 1
      omega
  | leaveAck p | remove p => exact .inl (w.length_remaining_le p)
  | leave => exact .inl (w.length_remaining_le _)
  | _ => exact .inl le_rfl

/-- All limits there have been. -/
def limits (r : List (Server × Event)) : List UInt16 :=
  init.maxParticipants :: r.filterMap fun x => match x.2 with
    | .setMaxParticipants n => some n
    | _ => none

theorem mem_limits_of_prefix {r : List (Server × Event)} {n : UInt16} (h : n ∈ limits r) :
    n ∈ limits (r ++ [(w, e)]) := by
  unfold limits at h ⊢
  rw [List.filterMap_append, ← List.cons_append]
  exact List.mem_append_left _ h

theorem maxParticipants_mem {r : List (Server × Event)} (hr : (serverMachine E).Run r o) :
    o.state.maxParticipants ∈ limits r := by
  induction hr with
  | nil => exact List.mem_cons_self
  | @snoc r w e o hr hs ih =>
    have hout : o.state.maxParticipants = (w.outsideAfter (o.okAnd fun _ => true) e).1 :=
      congrArg Prod.fst (outside_step hs)
    rw [hout]
    by_cases he : ∃ n, e = .setMaxParticipants n
    · obtain ⟨n, rfl⟩ := he
      unfold limits
      simp [outsideAfter]
    · have hsame : (w.outsideAfter (o.okAnd fun _ => true) e).1 = w.maxParticipants := by
        cases e with
        | accept ip t => cases ip <;> rfl
        | setMaxParticipants n => exact absurd ⟨n, rfl⟩ he
        | _ => rfl
      rw [hsame]
      exact mem_limits_of_prefix ih

theorem length_le_limit {r : List (Server × Event)} (hr : (serverMachine E).Run r o) :
    ∃ n ∈ limits r, o.state.participants.length ≤ n.toNat := by
  induction hr with
  | nil => exact ⟨_, List.mem_cons_self, Nat.zero_le _⟩
  | @snoc r w e o hr hs ih =>
    rcases growsBelowLimit hs with hle | ⟨-, hlen, hlt⟩
    · obtain ⟨n, hn, hw⟩ := ih
      exact ⟨n, mem_limits_of_prefix hn, hle.trans hw⟩
    · refine ⟨w.maxParticipants, mem_limits_of_prefix (maxParticipants_mem hr), ?_⟩
      omega

end Server

open Server

/-- In every run the room grows only by one and only in a join that has found it under the limit
then in force; so it is never larger than the largest limit there has been, nor than 65535, and
`participants_count` is exact. -/
theorem capacity {E : Env} {r : List (Server × Event)} {o : Outcome Fault Server}
    (hr : (serverMachine E).Run r o) :
    (∀ w e o₁, (w, e) ∈ r → w.step E e = some o₁ → w.GrowsBelowLimit o₁)
    ∧ (∃ n ∈ limits r, o.state.participants.length ≤ n.toNat)
    ∧ o.state.participants.length ≤ 65535
    ∧ o.state.participantsCount.toNat = o.state.participants.length := by
  obtain ⟨n, hn, hle⟩ := length_le_limit hr
  have hlt := n.toNat_lt
  refine ⟨fun w e o₁ _ hs => growsBelowLimit hs, ⟨n, hn, hle⟩, by omega, ?_⟩
  rw [participantsCount, UInt16.toNat_ofNat']
  omega

/-- Two clients join and the limit is lowered to one. -/
theorem capacity_lowered : ∃ r w, (serverMachine .counting).Run r (.ok w)
    ∧ r.map Prod.snd = joins 2 ++ [.setMaxParticipants 1] ∧ w.maxParticipants = 1
    ∧ w.participantsCount.toNat = w.participants.length := by
  have hrun : ((serverMachine .counting).exec Server.init
      (joins 2 ++ [.setMaxParticipants 1])).any
        (Outcome.okAnd fun w => w.maxParticipants = 1) = true := by
    decide +kernel
  obtain ⟨r, w, hr, hes, hw⟩ := Machine.exec_okAnd hrun
  exact ⟨r, w, hr, hes, of_decide_eq_true hw, (capacity hr).2.2.2⟩

end XRNetwork
