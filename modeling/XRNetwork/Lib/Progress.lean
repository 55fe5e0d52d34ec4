import XRNetwork.Lib.Simulation

/-!
# Machines that come to rest

Where every state that is not at rest has a step that brings it nearer to it, rest is reached.
-/

namespace Machine

variable {φ σ ε : Type*} {M : Machine φ σ ε}

theorem Reachable.exec {s : σ} {es : List ε} {o : Outcome φ σ} (h : M.Reachable (.ok s))
    (hs : M.exec s es = some o) : M.Reachable o :=
  h.elim fun _ hr => ⟨_, hr.exec hs⟩

theorem exec_invariant {I : σ → Prop}
    (hstep : ∀ s e s', I s → M.step s e = some (.ok s') → I s') :
    ∀ {es : List ε} {s s' : σ}, I s → M.exec s es = some (.ok s') → I s'
  | [], s, s', hI, h => by
    obtain rfl : s = s' := by simpa [Machine.exec] using h
    exact hI
  | e :: es, s, s', hI, h => by
    obtain ⟨s₁, hs, hexec⟩ := exec_cons_ok.1 h
    exact exec_invariant hstep (hstep s e s₁ hI hs) hexec

/-- Steps `P` that keep `I` and bring `μ` down lead to a state at rest, in `R`. -/
theorem exec_until {I R : σ → Prop} {P : ε → Prop} (μ : σ → ℕ)
    (hstep : ∀ s, I s → ¬ R s → ∃ e s', P e ∧ M.step s e = some (.ok s') ∧ I s' ∧ μ s' < μ s) :
    ∀ s, I s → ∃ es s', (∀ e ∈ es, P e) ∧ M.exec s es = some (.ok s') ∧ I s' ∧ R s' := by
  intro s
  induction hn : μ s using Nat.strong_induction_on generalizing s with
  | _ n ih =>
    intro hI
    by_cases hrest : R s
    · exact ⟨[], s, by simp, rfl, hI, hrest⟩
    obtain ⟨e, s₁, he, hs, hI₁, hlt⟩ := hstep s hI hrest
    obtain ⟨es, s', hes, hexec, hI', hrest'⟩ := ih (μ s₁) (hn ▸ hlt) s₁ rfl hI₁
    exact ⟨e :: es, s', by simpa using ⟨he, hes⟩, exec_cons_ok.2 ⟨s₁, hs, hexec⟩, hI', hrest'⟩

end Machine
