import XRNetwork.Lib.Machine

/-!
# A machine that follows another

A machine follows another along a function of its states when what each of its steps does there is a
row of steps of the other, possibly of none. Then every run of the one is a run of the other, and
what is known of the other's runs is known of the one's.
-/

namespace Outcome

variable {φ σ τ : Type*}

theorem map_eq_ok {f : σ → τ} {x : Outcome φ σ} {y : τ} :
    x.map f = .ok y ↔ ∃ a, x = .ok a ∧ f a = y := by
  cases x <;> simp [Outcome.map]

/-- The fault the call ends with, if it does. -/
def error : Outcome φ σ → Option φ
  | ok _ => none
  | fault f _ => some f

@[simp] theorem error_ok (s : σ) : (ok s : Outcome φ σ).error = none := rfl

@[simp] theorem error_fault (f : φ) (s : σ) : (fault f s : Outcome φ σ).error = some f := rfl

theorem error_eq_none {x : Outcome φ σ} : x.error = none ↔ ∃ s, x = ok s := by
  cases x <;> simp

/-- A sequence whose second part always returns. -/
theorem error_andThen_ok {x : Outcome φ σ} {f : σ → σ} :
    (x.andThen fun s => ok (f s)).error = x.error := by
  cases x <;> rfl

end Outcome

namespace Machine

variable {φ ψ σ τ ε δ : Type*} {M : Machine φ σ ε} {A : Machine ψ τ δ}

theorem exec_append {s s' : σ} {es es' : List ε} : M.exec s (es ++ es') = some (.ok s') ↔
    ∃ s₁, M.exec s es = some (.ok s₁) ∧ M.exec s₁ es' = some (.ok s') := by
  induction es generalizing s with
  | nil => simp [exec]
  | cons e es ih =>
    simp only [List.cons_append, exec_cons_ok, ih]
    constructor
    · rintro ⟨s₁, h1, s₂, h2, h3⟩
      exact ⟨s₂, ⟨s₁, h1, h2⟩, h3⟩
    · rintro ⟨s₂, ⟨s₁, h1, h2⟩, h3⟩
      exact ⟨s₁, h1, s₂, h2, h3⟩

theorem exec_singleton {s s' : σ} {e : ε} :
    M.exec s [e] = some (.ok s') ↔ M.step s e = some (.ok s') := by
  rw [exec_cons_ok]
  simp [exec]

theorem Run.eq {r : List (σ × ε)} {o o' : Outcome φ σ} (h : M.Run r o) (h' : M.Run r o') :
    o = o' := by
  cases h with
  | nil =>
    generalize hr : [] = r at h'
    cases h' with
    | nil => rfl
    | snoc => simp at hr
  | snoc h hs =>
    obtain ⟨-, hs'⟩ := run_snoc.1 h'
    exact Option.some.inj (hs.symm.trans hs')

/-- A transitive relation every step keeps holds between any two states of a run. -/
theorem Run.le_of_prefix {R : σ → σ → Prop} {r r' : List (σ × ε)} {s : σ} {o : Outcome φ σ}
    (hr : M.Run (r ++ r') o) (hr₁ : M.Run r (.ok s)) (hrefl : ∀ s, R s s)
    (htrans : ∀ a b c, R a b → R b c → R a c)
    (hstep : ∀ s e o, M.Reachable (.ok s) → M.step s e = some o → R s o.state) : R s o.state := by
  rcases r' with _ | ⟨⟨t, e⟩, r'⟩
  · rw [List.append_nil] at hr
    obtain rfl := hr₁.eq hr
    exact hrefl s
  · have hpre : r ++ [(t, e)] <+: r ++ (t, e) :: r' := ⟨r', by simp⟩
    obtain ⟨ht, -⟩ := hr.of_prefix hpre
    obtain rfl := Outcome.ok.inj (hr₁.eq ht)
    exact hr.later (e := e) hrefl htrans hstep (by simp)

/-- `M` follows `A` in the runs whose steps satisfy `P`: `I` is an invariant of these, and a step
`e` from a state `s` of them is the steps `g s e` of `A`. -/
structure Follows (M : Machine φ σ ε) (A : Machine ψ τ δ) (P : σ → ε → Prop) (I : σ → Prop)
    (f : σ → τ) (g : σ → ε → List δ) : Prop where
  holds : I M.init
  init : f M.init = A.init
  step : ∀ s e s', M.Reachable (.ok s) → I s → P s e → M.step s e = some (.ok s') →
    I s' ∧ A.exec (f s) (g s e) = some (.ok (f s'))

namespace Follows

variable {P : σ → ε → Prop} {I : σ → Prop} {f : σ → τ} {g : σ → ε → List δ} {r : List (σ × ε)}
  {s : σ}

theorem run (h : Follows M A P I f g) (hr : M.Run r (.ok s)) (hP : Steps P r) :
    I s ∧ A.exec A.init (r.flatMap fun x => g x.1 x.2) = some (.ok (f s)) := by
  generalize ho : Outcome.ok s = o at hr
  induction hr generalizing s with
  | nil =>
    cases ho
    exact ⟨h.holds, by simp [exec, h.init]⟩
  | snoc hr hs ih =>
    subst ho
    obtain ⟨hP, he⟩ := steps_snoc.1 hP
    obtain ⟨hI, hexec⟩ := ih hP rfl
    obtain ⟨hI', hstep⟩ := h.step _ _ _ ⟨_, hr⟩ hI he hs
    refine ⟨hI', ?_⟩
    rw [List.flatMap_append, List.flatMap_singleton]
    exact exec_append.2 ⟨_, hexec, hstep⟩

theorem reachable (h : Follows M A P I f g) (hr : M.Run r (.ok s)) (hP : Steps P r) :
    A.Reachable (.ok (f s)) :=
  ⟨_, exec_run (h.run hr hP).2⟩

end Follows

end Machine
