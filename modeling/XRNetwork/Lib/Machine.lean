import Mathlib

/-!
# Machines whose steps may fault, and their runs

A call that may fail half way leaves a state whether it returns or faults: `Outcome`. Calls are
sequenced by `andThen`, which stops at the first fault.

A machine has an initial state and a partial step: an event that cannot happen in a state has no
step there, and a step that faults is the last one. A run lists its steps, each with the state
before it, so a condition on the steps of a run is a predicate on the pairs of its list.
-/

/-- How a call ends. The state is the one it leaves, also when it faults. -/
inductive Outcome (φ σ : Type*)
  | ok (s : σ)
  | fault (f : φ) (s : σ)

namespace Outcome

variable {φ σ : Type*}

def andThen : Outcome φ σ → (σ → Outcome φ σ) → Outcome φ σ
  | ok s, f => f s
  | fault e s, _ => fault e s

/-- The call returns and leaves a state that passes the test. -/
def okAnd (p : σ → Bool) : Outcome φ σ → Bool
  | ok s => p s
  | fault _ _ => false

/-- The call ends with this fault. -/
def faultIs [DecidableEq φ] (f : φ) : Outcome φ σ → Bool
  | ok _ => false
  | fault e _ => e = f

def state : Outcome φ σ → σ
  | ok s => s
  | fault _ s => s

/-- The same end in a larger state. -/
def map {τ : Type*} (f : σ → τ) : Outcome φ σ → Outcome φ τ
  | ok s => ok (f s)
  | fault e s => fault e (f s)

@[simp] theorem ok_andThen (s : σ) (f : σ → Outcome φ σ) : (ok s).andThen f = f s := rfl

@[simp] theorem fault_andThen (e : φ) (s : σ) (f : σ → Outcome φ σ) :
    (fault e s : Outcome φ σ).andThen f = fault e s := rfl

@[simp] theorem state_ok (s : σ) : (ok s : Outcome φ σ).state = s := rfl

@[simp] theorem state_fault (e : φ) (s : σ) : (fault e s : Outcome φ σ).state = s := rfl

@[simp] theorem state_map {τ : Type*} (f : σ → τ) (x : Outcome φ σ) :
    (x.map f).state = f x.state := by
  cases x <;> rfl

/-- What two calls each keep, the sequence keeps, faults included. -/
theorem state_andThen {P : σ → Prop} {x : Outcome φ σ} {f : σ → Outcome φ σ} (hx : P x.state)
    (hf : ∀ s, P s → P (f s).state) : P (x.andThen f).state := by
  cases x with
  | ok s => exact hf s hx
  | fault e s => exact hx

theorem andThen_eq_ok {x : Outcome φ σ} {f : σ → Outcome φ σ} {s' : σ} :
    x.andThen f = ok s' ↔ ∃ s, x = ok s ∧ f s = ok s' := by
  cases x <;> simp

end Outcome

structure Machine (φ σ ε : Type*) where
  init : σ
  /-- How the event's handler ends, if the event can happen. -/
  step : σ → ε → Option (Outcome φ σ)

namespace Machine

variable {φ σ ε : Type*} (M : Machine φ σ ε)

/-- `M` runs through the steps `r`, each with the state before it, and ends as the outcome. -/
inductive Run : List (σ × ε) → Outcome φ σ → Prop
  | nil : Run [] (.ok M.init)
  | snoc {r : List (σ × ε)} {s : σ} {e : ε} {o : Outcome φ σ} :
      Run r (.ok s) → M.step s e = some o → Run (r ++ [(s, e)]) o

def Reachable (o : Outcome φ σ) : Prop := ∃ r, M.Run r o

/-- Every step of a run satisfies `P`. -/
def Steps (P : σ → ε → Prop) (r : List (σ × ε)) : Prop := ∀ x ∈ r, P x.1 x.2

/-- Every step of a run, with the steps before it, satisfies `Q`. -/
def Throughout (Q : List (σ × ε) → σ → ε → Prop) (r : List (σ × ε)) : Prop :=
  ∀ r₁ s e, r₁ ++ [(s, e)] <+: r → Q r₁ s e

/-- How a list of events ends, if they can happen in turn. -/
def exec : σ → List ε → Option (Outcome φ σ)
  | s, [] => some (.ok s)
  | s, e :: es =>
    match M.step s e with
    | some (.ok s') => exec s' es
    | some (.fault f s') => if es.isEmpty then some (.fault f s') else none
    | none => none

/-- The steps a list of events makes, as long as they can happen. -/
def trail : σ → List ε → List (σ × ε)
  | _, [] => []
  | s, e :: es =>
    (s, e) :: match M.step s e with
      | some o => trail o.state es
      | none => []

variable {M} {P : σ → ε → Prop} {r : List (σ × ε)} {s s' : σ} {e : ε} {o : Outcome φ σ}

theorem steps_snoc : Steps P (r ++ [(s, e)]) ↔ Steps P r ∧ P s e := by
  simp [Steps, or_imp, forall_and]

theorem throughout_nil {Q : List (σ × ε) → σ → ε → Prop} : Throughout Q [] := by
  intro r₁ s e h
  simp at h

theorem throughout_snoc {Q : List (σ × ε) → σ → ε → Prop} :
    Throughout Q (r ++ [(s, e)]) ↔ Throughout Q r ∧ Q r s e := by
  constructor
  · intro h
    exact ⟨fun r₁ s₁ e₁ hp => h r₁ s₁ e₁ (hp.trans (List.prefix_append _ _)),
      h r s e List.prefix_rfl⟩
  · rintro ⟨h, hlast⟩ r₁ s₁ e₁ hp
    rcases List.prefix_concat_iff.1 hp with hp | hp
    · obtain ⟨rfl, hx⟩ := List.append_inj' hp rfl
      obtain ⟨rfl, rfl⟩ := Prod.mk.inj (List.singleton_inj.1 hx)
      exact hlast
    · exact h r₁ s₁ e₁ hp

theorem reachable_init : M.Reachable (.ok M.init) := ⟨[], .nil⟩

theorem Reachable.step (h : M.Reachable (.ok s)) (hs : M.step s e = some o) : M.Reachable o :=
  h.elim fun _ hr => ⟨_, hr.snoc hs⟩

theorem run_snoc : M.Run (r ++ [(s, e)]) o ↔ M.Run r (.ok s) ∧ M.step s e = some o := by
  constructor
  · intro h
    generalize hr : r ++ [(s, e)] = r' at h
    cases h with
    | nil => simp at hr
    | snoc h hs =>
      obtain ⟨rfl, hx⟩ := List.append_inj' hr rfl
      obtain ⟨rfl, rfl⟩ := Prod.mk.inj (List.singleton_inj.1 hx)
      exact ⟨h, hs⟩
  · rintro ⟨h, hs⟩
    exact h.snoc hs

/-- What holds at the start and is kept by every step satisfying `P`, a last one that faults
included, holds after every run of such steps. -/
theorem Run.invariant {I : σ → Prop} (h0 : I M.init)
    (hstep : ∀ s e o, M.Reachable (.ok s) → I s → P s e → M.step s e = some o → I o.state)
    (hr : M.Run r o) (hP : Steps P r) : I o.state := by
  induction hr with
  | nil => exact h0
  | snoc hr hs ih =>
    obtain ⟨hP', he⟩ := steps_snoc.1 hP
    exact hstep _ _ _ ⟨_, hr⟩ (ih hP') he hs

/-- The same for what need only hold between handlers. -/
theorem Run.invariant_ok {I : σ → Prop} (h0 : I M.init)
    (hstep : ∀ s e s', M.Reachable (.ok s) → I s → P s e → M.step s e = some (.ok s') → I s')
    (hr : M.Run r (.ok s)) (hP : Steps P r) : I s := by
  generalize ho : Outcome.ok s = o at hr
  induction hr generalizing s with
  | nil => cases ho; exact h0
  | snoc hr hs ih =>
    obtain ⟨hP', he⟩ := steps_snoc.1 hP
    subst ho
    exact hstep _ _ _ ⟨_, hr⟩ (ih hP' rfl) he hs

/-- What is false at the start and becomes true by steps satisfying `P` alone is true after a run if
it has had such a step. -/
theorem Run.history {H : σ → Prop} (h0 : ¬ H M.init)
    (hstep : ∀ s e s', M.Reachable (.ok s) → M.step s e = some (.ok s') → (H s' ↔ H s ∨ P s e))
    (hr : M.Run r (.ok s)) : H s ↔ ∃ x ∈ r, P x.1 x.2 := by
  generalize ho : Outcome.ok s = o at hr
  induction hr generalizing s with
  | nil => cases ho; simpa using h0
  | snoc hr hs ih =>
    subst ho
    rw [hstep _ _ _ ⟨_, hr⟩ hs, ih rfl]
    simp [or_and_right, exists_or]

theorem Run.of_prefix (hr : M.Run r o) {r₁ : List (σ × ε)} (h : r₁ ++ [(s, e)] <+: r) :
    M.Run r₁ (.ok s) ∧ ∃ o₁, M.step s e = some o₁ := by
  induction hr with
  | nil => simp at h
  | snoc hr hs ih =>
    rcases List.prefix_concat_iff.1 h with h | h
    · obtain ⟨rfl, hlast⟩ := List.append_inj' h rfl
      obtain ⟨rfl, rfl⟩ := Prod.mk.inj (List.singleton_inj.1 hlast)
      exact ⟨hr, _, hs⟩
    · exact ih h

theorem Reachable.invariant {I : σ → Prop} (h0 : I M.init)
    (hstep : ∀ s e o, M.Reachable (.ok s) → I s → M.step s e = some o → I o.state)
    (h : M.Reachable o) : I o.state := by
  obtain ⟨r, hr⟩ := h
  exact hr.invariant (P := fun _ _ => True) h0 (fun s e o h hI _ => hstep s e o h hI)
    (fun _ _ => trivial)

theorem Run.before (hr : M.Run r o) (h : (s, e) ∈ r) :
    ∃ r₀ o₁, M.Run r₀ (.ok s) ∧ M.step s e = some o₁ ∧ (r₀ ++ [(s, e)]) <+: r := by
  induction hr with
  | nil => simp at h
  | @snoc r _ _ _ hr hs ih =>
    rcases List.mem_append.1 h with h | h
    · obtain ⟨r₀, s₁, h1, h2, h3⟩ := ih h
      exact ⟨r₀, s₁, h1, h2, h3.trans (List.prefix_append _ _)⟩
    · obtain ⟨rfl, rfl⟩ := Prod.mk.inj (List.mem_singleton.1 h)
      exact ⟨r, _, hr, hs, List.prefix_rfl⟩

/-- A transitive relation every step keeps holds between what a step of a run leaves and what the
run leaves. -/
theorem Run.after {R : σ → σ → Prop} (hrefl : ∀ s, R s s) (htrans : ∀ a b c, R a b → R b c → R a c)
    (hstep : ∀ s e o, M.Reachable (.ok s) → M.step s e = some o → R s o.state) (hr : M.Run r o)
    (h : (s, e) ∈ r) : ∃ o₁, M.step s e = some o₁ ∧ R o₁.state o.state := by
  induction hr with
  | nil => simp at h
  | snoc hr hs ih =>
    rcases List.mem_append.1 h with h | h
    · obtain ⟨o₁, h1, h2⟩ := ih h
      exact ⟨o₁, h1, htrans _ _ _ h2 (hstep _ _ _ ⟨_, hr⟩ hs)⟩
    · obtain ⟨rfl, rfl⟩ := Prod.mk.inj (List.mem_singleton.1 h)
      exact ⟨_, hs, hrefl _⟩

/-- The same from the state before the step. -/
theorem Run.later {R : σ → σ → Prop} (hrefl : ∀ s, R s s) (htrans : ∀ a b c, R a b → R b c → R a c)
    (hstep : ∀ s e o, M.Reachable (.ok s) → M.step s e = some o → R s o.state) (hr : M.Run r o)
    (h : (s, e) ∈ r) : R s o.state := by
  obtain ⟨r₀, -, hr₀, -, -⟩ := hr.before h
  obtain ⟨o₁, hs, h'⟩ := hr.after hrefl htrans hstep h
  exact htrans _ _ _ (hstep _ _ _ ⟨r₀, hr₀⟩ hs) h'

/-- Every step of a run that has not faulted has returned. -/
theorem Run.returned (hr : M.Run r (.ok s)) {x : σ × ε} (hx : x ∈ r) :
    M.Reachable (.ok x.1) ∧ ∃ s', M.step x.1 x.2 = some (.ok s') := by
  generalize ho : Outcome.ok s = o at hr
  induction hr generalizing s with
  | nil => simp at hx
  | snoc hr hs ih =>
    subst ho
    rcases List.mem_append.1 hx with hx | hx
    · exact ih hx rfl
    · obtain rfl := List.mem_singleton.1 hx
      exact ⟨⟨_, hr⟩, _, hs⟩

/-- What every step that returns satisfies with those before it, a run satisfies throughout. -/
theorem Run.throughout {Q : List (σ × ε) → σ → ε → Prop}
    (hstep : ∀ r s e s', M.Run r (.ok s) → M.step s e = some (.ok s') → Q r s e)
    (hr : M.Run r (.ok s)) : Throughout Q r := by
  generalize ho : Outcome.ok s = o at hr
  induction hr generalizing s with
  | nil => exact throughout_nil
  | snoc hr hs ih =>
    subst ho
    exact throughout_snoc.2 ⟨ih rfl, hstep _ _ _ _ hr hs⟩

theorem map_trail : ∀ {es : List ε} {s : σ}, M.exec s es = some o →
    (M.trail s es).map Prod.snd = es
  | [], _, _ => rfl
  | e :: es, s, h => by
    rcases hs : M.step s e with _ | ⟨s₁ | ⟨f, s₁⟩⟩ <;> simp only [exec, hs] at h
    · cases h
    · simp [trail, hs, map_trail h]
    · split_ifs at h with hes
      obtain rfl : es = [] := by simpa using hes
      simp [trail, hs]

theorem Run.exec : ∀ {es : List ε} {r : List (σ × ε)} {s : σ}, M.Run r (.ok s) →
    M.exec s es = some o → M.Run (r ++ M.trail s es) o
  | [], r, s, hr, h => by
    obtain rfl : Outcome.ok s = o := by simpa [Machine.exec] using h
    simpa [trail] using hr
  | e :: es, r, s, hr, h => by
    rcases hs : M.step s e with _ | ⟨s₁ | ⟨f, s₁⟩⟩ <;> simp only [Machine.exec, hs] at h
    · cases h
    · simpa [trail, hs] using Run.exec (hr.snoc hs) h
    · split_ifs at h with hes
      obtain rfl : es = [] := by simpa using hes
      cases h
      simpa [trail, hs] using hr.snoc hs

theorem exec_cons_ok {es : List ε} : M.exec s (e :: es) = some (.ok s') ↔
    ∃ s₁, M.step s e = some (.ok s₁) ∧ M.exec s₁ es = some (.ok s') := by
  rcases hs : M.step s e with _ | ⟨s₁ | ⟨f, s₁⟩⟩ <;> simp only [exec, hs]
  · simp
  · simp
  · split_ifs <;> simp

theorem exec_run {es : List ε} (h : M.exec M.init es = some o) : M.Run (M.trail M.init es) o := by
  simpa using Run.nil.exec h

/-- A run found by executing its events. -/
theorem exec_trail {es : List ε} {p : σ → Bool}
    (h : (M.exec M.init es).any (Outcome.okAnd p) = true) :
    ∃ s, M.Run (M.trail M.init es) (.ok s) ∧ (M.trail M.init es).map Prod.snd = es
      ∧ p s = true := by
  rcases ho : M.exec M.init es with _ | ⟨s | _⟩ <;> rw [ho] at h
  · cases h
  · exact ⟨s, exec_run ho, map_trail ho, h⟩
  · cases h

theorem exec_okAnd {es : List ε} {p : σ → Bool}
    (h : (M.exec M.init es).any (Outcome.okAnd p) = true) :
    ∃ r s, M.Run r (.ok s) ∧ r.map Prod.snd = es ∧ p s = true :=
  ⟨_, exec_trail h⟩

theorem exec_faultIs [DecidableEq φ] {es : List ε} {f : φ}
    (h : (M.exec M.init es).any (Outcome.faultIs f) = true) :
    ∃ r s, M.Run r (.fault f s) ∧ r.map Prod.snd = es := by
  rcases ho : M.exec M.init es with _ | ⟨_ | ⟨e, s⟩⟩ <;> rw [ho] at h
  · cases h
  · cases h
  · obtain rfl : e = f := of_decide_eq_true h
    exact ⟨_, s, exec_run ho, map_trail ho⟩

/-- The machine that only takes steps passing a test. -/
def restrict (M : Machine φ σ ε) (p : σ → ε → Bool) : Machine φ σ ε :=
  ⟨M.init, fun s e => if p s e then M.step s e else none⟩

/-- The runs of the restricted machine are the machine's whose steps pass the test. -/
theorem restrict_run {p : σ → ε → Bool} (h : (M.restrict p).Run r o) :
    M.Run r o ∧ Steps (fun s e => p s e = true) r := by
  induction h with
  | nil => exact ⟨.nil, by simp [Steps]⟩
  | @snoc r s e o _ hs ih =>
    simp only [restrict] at hs
    split_ifs at hs with hp
    exact ⟨ih.1.snoc hs, steps_snoc.2 ⟨ih.2, hp⟩⟩

end Machine
