import XRNetwork.Lib.Simulation

/-!
# Audiences

An audience has members, and each of them a list of what it has been told. What is cast to it
reaches those who are in it then, and all of them in one order: what a member is told while it
stays is a matter of the events alone (`stretch`).
-/

@[ext] structure Audience (ι μ : Type*) where
  members : Set ι
  inbox : ι → List μ

inductive AudienceEvent (ι μ : Type*)
  | enter (a : ι)
  | leave (a : ι)
  /-- All members but those of the set are told. -/
  | cast (except : Set ι) (m : μ)
  /-- One member is told. -/
  | send (a : ι) (ms : List μ)

open Classical in
/-- What the event has for a member. -/
noncomputable def AudienceEvent.part {ι μ : Type*} (a : ι) : AudienceEvent ι μ → List μ
  | enter _ | leave _ => []
  | cast except m => if a ∈ except then [] else [m]
  | send b ms => if a = b then ms else []

namespace Audience

variable {ι μ : Type*}

/-- Nobody is there. -/
def empty : Audience ι μ := ⟨∅, fun _ => []⟩

open Classical in
/-- Whoever is a member is told its part of the event. -/
noncomputable def tell (g : Audience ι μ) (e : AudienceEvent ι μ) : Audience ι μ :=
  { g with inbox := fun a => if a ∈ g.members then g.inbox a ++ e.part a else g.inbox a }

open Classical in
noncomputable def step (g : Audience ι μ) (e : AudienceEvent ι μ) : Option (Outcome Empty (Audience ι μ)) :=
  match e with
  | .enter a => if a ∈ g.members then none else some (.ok { g with members := insert a g.members })
  | .leave a => if a ∈ g.members then some (.ok { g with members := g.members \ {a} }) else none
  | .cast .. => some (.ok (g.tell e))
  | .send a _ => if a ∈ g.members then some (.ok (g.tell e)) else none

end Audience

noncomputable def audienceMachine (ι μ : Type*) : Machine Empty (Audience ι μ) (AudienceEvent ι μ) :=
  ⟨Audience.empty, Audience.step⟩

namespace Audience

variable {ι μ : Type*} {g g' : Audience ι μ} {e : AudienceEvent ι μ} {a : ι}

theorem step_enter (h : a ∉ g.members) :
    g.step (.enter a) = some (.ok { g with members := insert a g.members }) := if_neg h

theorem step_leave (h : a ∈ g.members) :
    g.step (.leave a) = some (.ok { g with members := g.members \ {a} }) := if_pos h

theorem step_send {ms : List μ} (h : a ∈ g.members) :
    g.step (.send a ms) = some (.ok (g.tell (.send a ms))) := if_pos h

/-- A member that does not leave is told its part. -/
theorem member_step (h : g.step e = some (.ok g')) (ha : a ∈ g.members) (he : e ≠ .leave a) :
    a ∈ g'.members ∧ g'.inbox a = g.inbox a ++ e.part a := by
  cases e with
  | enter b =>
    simp only [step] at h
    split_ifs at h
    cases h
    exact ⟨.inr ha, (List.append_nil _).symm⟩
  | leave b =>
    simp only [step] at h
    split_ifs at h
    cases h
    have hne : a ≠ b := fun hab => he (hab ▸ rfl)
    exact ⟨⟨ha, hne⟩, (List.append_nil _).symm⟩
  | cast except m =>
    cases h
    exact ⟨ha, if_pos ha⟩
  | send b ms =>
    simp only [step] at h
    split_ifs at h
    cases h
    exact ⟨ha, if_pos ha⟩

/-- As long as a member stays, it is told its part of all there is, in order. -/
theorem stretch : ∀ {es : List (AudienceEvent ι μ)} {g : Audience ι μ},
    (audienceMachine ι μ).exec g es = some (.ok g') → a ∈ g.members → .leave a ∉ es →
      a ∈ g'.members ∧ g'.inbox a = g.inbox a ++ es.flatMap (AudienceEvent.part a)
  | [], g, h, ha, _ => by
    obtain rfl : g = g' := by simpa [Machine.exec] using h
    exact ⟨ha, (List.append_nil _).symm⟩
  | e :: es, g, h, ha, hes => by
    obtain ⟨g₁, hs, hexec⟩ := Machine.exec_cons_ok.1 h
    obtain ⟨hne, hes⟩ := not_or.1 (List.mem_cons.not.1 hes)
    obtain ⟨ha₁, hin⟩ := member_step hs ha (Ne.symm hne)
    obtain ⟨ha', hin'⟩ := stretch hexec ha₁ hes
    refine ⟨ha', ?_⟩
    rw [hin', hin, List.append_assoc, List.flatMap_cons]

end Audience
