import XRNetwork.Service
import XRNetwork.Proofs.Sides
import XRNetwork.Lib.Since

/-!
# The service thread

`start()` decides on a flag that the thread it creates sets late and clears of its own accord, and a
`std::thread` that has not been joined may neither be overwritten nor destroyed. The pointer always
holds the thread created last, so this goes well exactly in the runs that create no thread, and do
not destroy the service, before a `stop()` that has found the flag set is back from joining the one
before (`thread_lifecycle_iff`). That there is one thread at a time follows.
-/

namespace XRNetwork

namespace Service

variable {E : Env} {s : Service} {e : ServiceEvent} {o : Outcome ServiceFault Service}

/-- A thread has been created, and no `stop()` has joined it since. -/
def Owing (r : List (Service × ServiceEvent)) : Prop :=
  Since (fun x => ∃ k, x.2 = .create k) (fun x => ∀ k, x.2 ≠ .join k) r

/-- A thread is created, or the service destroyed, when no thread is owing. -/
def InTurn (r : List (Service × ServiceEvent)) (_ : Service) : ServiceEvent → Prop
  | .create _ | .free => ¬ Owing r
  | _ => True

/-- At most one thread is in `thread_function`. -/
def OneThread (s : Service) : Prop :=
  ∀ (i j : ℕ) (p q : ThreadPhase), s.threads[i]? = some p → s.threads[j]? = some q →
    p.executing = true → q.executing = true → i = j

/-! ## What a step does to the threads -/

inductive ThreadsCase (s : Service) (o : Outcome ServiceFault Service) : ServiceEvent → Prop
  | created (k : ℕ) (ht : o.state.threads = s.threads ++ [.created])
      (hp : o.state.threadPtr = some s.threads.length)
      (ho : (∃ s', o = .fault .terminate s') ↔ s.holdsThread = true) : ThreadsCase s o (.create k)
  | joined (k i : ℕ) (hptr : s.threadPtr = some i) (ht : o.state.threads = s.threads.set i .joined)
      (hp : o.state.threadPtr = s.threadPtr) (ho : ¬ ∃ s', o = .fault .terminate s') :
      ThreadsCase s o (.join k)
  | ran (i : ℕ) (t : ThreadStep) {p p' : ThreadPhase} (hi : s.threads[i]? = some p)
      (hex : p.executing = true) (hp' : p' ≠ .joined)
      (hserver : p'.hasServer = true → p.hasServer = true ∨ t = .construct)
      (ht : o.state.threads = s.threads.set i p')
      (hp : o.state.threadPtr = s.threadPtr) (ho : ¬ ∃ s', o = .fault .terminate s') :
      ThreadsCase s o (.thread i t)
  | freed (ht : o.state.threads = s.threads) (hp : o.state.threadPtr = s.threadPtr)
      (ho : (∃ s', o = .fault .terminate s') ↔ s.holdsThread = true) : ThreadsCase s o .free
  | same {e : ServiceEvent} (ht : o.state.threads = s.threads)
      (hp : o.state.threadPtr = s.threadPtr) (hcreate : ∀ k, e ≠ .create k) (hfree : e ≠ .free)
      (hjoin : ∀ k, e = .join k → s.holdsThread = false)
      (ho : ¬ ∃ s', o = .fault .terminate s') : ThreadsCase s o e

@[simp] theorem callServer_threads (e : Event) : (s.callServer E e).threads = s.threads := by
  unfold callServer
  split
  · rfl
  · split <;> rfl

@[simp] theorem callServer_threadPtr (e : Event) :
    (s.callServer E e).threadPtr = s.threadPtr := by
  unfold callServer
  split
  · rfl
  · split <;> rfl

theorem runCall_threads (c : ServiceCall) :
    (s.runCall E c).threads = s.threads ∧ (s.runCall E c).threadPtr = s.threadPtr := by
  cases c <;> simp only [runCall, callIfRunning] <;> (try split_ifs) <;> simp

theorem set_self {i : ℕ} {p : ThreadPhase} (hi : s.threads[i]? = some p) :
    s.threads.set i p = s.threads := by
  obtain ⟨hlt, rfl⟩ := List.getElem?_eq_some_iff.1 hi
  exact List.set_getElem_self hlt

/-- A handler is one of a generation, runs as a step of its server, and returns, ends the thread's
loop, or ends everything. -/
theorem runHandler_cases {i k : ℕ} {e : Event} (h : s.runHandler E i k e = some o) :
    ∃ g o', s.generations[k]? = some g ∧ e.isHandler = true ∧ g.server.step E e = some o'
      ∧ (o = .fault .dangling s ∧ s.replaced k = true
        ∨ ∃ s', s' = s.setGeneration k { g with server := o'.state }
          ∧ (o = .ok s' ∨ o = .ok (s'.setThread i .leaving) ∨ o = .fault .uncaught s'
            ∨ ∃ f, o = .fault (.crash f) s')) := by
  unfold runHandler at h
  rcases hg : s.generations[k]? with _ | g <;> simp only [hg] at h
  · cases h
  by_cases he : e.isHandler = true
  swap
  · simp [he] at h
  rcases hs : g.server.step E e with _ | o' <;> simp only [he, hs, if_true] at h
  · cases h
  refine ⟨g, o', rfl, he, hs, ?_⟩
  split_ifs at h with hr
  · exact .inl ⟨(Option.some.inj h).symm, (Bool.and_eq_true_iff.1 hr).1⟩
  refine .inr ⟨_, rfl, ?_⟩
  split at h
  · exact .inl (Option.some.inj h).symm
  · split_ifs at h
    · exact .inr (.inr (.inl (Option.some.inj h).symm))
    · exact .inr (.inl (Option.some.inj h).symm)
  · exact .inr (.inr (.inr ⟨_, (Option.some.inj h).symm⟩))

theorem runHandler_threads {i k : ℕ} {e : Event} (h : s.runHandler E i k e = some o) :
    (o.state.threads = s.threads ∨ o.state.threads = s.threads.set i .leaving)
      ∧ o.state.threadPtr = s.threadPtr ∧ ¬ ∃ s', o = .fault .terminate s' := by
  obtain ⟨g, o', -, -, -, ⟨rfl, -⟩ | ⟨s', rfl, rfl | rfl | rfl | ⟨f, rfl⟩⟩⟩ :=
    runHandler_cases h <;>
    simp [setGeneration, setThread]

theorem runStartHandler_threads {k : ℕ} (h : s.runStartHandler k = some o) :
    o.state.threads = s.threads ∧ o.state.threadPtr = s.threadPtr
      ∧ ¬ ∃ s', o = .fault .terminate s' := by
  unfold runStartHandler at h
  split at h
  · cases h
  · split_ifs at h <;> cases h <;> simp [setGeneration]

theorem ran_setThread {i : ℕ} {t : ThreadStep} {p p' : ThreadPhase} {s' : Service}
    (hi : s.threads[i]? = some p) (hex : p.executing = true) (ht : s'.threads = s.threads)
    (hp : s'.threadPtr = s.threadPtr) (hp' : p' ≠ .joined)
    (hserver : p'.hasServer = true → p.hasServer = true ∨ t = .construct) :
    ThreadsCase s (.ok (s'.setThread i p')) (.thread i t) :=
  .ran i t hi hex hp' hserver (by simp [setThread, ht]) hp (by simp)

theorem threadStep_cases {i : ℕ} {p : ThreadPhase} {t : ThreadStep} (hi : s.threads[i]? = some p)
    (h : s.threadStep E i p t = some o) : ThreadsCase s o (.thread i t) := by
  have hsame := set_self hi
  unfold threadStep at h
  split at h
  case h_2 =>
    cases h
    exact ran_setThread hi rfl (by simp [newServer]) (by simp [newServer]) (by simp)
      (fun _ => .inr rfl)
  case h_5 =>
    cases h
    exact ran_setThread hi rfl (by simp [configure]) (by simp [configure]) (by simp)
      (fun _ => .inl rfl)
  case h_7 =>
    cases h
    exact .ran i _ hi rfl (by simp) (by simp [ThreadPhase.hasServer]) hsame.symm rfl (by simp)
  case h_8 k e =>
    split_ifs at h
    obtain ⟨ht, hp, ho⟩ := runHandler_threads h
    rcases ht with ht | ht
    · exact .ran i _ hi rfl (by simp) (fun _ => .inl rfl) (ht.trans hsame.symm) hp ho
    · exact .ran i _ hi rfl (by simp) (fun _ => .inl rfl) ht hp ho
  case h_9 k =>
    split_ifs at h
    obtain ⟨ht, hp, ho⟩ := runStartHandler_threads h
    exact .ran i _ hi rfl (by simp) (fun _ => .inl rfl) (ht.trans hsame.symm) hp ho
  case h_10 =>
    split at h
    · cases h
      exact ran_setThread hi rfl rfl rfl (by simp) (by simp [ThreadPhase.hasServer])
    · cases h
  case h_13 => cases h
  all_goals
    cases h
    exact ran_setThread hi rfl rfl rfl (by simp) (by simp [ThreadPhase.hasServer])

/-- There are no others. -/
theorem step_threads (hs : s.step E e = some o) : ThreadsCase s o e := by
  cases e with
  | thread i t =>
    simp only [step] at hs
    split at hs
    · cases hs
    · rename_i p hi
      exact threadStep_cases hi hs
  | create k =>
    simp only [step] at hs
    split_ifs at hs with hk hh <;> cases hs
    · exact .created k rfl rfl (by simp [hh])
    · exact .created k rfl rfl (by simp [hh])
  | free =>
    simp only [step] at hs
    split_ifs at hs with hk hh <;> cases hs
    · exact .freed rfl rfl (by simp [hh])
    · exact .freed rfl rfl (by simp [hh])
  | join k =>
    simp only [step] at hs
    split_ifs at hs
    split at hs
    · rename_i hp
      cases hs
      exact .same rfl rfl (by simp) (by simp) (by simp [holdsThread, hp]) (by simp)
    · rename_i i hp
      split at hs
      · cases hs
        exact .joined k i hp rfl rfl (by simp)
      · rename_i hi
        cases hs
        exact .same rfl rfl (by simp) (by simp) (by simp [holdsThread, hp, hi]) (by simp)
      · cases hs
  | call c =>
    simp only [step] at hs
    split_ifs at hs
    cases hs
    obtain ⟨ht, hp⟩ := runCall_threads (E := E) (s := s) c
    exact .same ht hp (by simp) (by simp) (by simp) (by simp)
  | stopServer k c =>
    cases c <;> simp only [step] at hs <;> split_ifs at hs <;> cases hs <;>
      exact .same (by simp [setCall]) (by simp [setCall]) (by simp) (by simp) (by simp) (by simp)
  | start | stop | createFailed k | stopContext k | joinThrows k | destroy =>
    simp only [step] at hs
    split_ifs at hs <;> cases hs <;> exact .same rfl rfl (by simp) (by simp) (by simp) (by simp)

/-! ## Over a run -/

/-- A thread that has not been joined is the one in the pointer. -/
structure Held (s : Service) : Prop where
  only : ∀ i p, s.threads[i]? = some p → p ≠ .joined → s.threadPtr = some i
  inRange : ∀ i, s.threadPtr = some i → i < s.threads.length

theorem Held.oneThread (h : Held s) : OneThread s := by
  intro i j p q hi hj hp hq
  have hpi := h.only i p hi (by rintro rfl; cases hp)
  have hpj := h.only j q hj (by rintro rfl; cases hq)
  exact Option.some.inj (hpi.symm.trans hpj)

/-- The pointer holds a thread to join exactly when there is one. -/
theorem Held.holdsThread_iff (h : Held s) :
    s.holdsThread = true ↔ ∃ (i : ℕ) (p : ThreadPhase), s.threads[i]? = some p ∧ p ≠ .joined := by
  constructor
  · intro hh
    unfold holdsThread at hh
    rcases hp : s.threadPtr with _ | i <;> simp only [hp] at hh
    · cases hh
    · refine ⟨i, _, List.getElem?_eq_getElem (h.inRange i hp), ?_⟩
      rw [decide_eq_true_eq, List.getElem?_eq_getElem (h.inRange i hp)] at hh
      exact fun hj => hh (congrArg some hj)
  · rintro ⟨i, p, hi, hj⟩
    simpa [holdsThread, h.only i p hi hj, hi] using hj

theorem held_step (h : Held s) (hc : ThreadsCase s o e) (hno : ¬ ∃ s', o = .fault .terminate s') :
    Held o.state := by
  cases hc with
  | created k ht hp ho =>
    have hall : ∀ (i : ℕ) (p : ThreadPhase), s.threads[i]? = some p → p = .joined := by
      intro i p hi
      by_contra hj
      exact hno (ho.2 (h.holdsThread_iff.2 ⟨i, p, hi, hj⟩))
    refine ⟨fun i p hi hj => ?_, fun i hi => ?_⟩
    · rw [ht, List.getElem?_append] at hi
      split_ifs at hi with hlt
      · exact absurd (hall i p hi) hj
      · obtain ⟨hi', -⟩ := List.getElem?_eq_some_iff.1 hi
        obtain rfl : i = s.threads.length := by simp at hi'; omega
        exact hp
    · rw [hp] at hi
      obtain rfl := Option.some.inj hi
      simp [ht]
  | joined k i hptr ht hp =>
    refine ⟨fun j p hj hne => ?_, fun j hj => ?_⟩
    · rw [ht, List.getElem?_set] at hj
      rw [hp]
      split_ifs at hj with hij hlt
      · exact absurd (Option.some.inj hj).symm hne
      · exact h.only j p hj hne
    · rw [hp] at hj
      simpa [ht] using h.inRange j hj
  | @ran i t p p' hi hex hp' _ ht hp =>
    refine ⟨fun j q hj hne => ?_, fun j hj => ?_⟩
    · rw [ht, List.getElem?_set] at hj
      rw [hp]
      split_ifs at hj with hij hlt
      · subst hij
        exact h.only i p hi (by rintro rfl; cases hex)
      · exact h.only j q hj hne
    · rw [hp] at hj
      simpa [ht] using h.inRange j hj
  | freed ht hp => exact ⟨by rw [ht, hp]; exact h.only, by rw [ht, hp]; exact h.inRange⟩
  | same ht hp => exact ⟨by rw [ht, hp]; exact h.only, by rw [ht, hp]; exact h.inRange⟩

/-- A thread to join comes with a creation and goes with a join. -/
theorem holdsThread_step (h : Held s) (hc : ThreadsCase s o e) : o.state.holdsThread = true ↔
    (∃ k, e = .create k) ∨ s.holdsThread = true ∧ ∀ k, e ≠ .join k := by
  cases hc with
  | created k ht hp =>
    refine iff_of_true ?_ (.inl ⟨k, rfl⟩)
    simp [holdsThread, ht, hp]
  | joined k i hptr ht hp =>
    refine iff_of_false ?_ (by simp)
    have hi := h.inRange i hptr
    simp [holdsThread, ht, hp, hptr, hi]
  | @ran i t p p' hi hex hp' _ ht hp =>
    have hptr := h.only i p hi (by rintro rfl; cases hex)
    have hlt := h.inRange i hptr
    refine iff_of_true ?_ (.inr ⟨?_, by simp⟩)
    · simp [holdsThread, ht, hp, hptr, hlt, hp']
    · exact h.holdsThread_iff.2 ⟨i, p, hi, by rintro rfl; cases hex⟩
  | freed ht hp => simp [holdsThread, ht, hp]
  | same ht hp hcreate hfree hjoin =>
    have hsame : o.state.holdsThread = s.holdsThread := by rw [holdsThread, holdsThread, ht, hp]
    rw [hsame]
    constructor
    · intro hh
      exact .inr ⟨hh, fun k hk => by simp [hjoin k hk] at hh⟩
    · rintro (⟨k, hk⟩ | ⟨hh, -⟩)
      · exact absurd hk (hcreate k)
      · exact hh

variable {settings : ServiceSettings} {r : List (Service × ServiceEvent)}

theorem Held.init : Held (Service.init settings) :=
  ⟨fun i p h => by simp [Service.init] at h, fun i h => by simp [Service.init] at h⟩

theorem run_held (hr : (serviceMachine E settings).Run r (.ok s)) : Held s := by
  refine hr.invariant_ok (P := fun _ _ => True) Held.init (fun s e s' _ h _ hs => ?_)
    (fun _ _ => trivial)
  exact held_step h (step_threads hs) (by simp)

theorem owing_snoc : Owing (r ++ [(s, e)]) ↔
    (∃ k, e = .create k) ∨ Owing r ∧ ∀ k, e ≠ .join k := by
  unfold Owing
  rw [since_append]
  simp [Since]

/-- The history says what the pointer holds. -/
theorem owing_iff (hr : (serviceMachine E settings).Run r (.ok s)) :
    Owing r ↔ s.holdsThread = true := by
  generalize ho : Outcome.ok s = o at hr
  induction hr generalizing s with
  | nil =>
    cases ho
    simp [Owing, Since, serviceMachine, Service.init, holdsThread]
  | snoc hr hs ih =>
    subst ho
    have hstep := holdsThread_step (run_held hr) (step_threads hs)
    rw [owing_snoc, ih rfl]
    exact hstep.symm

/-- One step goes well exactly when it is in turn. -/
theorem terminate_iff (hr : (serviceMachine E settings).Run r (.ok s)) (hc : ThreadsCase s o e) :
    (¬ ∃ s', o = .fault .terminate s') ↔ InTurn r s e := by
  have howing := owing_iff hr
  cases hc with
  | created k _ _ ho => rw [ho, InTurn, howing]
  | freed _ _ ho => rw [ho, InTurn, howing]
  | joined k i _ _ _ ho => exact iff_of_true ho trivial
  | ran i t _ _ _ _ _ _ ho => exact iff_of_true ho trivial
  | same _ _ hcreate hfree _ ho =>
    refine iff_of_true ho ?_
    cases e with
    | create k => exact absurd rfl (hcreate k)
    | free => exact absurd rfl hfree
    | _ => trivial

/-- The thread in `service_thread_ptr_` is never overwritten or destroyed before it is joined, and
at most one is in `thread_function`, in exactly the runs that create no thread, and do not destroy
the service, while one is owing. -/
theorem thread_lifecycle_iff {o : Outcome ServiceFault Service}
    (hr : (serviceMachine E settings).Run r o) :
    ((¬ ∃ s, o = .fault .terminate s) ∧ OneThread o.state)
      ↔ Machine.Throughout InTurn r := by
  cases hr with
  | nil => exact iff_of_true ⟨by simp, Held.init.oneThread⟩ Machine.throughout_nil
  | @snoc r s e _ hr hs =>
    have hc := step_threads hs
    have hbefore : Machine.Throughout InTurn r :=
      hr.throughout fun r s e s' hr hs => (terminate_iff hr (step_threads hs)).1 (by simp)
    rw [Machine.throughout_snoc, ← terminate_iff hr hc]
    constructor
    · rintro ⟨hno, -⟩
      exact ⟨hbefore, hno⟩
    · rintro ⟨-, hno⟩
      exact ⟨hno, (held_step (run_held hr) hc hno).oneThread⟩

/-- A start, as far as the loop of `thread_function`, in the `i`-th thread. -/
def starts (i : ℕ) : List ServiceEvent :=
  [.start, .create 0, .thread i .restart, .thread i .construct, .thread i .setRunning,
    .thread i (.onRunning .returns)]

/-- A stop, which joins the `i`-th thread. -/
def stops (i : ℕ) : List ServiceEvent :=
  [.stopServer 0 .returns, .stopContext 0, .thread i .runReturns, .thread i .clear,
    .thread i .finish, .join 0]

def defaultSettings : ServiceSettings := ⟨true, 5, []⟩

/-- The service is started, stopped and started again, and destroyed while it runs. -/
theorem thread_lifecycle_restarted : ∃ r s,
    (serviceMachine .counting defaultSettings).Run r (.ok s)
      ∧ r.map Prod.snd = starts 0 ++ [.stop] ++ stops 0 ++ starts 1 ++ [.destroy] ++ stops 1
        ++ [.free]
      ∧ Machine.Throughout InTurn r := by
  have hrun : ((serviceMachine .counting defaultSettings).exec (Service.init defaultSettings)
      (starts 0 ++ [.stop] ++ stops 0 ++ starts 1 ++ [.destroy] ++ stops 1 ++ [.free])).any
        (Outcome.okAnd fun _ => true) = true := by
    decide +kernel
  obtain ⟨s, hr, hes, -⟩ := Machine.exec_trail hrun
  exact ⟨_, s, hr, hes, (thread_lifecycle_iff hr).1 ⟨by simp, (run_held hr).oneThread⟩⟩

/-- Started twice before the first thread has set the flag, it overwrites that thread and has two;
destroyed after the port could not be bound, it destroys one that was never joined. -/
theorem thread_not_joined :
    (∃ r s, (serviceMachine .counting defaultSettings).Run r (.fault .terminate s)
      ∧ r.map Prod.snd = [.start, .create 0, .start, .create 0] ∧ ¬ OneThread s)
    ∧ ∃ r s, (serviceMachine .counting defaultSettings).Run r (.fault .terminate s)
      ∧ r.map Prod.snd = [.start, .create 0, .thread 0 .restart, .thread 0 .constructFailed,
        .thread 0 .clear, .thread 0 .finish, .destroy, .free] := by
  constructor
  · have h : (serviceMachine .counting defaultSettings).exec (Service.init defaultSettings)
        [.start, .create 0, .start, .create 0] = some (.fault .terminate _) := rfl
    refine ⟨_, _, Machine.exec_run h, Machine.map_trail h, fun hone => ?_⟩
    exact absurd (hone 0 1 .created .created rfl rfl rfl rfl) (by decide)
  · have h : (serviceMachine .counting defaultSettings).exec (Service.init defaultSettings)
        [.start, .create 0, .thread 0 .restart, .thread 0 .constructFailed, .thread 0 .clear,
          .thread 0 .finish, .destroy, .free] = some (.fault .terminate _) := rfl
    exact ⟨_, _, Machine.exec_run h, Machine.map_trail h⟩

end Service

end XRNetwork
