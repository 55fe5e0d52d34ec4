import XRNetwork.Proofs.Generations
import XRNetwork.Proofs.Settings

/-!
# The accept loop

`do_accept` goes on to the next accept from the branch without an error, and after a call that throws
when the peer is gone. So one accept that fails, or whose peer is gone, ends the loop for good while
the acceptor is open and the service is running; nothing else does (`accept_loop_iff`).
-/

namespace XRNetwork

/-- An accept has completed with an error, or its peer is gone. -/
def Event.losesAccept : Event → Bool
  | .accept none _ | .acceptFailed => true
  | _ => false

namespace Server

variable {E : Env} {w : Server} {e : Event} {o : Outcome Fault Server}

theorem outside_lost (hs : w.step E e = some o) (hl : e.losesAccept = true) :
    o.state.outside = (w.maxParticipants, w.accepts - 1, w.acceptorOpen) := by
  rw [outside_step hs]
  unfold Event.losesAccept at hl
  split at hl
  · rfl
  · rfl
  · cases hl

/-- It ends its handler, with an exception if its peer is gone, which is one `thread_function`
catches. -/
theorem lost_ends (hs : w.step E e = some o) (hl : e.losesAccept = true) :
    (∃ w', o = .ok w') ∨ ∃ w', o = .fault .exception w' := by
  unfold Event.losesAccept at hl
  split at hl
  · simp only [step] at hs
    split_ifs at hs
    exact .inr ⟨_, (Option.some.inj hs).symm⟩
  · simp only [step] at hs
    split_ifs at hs
    exact .inl ⟨_, (Option.some.inj hs).symm⟩
  · cases hl

theorem lost_stays (w' : Server) (hl : e.losesAccept = true) : w.escapes w' e = false := by
  unfold Event.losesAccept at hl
  split at hl
  · rfl
  · rfl
  · cases hl

theorem onAccept_some_fault {ip : Bytes} {t : UInt64} {f : Fault} {w' : Server}
    (h : w.onAccept E (some ip) t = .fault f w') : f = .outOfBounds := by
  unfold onAccept doStartHandshake at h
  simp only [] at h
  split at h <;> cases h
  rfl

/-- Every other handler that ends with no worse than an exception leaves the acceptor as it was. -/
theorem outside_kept (hs : w.step E e = some o) (he : e.isHandler = true)
    (hl : e.losesAccept = false) (hf : ∀ f w', o = .fault f w' → f = .exception) :
    o.state.outside = w.outside := by
  rw [outside_step hs]
  cases e with
  | accept ip t =>
    cases ip with
    | none => cases hl
    | some ip =>
      simp only [step] at hs
      split_ifs at hs
      have hok : o.okAnd (fun _ => true) = true := by
        rcases o with w' | ⟨f, w'⟩
        · rfl
        · have hout := onAccept_some_fault (Option.some.inj hs)
          rw [hf f w' rfl] at hout
          cases hout
      simp [outsideAfter, hok, outside]
  | acceptFailed => cases hl
  | setMaxParticipants n | stop => cases he
  | _ => rfl

end Server

namespace Service

variable {E : Env} {s s' : Service} {e : ServiceEvent} {o : Outcome ServiceFault Service}

/-- How many accepts the server has outstanding, and whether its acceptor is open. -/
def acceptor (s : Service) : Option (ℕ × Bool) :=
  s.generations.getLast?.map fun g => (g.server.accepts, g.server.acceptorOpen)

/-- If the service is running and its acceptor has not been closed, one accept is outstanding. -/
def Accepting (s : Service) : Prop :=
  s.running = true → ∀ g, s.generations.getLast? = some g → g.server.acceptorOpen = true →
    g.server.accepts = 1

/-- An accept of the server is lost while its acceptor is open. -/
def LosesAccept (s : Service) : ServiceEvent → Prop
  | .thread _ (.handler k e) => e.losesAccept = true ∧ s.replaced k = false
      ∧ ∃ g, s.generations[k]? = some g ∧ g.server.acceptorOpen = true
  | _ => False

/-! ## What a step does to the acceptor -/

/-- The acceptor is left alone, new, or closed. -/
def AcceptorKept (s s' : Service) : Prop :=
  s'.acceptor = s.acceptor ∨ s'.acceptor = some (1, true) ∨ ∃ n, s'.acceptor = some (n, false)

theorem AcceptorKept.of_eq (h : s'.generations = s.generations) : AcceptorKept s s' := by
  refine .inl ?_
  rw [acceptor, acceptor, h]

theorem AcceptorKept.trans {s'' : Service} (h : AcceptorKept s s') (h' : AcceptorKept s' s'') :
    AcceptorKept s s'' := by
  rcases h' with h' | h'
  · unfold AcceptorKept
    rw [h']
    exact h
  · exact .inr h'

theorem getLast_of_replaced {k : ℕ} {g : Generation} (hk : s.generations[k]? = some g)
    (hr : s.replaced k = false) : k = s.generations.length - 1 := by
  have hlt := (List.getElem?_eq_some_iff.1 hk).1
  simp only [replaced, decide_eq_false_iff_not] at hr
  omega

theorem getLast?_eq {k : ℕ} {g : Generation} (hk : s.generations[k]? = some g)
    (hr : s.replaced k = false) : s.generations.getLast? = some g := by
  rw [List.getLast?_eq_getElem?, ← getLast_of_replaced hk hr, hk]

theorem getLast?_setGeneration {k : ℕ} {g g' : Generation} (hk : s.generations[k]? = some g)
    (hr : s.replaced k = false) : (s.setGeneration k g').generations.getLast? = some g' := by
  have hlt := (List.getElem?_eq_some_iff.1 hk).1
  refine getLast?_eq (k := k) (List.getElem?_set_self hlt) ?_
  simpa [replaced, setGeneration] using hr

theorem getLast?_setGeneration_replaced {k : ℕ} {g : Generation} (hr : s.replaced k = true) :
    (s.setGeneration k g).generations.getLast? = s.generations.getLast? := by
  have hlt : k + 1 < s.generations.length := of_decide_eq_true hr
  have hne : k ≠ s.generations.length - 1 := by omega
  rw [setGeneration, List.getLast?_eq_getElem?, List.getLast?_eq_getElem?, List.length_set,
    List.getElem?_set_ne hne]

theorem acceptor_eq {k : ℕ} {g : Generation} (hk : s.generations[k]? = some g)
    (hr : s.replaced k = false) :
    s.acceptor = some (g.server.accepts, g.server.acceptorOpen) := by
  rw [acceptor, getLast?_eq hk hr]
  rfl

theorem acceptor_setGeneration {k : ℕ} {g g' : Generation} (hk : s.generations[k]? = some g)
    (hr : s.replaced k = false) :
    (s.setGeneration k g').acceptor = some (g'.server.accepts, g'.server.acceptorOpen) := by
  rw [acceptor, getLast?_setGeneration hk hr]
  rfl

theorem acceptorKept_callServer {e : Event} (he : e.isHandler = false) :
    AcceptorKept s (s.callServer E e) := by
  unfold callServer
  split
  · exact .of_eq rfl
  · rename_i g hg
    split
    swap
    · exact .of_eq rfl
    · rename_i o ho
      rw [List.getLast?_eq_getElem?] at hg
      have hr : s.replaced (s.generations.length - 1) = false := by
        simp only [replaced, decide_eq_false_iff_not]
        omega
      have hout := Server.outside_step ho
      unfold AcceptorKept
      rw [acceptor_setGeneration hg hr, acceptor_eq hg hr]
      have hacc := congrArg (fun x => x.2.1) hout
      have hopen := congrArg (fun x => x.2.2) hout
      simp only [Server.outside] at hacc hopen
      rw [hacc, hopen]
      cases e with
      | stop => exact .inr (.inr ⟨_, rfl⟩)
      | disconnectParticipant id | disconnectAllParticipants | setParticipantDeaf id deaf
      | setMaxParticipants n | setKeepAlive b | setServiceName name => exact .inl rfl
      | _ => cases he

theorem acceptorKept_newServer (i : ℕ) : AcceptorKept s (s.newServer E i) := by
  refine .inr (.inl ?_)
  rw [acceptor, newServer, List.getLast?_concat]
  rfl

theorem acceptorKept_configure : AcceptorKept s (s.configure E) :=
  ((acceptorKept_callServer rfl).trans (acceptorKept_callServer rfl)).trans
    (acceptorKept_callServer rfl)

/-- A handler after which the loop goes on, or ends with an exception. -/
theorem runHandler_ok {i k : ℕ} {e : Event} (h : s.runHandler E i k e = some (.ok s')) :
    ∃ g o, s.generations[k]? = some g ∧ e.isHandler = true ∧ g.server.step E e = some o
      ∧ (∀ f w, o = .fault f w → f = .exception)
      ∧ s'.generations = (s.setGeneration k { g with server := o.state }).generations := by
  unfold runHandler at h
  rcases hg : s.generations[k]? with _ | g <;> simp only [hg] at h
  · cases h
  by_cases he : e.isHandler = true
  swap
  · simp [he] at h
  rcases hs : g.server.step E e with _ | o <;> simp only [he, hs, if_true] at h
  · cases h
  refine ⟨g, o, rfl, he, hs, ?_⟩
  split_ifs at h
  · cases h
  split at h
  · cases h
    exact ⟨by simp, rfl⟩
  · split_ifs at h
    · cases h
    · cases h
      refine ⟨fun f w hf => ?_, rfl⟩
      cases hf
      rfl
  · cases h

theorem runHandler_acceptor {i k : ℕ} {e : Event} (h : s.runHandler E i k e = some (.ok s')) :
    LosesAccept s (.thread i (.handler k e))
        ∧ (∃ n, s.acceptor = some (n, true) ∧ s'.acceptor = some (n - 1, true))
      ∨ ¬ LosesAccept s (.thread i (.handler k e)) ∧ AcceptorKept s s' := by
  obtain ⟨g, o, hg, he, hs, hf, hgens⟩ := runHandler_ok h
  have hacc : s'.acceptor = (s.setGeneration k { g with server := o.state }).acceptor := by
    rw [acceptor, acceptor, hgens]
  by_cases hr : s.replaced k = true
  · refine .inr ⟨?_, .inl ?_⟩
    · rintro ⟨-, hr', -⟩
      simp [hr] at hr'
    · rw [hacc, acceptor, acceptor, getLast?_setGeneration_replaced hr]
  have hr : s.replaced k = false := by simpa using hr
  rw [acceptor_setGeneration hg hr] at hacc
  by_cases hl : e.losesAccept = true
  · have hout := Server.outside_lost hs hl
    have hacc' : s'.acceptor = some (g.server.accepts - 1, g.server.acceptorOpen) :=
      hacc.trans (congrArg (fun x => some x.2) hout)
    by_cases hopen : g.server.acceptorOpen = true
    · rw [hopen] at hacc'
      refine .inl ⟨⟨hl, hr, g, hg, hopen⟩, g.server.accepts, ?_, hacc'⟩
      rw [acceptor_eq hg hr, hopen]
    · have hopen : g.server.acceptorOpen = false := by simpa using hopen
      rw [hopen] at hacc'
      refine .inr ⟨?_, .inr (.inr ⟨_, hacc'⟩)⟩
      rintro ⟨-, -, g', hg', hopen'⟩
      obtain rfl := Option.some.inj (hg.symm.trans hg')
      simp [hopen] at hopen'
  · refine .inr ⟨fun h => hl h.1, .inl ?_⟩
    have hout := Server.outside_kept hs he (by simpa using hl) hf
    rw [acceptor_eq hg hr]
    exact hacc.trans (congrArg (fun x => some x.2) hout)

theorem runStartHandler_acceptor {k : ℕ} (h : s.runStartHandler k = some (.ok s')) :
    AcceptorKept s s' := by
  unfold runStartHandler at h
  split at h
  · cases h
  · rename_i g hg
    split_ifs at h with hp hr
    · cases h
    have hr : s.replaced k = false := by simpa using hr
    cases h
    refine .inl ?_
    rw [acceptor_eq hg hr]
    exact acceptor_setGeneration hg hr

theorem threadStep_acceptor {i : ℕ} {p : ThreadPhase} {t : ThreadStep}
    (h : s.threadStep E i p t = some (.ok s')) :
    LosesAccept s (.thread i t)
        ∧ (∃ n, s.acceptor = some (n, true) ∧ s'.acceptor = some (n - 1, true))
      ∨ ¬ LosesAccept s (.thread i t) ∧ AcceptorKept s s' := by
  unfold threadStep at h
  split at h
  case h_2 =>
    cases h
    exact .inr ⟨id, (acceptorKept_newServer i).trans (.of_eq rfl)⟩
  case h_5 =>
    cases h
    exact .inr ⟨id, acceptorKept_configure.trans (.of_eq rfl)⟩
  case h_8 =>
    split_ifs at h
    exact runHandler_acceptor h
  case h_9 =>
    split_ifs at h
    exact .inr ⟨id, runStartHandler_acceptor h⟩
  case h_10 =>
    split at h <;> cases h
    exact .inr ⟨id, .of_eq rfl⟩
  case h_7 | h_13 => cases h
  all_goals
    cases h
    exact .inr ⟨id, .of_eq rfl⟩

/-- An accept that is lost is one less; all else leaves the acceptor alone, or closes it, or makes a
new one. -/
theorem step_acceptor (hs : s.step E e = some (.ok s')) :
    LosesAccept s e ∧ (∃ n, s.acceptor = some (n, true) ∧ s'.acceptor = some (n - 1, true))
      ∨ ¬ LosesAccept s e ∧ AcceptorKept s s' := by
  by_cases hthread : ∃ i t, e = .thread i t
  · obtain ⟨i, t, rfl⟩ := hthread
    simp only [step] at hs
    split at hs
    · cases hs
    · exact threadStep_acceptor hs
  · refine .inr ⟨fun hl => ?_, ?_⟩
    · unfold LosesAccept at hl
      split at hl
      · exact hthread ⟨_, _, rfl⟩
      · exact hl
    · obtain ⟨-, h | ⟨c, hc, h⟩⟩ := step_outside (fun i t h => hthread ⟨i, t, h⟩) hs
      · exact .of_eq h
      · exact (acceptorKept_callServer hc).trans (.of_eq h)

/-- The service survives the loss of an accept. -/
theorem losesAccept_ok (hs : s.step E e = some o) (hl : LosesAccept s e) : ∃ s', o = .ok s' := by
  unfold LosesAccept at hl
  split at hl
  swap
  · exact hl.elim
  rename_i i k e
  obtain ⟨hl, hr, -⟩ := hl
  obtain ⟨-, -, h⟩ := step_handler.1 hs
  unfold runHandler at h
  rcases hg : s.generations[k]? with _ | g <;> simp only [hg] at h
  · cases h
  by_cases he : e.isHandler = true
  swap
  · simp [he] at h
  rcases ho : g.server.step E e with _ | o' <;> simp only [he, ho, if_true] at h
  · cases h
  simp only [hr, Bool.false_and, Bool.false_eq_true, if_false] at h
  rcases Server.lost_ends ho hl with ⟨w', rfl⟩ | ⟨w', rfl⟩
  · exact ⟨_, (Option.some.inj h).symm⟩
  · simp only [Server.lost_stays w' hl, Bool.false_eq_true, if_false] at h
    exact ⟨_, (Option.some.inj h).symm⟩

/-! ## The flag -/

/-- The flag is set while a thread is in the loop, or on its way to it. -/
def Flagged (s : Service) : Prop :=
  ∀ (i : ℕ) (p : ThreadPhase), s.threads[i]? = some p → p = .announced ∨ p = .serving →
    s.running = true

/-- A step of a thread sets the flag, or clears it behind the loop, or does not bring the thread any
closer to the loop. -/
def FlagStep (s s' : Service) (i : ℕ) (p : ThreadPhase) : Prop :=
  ∃ p', s'.threads = s.threads.set i p'
    ∧ (s'.running = true
      ∨ p' ≠ .announced ∧ p' ≠ .serving ∧ (s'.running = s.running ∨ p = .leaving)
      ∨ (p = .announced ∨ p = .serving) ∧ s'.running = s.running)

theorem runHandler_running {i k : ℕ} {e : Event} (h : s.runHandler E i k e = some o) :
    o.state.running = s.running := by
  obtain ⟨g, o', -, -, -, ⟨rfl, -⟩ | ⟨s', rfl, rfl | rfl | rfl | ⟨f, rfl⟩⟩⟩ :=
    runHandler_cases h <;> rfl

theorem threadStep_flag {i : ℕ} {p : ThreadPhase} {t : ThreadStep} (hi : s.threads[i]? = some p)
    (h : s.threadStep E i p t = some (.ok s')) : FlagStep s s' i p := by
  have hsame := set_self hi
  unfold FlagStep
  unfold threadStep at h
  split at h
  case h_2 =>
    cases h
    exact ⟨.constructed, by simp [setThread, newServer],
      .inr (.inl (by simp [setThread, newServer, callServer_running]))⟩
  case h_4 =>
    cases h
    exact ⟨.announced, rfl, .inl rfl⟩
  case h_5 =>
    cases h
    exact ⟨.serving, by simp [setThread, configure],
      .inr (.inr (by simp [setThread, configure, callServer_running]))⟩
  case h_8 k e =>
    split_ifs at h
    have hrun := runHandler_running h
    rcases (runHandler_threads h).1 with ht | ht
    · exact ⟨.serving, ht.trans hsame.symm, .inr (.inr ⟨.inr rfl, hrun⟩)⟩
    · exact ⟨.leaving, ht, .inr (.inl ⟨by simp, by simp, .inl hrun⟩)⟩
  case h_9 k =>
    split_ifs at h
    refine ⟨.serving, (runStartHandler_threads h).1.trans hsame.symm, .inr (.inr ⟨.inr rfl, ?_⟩)⟩
    unfold runStartHandler at h
    split at h
    · cases h
    · split_ifs at h <;> cases h
      rfl
  case h_10 =>
    split at h <;> cases h
    exact ⟨.leaving, rfl, .inr (.inl ⟨by simp, by simp, .inl rfl⟩)⟩
  case h_11 =>
    cases h
    exact ⟨.cleared, rfl, .inr (.inl ⟨by simp, by simp, .inr rfl⟩)⟩
  case h_7 | h_13 => cases h
  all_goals
    cases h
    exact ⟨_, rfl, .inr (.inl ⟨by simp, by simp, .inl rfl⟩)⟩

theorem flagged_thread {i : ℕ} {p : ThreadPhase} (hone : OneThread s) (h : Flagged s)
    (hi : s.threads[i]? = some p) (hstep : FlagStep s s' i p) : Flagged s' := by
  obtain ⟨p', ht, hcase⟩ := hstep
  intro j q hj hq
  rw [ht, List.getElem?_set] at hj
  rcases hcase with hrun | ⟨ha, hs, hrun⟩ | ⟨hp, hrun⟩
  · exact hrun
  · split_ifs at hj with hij
    · obtain rfl := Option.some.inj hj
      rcases hq with rfl | rfl
      · exact absurd rfl ha
      · exact absurd rfl hs
    · rcases hrun with hrun | rfl
      · exact hrun.trans (h j q hj hq)
      · refine absurd (hone i j .leaving q hi hj rfl ?_) hij
        rcases hq with rfl | rfl <;> rfl
  · exact hrun.trans (h i p hi hp)

theorem flagged_step (hone : OneThread s) (h : Flagged s) (hs : s.step E e = some (.ok s')) :
    Flagged s' := by
  by_cases hthread : ∃ i t, e = .thread i t
  · obtain ⟨i, t, rfl⟩ := hthread
    simp only [step] at hs
    split at hs
    · cases hs
    · rename_i p hi
      exact flagged_thread hone h hi (threadStep_flag hi hs)
  -- no other step sets or clears the flag, or moves a thread to the loop
  obtain ⟨hrun, -⟩ := step_outside (fun i t h => hthread ⟨i, t, h⟩) hs
  intro i p hi hp
  refine hrun.trans (h i p ?_ hp)
  have hne : p ≠ .created ∧ p ≠ .joined := by rcases hp with rfl | rfl <;> simp
  cases step_threads hs with
  | created k ht =>
    rw [show s'.threads = _ from ht, List.getElem?_append] at hi
    split_ifs at hi
    · exact hi
    · exact absurd (by simpa using List.mem_of_getElem? hi) hne.1
  | joined k j _ ht =>
    rw [show s'.threads = _ from ht, List.getElem?_set] at hi
    split_ifs at hi
    · exact absurd (Option.some.inj hi).symm hne.2
    · exact hi
  | ran j t => exact absurd ⟨j, t, rfl⟩ hthread
  | freed ht | same ht => exact ht ▸ hi

/-! ## Over a run -/

variable {settings : ServiceSettings} {r : List (Service × ServiceEvent)}

theorem run_flagged (hr : (serviceMachine E settings).Run r (.ok s)) : Flagged s := by
  refine hr.invariant_ok (P := fun _ _ => True) ?_ (fun s e s' hreach h _ hs => ?_)
    (fun _ _ => trivial)
  · intro i p hi
    simp [serviceMachine, Service.init] at hi
  · obtain ⟨r, hr⟩ := hreach
    exact flagged_step (run_held hr).oneThread h hs

/-- An open acceptor has one accept outstanding. -/
def OneAccept (s : Service) : Prop := ∀ n, s.acceptor = some (n, true) → n = 1

theorem accepting_iff : Accepting s ↔ (s.running = true → OneAccept s) := by
  unfold Accepting OneAccept acceptor
  rcases s.generations.getLast? with _ | g
  · simp
  · refine imp_congr Iff.rfl ⟨fun h n hn => ?_, fun h g' hg' hopen => ?_⟩
    · obtain ⟨rfl, hopen⟩ := Prod.mk.inj (Option.some.inj hn)
      exact h g rfl hopen
    · obtain rfl := Option.some.inj hg'
      exact h _ (congrArg some (congrArg _ hopen))

theorem OneAccept.step (h : OneAccept s) (hs : s.step E e = some (.ok s'))
    (hl : ¬ LosesAccept s e) : OneAccept s' := by
  obtain ⟨hl', -⟩ | ⟨-, hsame | hnew | ⟨m, hclosed⟩⟩ := step_acceptor hs
  · exact absurd hl' hl
  · intro n hn
    exact h n (hsame ▸ hn)
  · intro n hn
    rw [hnew] at hn
    cases hn
    rfl
  · intro n hn
    rw [hclosed] at hn
    cases hn

theorem run_oneAccept (hr : (serviceMachine E settings).Run r (.ok s))
    (hl : Machine.Steps (fun s e => ¬ LosesAccept s e) r) : OneAccept s := by
  refine hr.invariant_ok ?_ (fun s e s' _ h hl hs => h.step hs hl) hl
  intro n hn
  simp [serviceMachine, Service.init, acceptor] at hn

theorem losesAccept_running (hr : (serviceMachine E settings).Run r (.ok s))
    (hs : s.step E e = some (.ok s')) (hl : LosesAccept s e) :
    s.running = true ∧ s'.running = true := by
  unfold LosesAccept at hl
  split at hl
  · obtain ⟨hi, -, hrun⟩ := step_handler.1 hs
    have hflag := run_flagged hr _ .serving hi (.inr rfl)
    exact ⟨hflag, (runHandler_running hrun).trans hflag⟩
  · exact hl.elim

theorem not_accepting (hr : (serviceMachine E settings).Run r (.ok s)) (h : Accepting s)
    (hs : s.step E e = some (.ok s')) (hl : LosesAccept s e) : ¬ Accepting s' := by
  obtain ⟨hrun, hrun'⟩ := losesAccept_running hr hs hl
  obtain ⟨-, n, hn, hn'⟩ | ⟨hl', -⟩ := step_acceptor hs
  · intro hacc
    have hone : n = 1 := accepting_iff.1 h hrun n hn
    have hone' : n - 1 = 1 := accepting_iff.1 hacc hrun' _ hn'
    omega
  · exact absurd hl hl'

/-- While the service is running and its acceptor open, one accept is outstanding, in every state
of exactly the runs in which none is lost. -/
theorem accept_loop_iff {o : Outcome ServiceFault Service}
    (hr : (serviceMachine E settings).Run r o) :
    (∀ r₁ s, r₁ <+: r → (serviceMachine E settings).Run r₁ (.ok s) → Accepting s)
      ↔ Machine.Steps (fun s e => ¬ LosesAccept s e) r := by
  constructor
  · rintro h ⟨s, e⟩ hx hl
    obtain ⟨r₀, o₁, hr₀, hs, hpre⟩ := hr.before hx
    obtain ⟨s', rfl⟩ := losesAccept_ok hs hl
    have hbefore := h r₀ s ((List.prefix_append _ _).trans hpre) hr₀
    exact not_accepting hr₀ hbefore hs hl (h _ s' hpre (hr₀.snoc hs))
  · intro h r₁ s hpre hr₁
    have hl : Machine.Steps (fun s e => ¬ LosesAccept s e) r₁ := fun x hx => h x (hpre.subset hx)
    exact accepting_iff.2 fun _ => run_oneAccept hr₁ hl

/-- The service is started and two clients connect. -/
def startsWithTwo : List ServiceEvent :=
  starts 0 ++ [.thread 0 (.startHandler 0), .thread 0 (.handler 0 (.accept (some []) 0)),
    .thread 0 (.handler 0 (.accept (some []) 0))]

theorem accept_loop_iff_two : ∃ r s, (serviceMachine .counting defaultSettings).Run r (.ok s)
    ∧ r.map Prod.snd = startsWithTwo
    ∧ s.running = true ∧ s.acceptor = some (1, true)
    ∧ ∀ r₁ s, r₁ <+: r → (serviceMachine .counting defaultSettings).Run r₁ (.ok s) →
      Accepting s := by
  have hrun : ((serviceMachine .counting defaultSettings).exec (Service.init defaultSettings)
      startsWithTwo).any (Outcome.okAnd fun s => s.running && s.acceptor = some (1, true))
        = true := by
    decide +kernel
  obtain ⟨r, s, hr, hes, hp⟩ := Machine.exec_okAnd hrun
  obtain ⟨hflag, hacc⟩ := Bool.and_eq_true_iff.1 hp
  refine ⟨r, s, hr, hes, hflag, of_decide_eq_true hacc, (accept_loop_iff hr).2 ?_⟩
  rintro ⟨s, e⟩ hx hl
  have he : e ∈ startsWithTwo := hes ▸ List.mem_map_of_mem hx
  simp only [startsWithTwo, starts, List.cons_append, List.nil_append, List.mem_cons,
    List.not_mem_nil, or_false] at he
  rcases he with rfl | rfl | rfl | rfl | rfl | rfl | rfl | rfl | rfl <;>
    simp [LosesAccept, Event.losesAccept] at hl

/-- One accept fails, or loses its peer, and the service goes on without any: in the loop, or with
its thread ended by the exception. -/
theorem accept_loop_ends :
    (∃ r s, (serviceMachine .counting defaultSettings).Run r (.ok s)
      ∧ r.map Prod.snd = starts 0 ++ [.thread 0 (.startHandler 0),
        .thread 0 (.handler 0 .acceptFailed)]
      ∧ s.threads[0]? = some .serving ∧ ¬ Accepting s)
    ∧ ∃ r s, (serviceMachine .counting defaultSettings).Run r (.ok s)
      ∧ r.map Prod.snd = starts 0 ++ [.thread 0 (.startHandler 0),
        .thread 0 (.handler 0 (.accept none 0))]
      ∧ s.threads[0]? = some .leaving ∧ ¬ Accepting s := by
  have key {es : List ServiceEvent} {p : ThreadPhase}
      (h : ((serviceMachine .counting defaultSettings).exec (Service.init defaultSettings) es).any
        (Outcome.okAnd fun s => s.running && s.acceptor = some (0, true)
          && s.threads[0]? = some p) = true) :
      ∃ r s, (serviceMachine .counting defaultSettings).Run r (.ok s)
        ∧ r.map Prod.snd = es ∧ s.threads[0]? = some p ∧ ¬ Accepting s := by
    obtain ⟨r, s, hr, hes, hp⟩ := Machine.exec_okAnd h
    simp only [Bool.and_eq_true, decide_eq_true_eq] at hp
    obtain ⟨⟨hrun, hacc⟩, hthread⟩ := hp
    refine ⟨r, s, hr, hes, hthread, fun h => ?_⟩
    have := accepting_iff.1 h hrun 0 hacc
    omega
  exact ⟨key (by decide +kernel), key (by decide +kernel)⟩

end Service

end XRNetwork
