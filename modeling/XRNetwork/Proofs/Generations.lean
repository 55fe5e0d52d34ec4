import XRNetwork.Proofs.ServiceThread
import XRNetwork.Proofs.Identity

/-!
# Server generations

What `stop()` closes still has its handlers in the `io_context` when `run()` returns, `restart()`
keeps them, and the next thread runs them, after its server has replaced the one they belong to.
Nothing else can bring this about: where every earlier server has run out of handlers when a thread
makes its own, a thread runs handlers of its own server alone (`restart_isolates`).
-/

namespace XRNetwork

namespace Server

variable {E : Env} {w : Server} {e : Event}

/-- Nothing is outstanding. -/
structure Idle (w : Server) : Prop where
  accepts : w.accepts = 0
  reads : ∀ s, (w.sessions s).reads = []
  posted : ∀ s, (w.sides s).posted = []
  writes : ∀ s, (w.sides s).writes = []

/-- A server runs handlers exactly as long as something is outstanding. -/
theorem idle_iff : w.Idle ↔ ∀ e : Event, e.isHandler = true → w.step E e = none := by
  constructor
  · intro h e he
    cases e with
    | accept ip timestamp | acceptFailed => simp [step, h.accepts]
    | read s i readBuffer c | readFailed s i c => simp [step, h.reads s]
    | posted s => simp [step, WriteSide.runPosted, h.posted s]
    | writeSome s i k => simp [step, WriteSide.writeSome, h.writes s]
    | writeDone s i => simp [step, WriteSide.writeDone, h.writes s]
    | writeFailed s i c => simp [step, WriteSide.writeFailed, h.writes s]
    | _ => cases he
  · intro h
    let c : Choice := ⟨.returns, List.Vector.replicate _ 0, List.Vector.replicate _ 0⟩
    refine ⟨?_, fun s => ?_, fun s => ?_, fun s => ?_⟩
    · have := h .acceptFailed rfl
      simp only [step] at this
      split_ifs at this
      omega
    · have := h (.readFailed s 0 c) rfl
      rcases hr : (w.sessions s).reads with _ | ⟨⟨loop, b⟩, l⟩
      · rfl
      · simp [step, hr] at this
    · have := h (.posted s) rfl
      rcases hp : (w.sides s).posted with _ | ⟨b, l⟩
      · rfl
      · simp [step, WriteSide.runPosted, hp] at this
    · have := h (.writeFailed s 0 c) rfl
      rcases hw : (w.sides s).writes with _ | ⟨x, l⟩
      · rfl
      · simp [step, WriteSide.writeFailed, hw] at this

theorem disconnectAllParticipants_sides (s : ℕ) :
    (w.disconnectAllParticipants.sides s).posted = (w.sides s).posted
      ∧ (w.disconnectAllParticipants.sides s).writes = (w.sides s).writes := by
  have key : ∀ (l : List ℕ) (w : Server),
      ((l.foldl (fun w p => w.disconnect p) w).sides s).posted = (w.sides s).posted
        ∧ ((l.foldl (fun w p => w.disconnect p) w).sides s).writes = (w.sides s).writes := by
    intro l
    induction l with
    | nil => exact fun w => ⟨rfl, rfl⟩
    | cons p l ih =>
      intro w
      obtain ⟨hp, hw⟩ := ih (w.disconnect p)
      rw [List.foldl_cons, hp, hw]
      rcases eq_or_ne s p with rfl | hne
      · simp [disconnect, setSide, WriteSide.close]
      · simp [disconnect, setSide, hne]
  exact key w.participants w

theorem stop_keeps {o : Outcome Fault Server} (hs : w.step E .stop = some o) :
    o.state.accepts = w.accepts ∧ o.state.sessions = w.sessions
      ∧ ∀ s, (o.state.sides s).posted = (w.sides s).posted
        ∧ (o.state.sides s).writes = (w.sides s).writes := by
  cases hs
  refine ⟨?_, ?_, disconnectAllParticipants_sides (w := w.tick)⟩ <;>
    rw [Outcome.state_ok, disconnectAllParticipants_eq] <;> rfl

theorem idle_stop {o : Outcome Fault Server} (hs : w.step E .stop = some o) :
    o.state.Idle ↔ w.Idle := by
  obtain ⟨ha, hsessions, hsides⟩ := stop_keeps hs
  constructor
  · rintro ⟨h1, h2, h3, h4⟩
    exact ⟨ha ▸ h1, fun s => hsessions ▸ h2 s, fun s => (hsides s).1 ▸ h3 s,
      fun s => (hsides s).2 ▸ h4 s⟩
  · rintro ⟨h1, h2, h3, h4⟩
    exact ⟨ha.trans h1, fun s => (congrFun hsessions s ▸ h2 s), fun s => (hsides s).1.trans (h3 s),
      fun s => (hsides s).2.trans (h4 s)⟩

end Server

/-- Nothing of it is left in the `io_context`. -/
structure Generation.Idle (g : Generation) : Prop where
  start : g.startPosted = false
  server : g.server.Idle

namespace Service

variable {E : Env} {s s' : Service} {e : ServiceEvent} {o : Outcome ServiceFault Service}

/-- Every server so far has run out of handlers when a thread makes another. -/
def Drained (s : Service) : ServiceEvent → Prop
  | .thread _ .construct => ∀ g ∈ s.generations, g.Idle
  | _ => True

/-- A thread runs handlers of the server it has made, which is still the server. -/
def Own (s : Service) : ServiceEvent → Prop
  | .thread i (.handler k _) | .thread i (.startHandler k) =>
    s.replaced k = false ∧ ∃ g, s.generations[k]? = some g ∧ g.madeBy = i
  | _ => True

/-! ## What a step does to the generations -/

theorem step_handler {i k : ℕ} {e : Event} : s.step E (.thread i (.handler k e)) = some o ↔
    s.threads[i]? = some .serving ∧ s.ioStopped = false ∧ s.runHandler E i k e = some o := by
  simp only [step]
  rcases s.threads[i]? with _ | p
  · simp
  · cases p <;> cases hio : s.ioStopped <;> simp [threadStep, hio]

theorem step_startHandler {i k : ℕ} : s.step E (.thread i (.startHandler k)) = some o ↔
    s.threads[i]? = some .serving ∧ s.ioStopped = false ∧ s.runStartHandler k = some o := by
  simp only [step]
  rcases s.threads[i]? with _ | p
  · simp
  · cases p <;> cases hio : s.ioStopped <;> simp [threadStep, hio]

/-- The servers are the same, and the replaced ones have not changed. -/
structure Kept (s s' : Service) : Prop where
  madeBy : s'.generations.map Generation.madeBy = s.generations.map Generation.madeBy
  replaced : ∀ k, s.replaced k = true → s'.generations[k]? = s.generations[k]?

theorem Kept.length (h : Kept s s') : s'.generations.length = s.generations.length := by
  simpa using congrArg List.length h.madeBy

theorem Kept.replaced_eq (h : Kept s s') (k : ℕ) : s'.replaced k = s.replaced k := by
  rw [Service.replaced, Service.replaced, h.length]

theorem Kept.of_eq (h : s'.generations = s.generations) : Kept s s' := by
  constructor <;> simp [h]

theorem Kept.trans {s'' : Service} (h : Kept s s') (h' : Kept s' s'') : Kept s s'' :=
  ⟨h'.madeBy.trans h.madeBy, fun k hk =>
    (h'.replaced k ((h.replaced_eq k).trans hk)).trans (h.replaced k hk)⟩

theorem kept_setGeneration {k : ℕ} {g g' : Generation} (hk : s.generations[k]? = some g)
    (hlast : s.replaced k = false) (hm : g'.madeBy = g.madeBy) :
    Kept s (s.setGeneration k g') := by
  constructor
  · rw [setGeneration, List.map_set, hm]
    have hmap : (s.generations.map Generation.madeBy)[k]? = some g.madeBy := by simp [hk]
    obtain ⟨hlt, heq⟩ := List.getElem?_eq_some_iff.1 hmap
    rw [← heq]
    exact List.set_getElem_self hlt
  · intro j hj
    have hne : k ≠ j := by
      rintro rfl
      simp [hlast] at hj
    rw [setGeneration, List.getElem?_set_ne hne]

theorem kept_callServer (e : Event) : Kept s (s.callServer E e) := by
  unfold callServer
  split
  · exact .of_eq rfl
  · rename_i g hg
    split
    · rename_i o' ho
      rw [List.getLast?_eq_getElem?] at hg
      have hlt := (List.getElem?_eq_some_iff.1 hg).1
      exact kept_setGeneration hg (by simp [Service.replaced]; omega) rfl
    · exact .of_eq rfl

theorem callServer_running (e : Event) : (s.callServer E e).running = s.running := by
  unfold callServer
  split
  · rfl
  · split <;> rfl

theorem runCall_running (c : ServiceCall) : (s.runCall E c).running = s.running := by
  cases c <;> simp only [runCall, callIfRunning] <;> (try split_ifs) <;> simp [callServer_running]

/-- What a call leaves of the generations is what a call of a method of `server` does, if anything. -/
theorem runCall_generations (c : ServiceCall) : (s.runCall E c).generations = s.generations
    ∨ ∃ e : Event, e.isHandler = false
      ∧ (s.runCall E c).generations = (s.callServer E e).generations := by
  have hcall {s' : Service} (hs' : s'.generations = s.generations) (e : Event)
      (he : e.isHandler = false) : (s'.callIfRunning E e).generations = s.generations
        ∨ ∃ c : Event, c.isHandler = false
          ∧ (s'.callIfRunning E e).generations = (s.callServer E c).generations := by
    unfold callIfRunning
    split_ifs
    · refine .inr ⟨e, he, ?_⟩
      unfold callServer
      rw [hs']
      split
      · exact hs'
      · split
        · simp [setGeneration, hs']
        · exact hs'
    · exact .inl hs'
  cases c with
  | setMaxParticipants n =>
    have hset : { s with settings.maxParticipants := n }.generations = s.generations := rfl
    exact hcall hset (.setMaxParticipants n) rfl
  | setMaxHandshakeConnections n => exact hcall rfl (.setMaxParticipants n) rfl
  | disconnectAllParticipants => exact hcall rfl .disconnectAllParticipants rfl
  | setParticipantDeaf id deaf => exact hcall rfl (.setParticipantDeaf id deaf) rfl
  | setKeepAlive b | setServiceName name => exact .inl rfl

/-- A step that is none of a thread leaves the flag, and of the generations what a call of a method
of `server` does, if anything. -/
theorem step_outside (he : ∀ i t, e ≠ .thread i t) (hs : s.step E e = some o) :
    o.state.running = s.running ∧ (o.state.generations = s.generations
      ∨ ∃ c : Event, c.isHandler = false
        ∧ o.state.generations = (s.callServer E c).generations) := by
  cases e with
  | thread i t => exact absurd rfl (he i t)
  | call c =>
    simp only [step] at hs
    split_ifs at hs
    cases hs
    exact ⟨runCall_running c, runCall_generations c⟩
  | stopServer k c =>
    cases c <;> simp only [step] at hs <;> split_ifs at hs <;> cases hs
    · exact ⟨callServer_running _, .inr ⟨.stop, rfl, rfl⟩⟩
    all_goals exact ⟨rfl, .inl rfl⟩
  | join k =>
    simp only [step] at hs
    split_ifs at hs
    split at hs
    · cases hs
      exact ⟨rfl, .inl rfl⟩
    · split at hs <;> cases hs <;> exact ⟨rfl, .inl rfl⟩
  | start | create k | createFailed k | stop | stopContext k | joinThrows k | destroy | free =>
    simp only [step] at hs
    split_ifs at hs <;> cases hs <;> exact ⟨rfl, .inl rfl⟩

/-- Replaced servers have nothing outstanding. -/
def EarlierIdle (s : Service) : Prop :=
  ∀ k g, s.replaced k = true → s.generations[k]? = some g → g.Idle

theorem runHandler_live {i k : ℕ} {e : Event} (h : s.runHandler E i k e = some o) :
    ∃ g, s.generations[k]? = some g ∧ ¬ g.Idle := by
  obtain ⟨g, o', hg, he, hs, -⟩ := runHandler_cases h
  refine ⟨g, hg, fun hidle => ?_⟩
  rw [Server.idle_iff.1 hidle.server e he] at hs
  cases hs

theorem runStartHandler_live {k : ℕ} (h : s.runStartHandler k = some o) :
    ∃ g, s.generations[k]? = some g ∧ ¬ g.Idle := by
  unfold runStartHandler at h
  split at h
  · cases h
  · rename_i g hg
    split_ifs at h with hp <;> exact ⟨g, hg, fun hidle => by simp [hidle.start] at hp⟩

theorem EarlierIdle.last (h : EarlierIdle s) {k : ℕ} {g : Generation}
    (hg : s.generations[k]? = some g) (hlive : ¬ g.Idle) : s.replaced k = false := by
  by_contra hk
  exact hlive (h k g (by simpa using hk) hg)

theorem runHandler_kept {i k : ℕ} {e : Event} (hi : EarlierIdle s)
    (h : s.runHandler E i k e = some o) : Kept s o.state := by
  obtain ⟨g, hg, hlive⟩ := runHandler_live h
  have hlast := hi.last hg hlive
  obtain ⟨g', o', hg', -, -, ⟨rfl, -⟩ | ⟨s', rfl, ho⟩⟩ := runHandler_cases h
  · exact .of_eq rfl
  have hset : Kept s (s.setGeneration k { g' with server := o'.state }) :=
    kept_setGeneration hg' hlast rfl
  rcases ho with rfl | rfl | rfl | ⟨f, rfl⟩
  · exact hset
  · exact hset.trans (.of_eq rfl)
  · exact hset
  · exact hset

theorem runStartHandler_kept {k : ℕ} (hi : EarlierIdle s) (h : s.runStartHandler k = some o) :
    Kept s o.state := by
  obtain ⟨g, hg, hlive⟩ := runStartHandler_live h
  have hlast := hi.last hg hlive
  simp only [runStartHandler, hg, hlast, Bool.false_eq_true, if_false] at h
  split_ifs at h
  cases h
  exact kept_setGeneration hg hlast rfl

theorem kept_configure : Kept s (s.configure E) :=
  ((kept_callServer _).trans (kept_callServer _)).trans (kept_callServer _)

theorem threadStep_kept {i : ℕ} {p : ThreadPhase} {t : ThreadStep} (hi : EarlierIdle s)
    (h : s.threadStep E i p t = some o) (ht : t ≠ .construct) : Kept s o.state := by
  unfold threadStep at h
  split at h
  case h_2 => exact absurd rfl ht
  case h_5 =>
    cases h
    exact kept_configure.trans (.of_eq rfl)
  case h_8 =>
    split_ifs at h
    exact runHandler_kept hi h
  case h_9 =>
    split_ifs at h
    exact runStartHandler_kept hi h
  case h_10 =>
    split at h <;> cases h
    exact .of_eq rfl
  case h_13 => cases h
  all_goals
    cases h
    exact .of_eq rfl

/-- Only a new server replaces one. -/
theorem step_kept (hi : EarlierIdle s) (hs : s.step E e = some o)
    (he : ∀ i, e ≠ .thread i .construct) : Kept s o.state := by
  by_cases hthread : ∃ i t, e = .thread i t
  · obtain ⟨i, t, rfl⟩ := hthread
    simp only [step] at hs
    split at hs
    · cases hs
    · exact threadStep_kept hi hs (by rintro rfl; exact he i rfl)
  · obtain ⟨-, h | ⟨c, -, h⟩⟩ := step_outside (fun i t h => hthread ⟨i, t, h⟩) hs
    · exact .of_eq h
    · exact (kept_callServer c).trans (.of_eq h)

/-! ## Over a run -/

/-- A thread that has made its server is the last to have made one. -/
def LastMade (s : Service) : Prop :=
  ∀ (i : ℕ) (p : ThreadPhase), s.threads[i]? = some p → p.hasServer = true →
    (s.generations.map Generation.madeBy).getLast? = some i

/-- What keeps the generations apart. -/
structure Apart (s : Service) : Prop where
  earlier : EarlierIdle s
  last : LastMade s

theorem hasServer_before (hc : ThreadsCase s o e) (he : ∀ i, e ≠ .thread i .construct) {i : ℕ}
    {p : ThreadPhase} (hi : o.state.threads[i]? = some p) (hp : p.hasServer = true) :
    ∃ p', s.threads[i]? = some p' ∧ p'.hasServer = true := by
  cases hc with
  | created k ht =>
    rw [ht, List.getElem?_append] at hi
    split_ifs at hi with hlt
    · exact ⟨p, hi, hp⟩
    · obtain rfl : p = .created := by simpa using List.mem_of_getElem? hi
      cases hp
  | joined k j _ ht =>
    rw [ht, List.getElem?_set] at hi
    split_ifs at hi
    · obtain rfl := Option.some.inj hi
      cases hp
    · exact ⟨p, hi, hp⟩
  | @ran j t q q' hj _ _ hserver ht =>
    rw [ht, List.getElem?_set] at hi
    split_ifs at hi with hji
    · obtain rfl := Option.some.inj hi
      subst hji
      rcases hserver hp with hq | rfl
      · exact ⟨q, hj, hq⟩
      · exact absurd rfl (he j)
    · exact ⟨p, hi, hp⟩
  | freed ht => exact ⟨p, ht ▸ hi, hp⟩
  | same ht => exact ⟨p, ht ▸ hi, hp⟩

theorem Apart.kept (h : Apart s) (hk : Kept s o.state) (hc : ThreadsCase s o e)
    (he : ∀ i, e ≠ .thread i .construct) : Apart o.state := by
  constructor
  · intro k g hr hg
    rw [hk.replaced_eq] at hr
    exact h.earlier k g hr (hk.replaced k hr ▸ hg)
  · intro i p hi hp
    obtain ⟨p', hi', hp'⟩ := hasServer_before hc he hi hp
    rw [hk.madeBy]
    exact h.last i p' hi' hp'

theorem callServer_stop_idle {k : ℕ} {g : Generation} (hk : s.generations[k]? = some g) :
    ∃ g', (s.callServer E .stop).generations[k]? = some g' ∧ (g'.Idle ↔ g.Idle) := by
  unfold callServer
  split
  · exact ⟨g, hk, Iff.rfl⟩
  · rename_i gl hgl
    split
    swap
    · exact ⟨g, hk, Iff.rfl⟩
    · rename_i o' ho
      rw [List.getLast?_eq_getElem?] at hgl
      by_cases hlast : s.generations.length - 1 = k
      · subst hlast
        obtain rfl : g = gl := Option.some.inj (hk.symm.trans hgl)
        have hlt := (List.getElem?_eq_some_iff.1 hk).1
        refine ⟨_, List.getElem?_set_self hlt, ?_⟩
        have hstop := Server.idle_stop ho
        exact ⟨fun h => ⟨h.start, hstop.1 h.server⟩, fun h => ⟨h.start, hstop.2 h.server⟩⟩
      · exact ⟨g, (List.getElem?_set_ne hlast).trans hk, Iff.rfl⟩

theorem construct_eq {i : ℕ} (hs : s.step E (.thread i .construct) = some o) :
    s.threads[i]? = some .restarted ∧ o = .ok ((s.newServer E i).setThread i .constructed) := by
  simp only [step] at hs
  split at hs
  · cases hs
  · rename_i p hp
    cases p <;> simp only [threadStep] at hs <;> cases hs
    exact ⟨hp, rfl⟩

theorem Apart.construct {i : ℕ} (hone : OneThread s)
    (hd : ∀ g ∈ s.generations, g.Idle) (hs : s.step E (.thread i .construct) = some o) :
    Apart o.state := by
  obtain ⟨hi, rfl⟩ := construct_eq hs
  constructor
  · intro k g hr hg
    have hlt : k < (s.callServer E .stop).generations.length := by
      simp [Service.replaced, newServer, setThread] at hr
      omega
    have hg' : (s.callServer E .stop).generations[k]? = some g := by
      rwa [Outcome.state_ok, setThread, newServer, List.getElem?_append_left hlt] at hg
    have hk : k < s.generations.length := by rwa [← (kept_callServer (E := E) .stop).length]
    obtain ⟨g'', hg'', hidle⟩ :=
      callServer_stop_idle (E := E) (List.getElem?_eq_getElem hk)
    obtain rfl := Option.some.inj (hg'.symm.trans hg'')
    exact hidle.2 (hd _ (List.getElem_mem hk))
  · intro j p hj hp
    have hij : i = j := by
      by_contra hne
      simp only [Outcome.state_ok, setThread, newServer, callServer_threads,
        List.getElem?_set_ne hne] at hj
      refine hne (hone i j .restarted p hi hj rfl ?_)
      cases p <;> first | rfl | cases hp
    subst hij
    simp [setThread, newServer]

variable {settings : ServiceSettings} {r : List (Service × ServiceEvent)}

theorem run_apart (hr : (serviceMachine E settings).Run r (.ok s))
    (hd : Machine.Steps Drained r) : Apart s := by
  refine hr.invariant_ok (P := Drained) ⟨?_, ?_⟩ (fun s e s' hreach h hd hs => ?_) hd
  · intro k g _ hg
    simp [serviceMachine, Service.init] at hg
  · intro i p hi
    simp [serviceMachine, Service.init] at hi
  · obtain ⟨r, hr⟩ := hreach
    by_cases he : ∃ i, e = .thread i .construct
    · obtain ⟨i, rfl⟩ := he
      exact Apart.construct (run_held hr).oneThread hd hs
    · have he' : ∀ i, e ≠ .thread i .construct := fun i hi => he ⟨i, hi⟩
      exact h.kept (step_kept h.earlier hs he') (step_threads hs) he'

/-- Where the generations are apart, a thread runs its own handlers. -/
theorem Apart.own (h : Apart s) (hs : s.step E e = some o) : Own s e := by
  have key {i k : ℕ} {p : ThreadPhase} (hi : s.threads[i]? = some p) (hp : p.hasServer = true)
      (hlive : ∃ g, s.generations[k]? = some g ∧ ¬ g.Idle) :
      s.replaced k = false ∧ ∃ g, s.generations[k]? = some g ∧ g.madeBy = i := by
    obtain ⟨g, hg, hlive⟩ := hlive
    have hlast := h.earlier.last hg hlive
    refine ⟨hlast, g, hg, ?_⟩
    have hmade := h.last i p hi hp
    have hk : k = s.generations.length - 1 := by
      have := (List.getElem?_eq_some_iff.1 hg).1
      simp [Service.replaced] at hlast
      omega
    subst hk
    rw [List.getLast?_eq_getElem?, List.length_map, List.getElem?_map, hg] at hmade
    exact Option.some.inj hmade
  unfold Own
  split
  · obtain ⟨hi, -, hs⟩ := step_handler.1 hs
    exact key hi rfl (runHandler_live hs)
  · obtain ⟨hi, -, hs⟩ := step_startHandler.1 hs
    exact key hi rfl (runStartHandler_live hs)
  · trivial

theorem threadStep_dangling {i : ℕ} {p : ThreadPhase} {t : ThreadStep}
    (h : s.threadStep E i p t = some (.fault .dangling s')) : ¬ Own s (.thread i t) := by
  unfold threadStep at h
  split at h
  case h_8 =>
    split_ifs at h
    obtain ⟨g, o', -, -, -, ⟨-, hr⟩ | ⟨s', -, ho⟩⟩ := runHandler_cases h
    · rintro ⟨hk, -⟩
      simp [hr] at hk
    · rcases ho with ho | ho | ho | ⟨f, ho⟩ <;> cases ho
  case h_9 =>
    split_ifs at h
    unfold runStartHandler at h
    split at h
    · cases h
    · split_ifs at h with _ hr
      · rintro ⟨hk, -⟩
        simp [hr] at hk
      · cases h
  case h_10 => split at h <;> cases h
  all_goals cases h

/-- Only a thread that runs a handler of another server finds its room gone. -/
theorem step_dangling (hs : s.step E e = some (.fault .dangling s')) : ¬ Own s e := by
  cases e with
  | thread i t =>
    simp only [step] at hs
    split at hs
    · cases hs
    · exact threadStep_dangling hs
  | create k | free =>
    simp only [step] at hs
    split_ifs at hs <;> cases hs
  | stopServer k c =>
    cases c <;> simp only [step] at hs <;> split_ifs at hs <;> cases hs
  | join k =>
    simp only [step] at hs
    split_ifs at hs
    split at hs
    · cases hs
    · split at hs <;> cases hs
  | start | createFailed k | stop | stopContext k | joinThrows k | destroy | call c =>
    simp only [step] at hs
    split_ifs at hs <;> cases hs

theorem run_dangling (hr : (serviceMachine E settings).Run r (.fault .dangling s)) :
    ¬ Machine.Steps Own r := by
  cases hr with
  | snoc _ hs => exact fun h => step_dangling hs (Machine.steps_snoc.1 h).2

/-! ## A server that is not idle -/

@[simp] theorem callServer_ioStopped (e : Event) :
    (s.callServer E e).ioStopped = s.ioStopped := by
  unfold callServer
  split
  · rfl
  · split <;> rfl

/-- A handler is left, and the loop will take it. -/
theorem live_handler {i k : ℕ} {g : Generation} (hi : s.threads[i]? = some .serving)
    (hio : s.ioStopped = false) (hg : s.generations[k]? = some g) (hlive : ¬ g.Idle) :
    ∃ t o, (t = .startHandler k ∨ ∃ e, t = .handler k e)
      ∧ s.step E (.thread i t) = some o := by
  by_cases hp : g.startPosted = true
  · have hrun : ∃ o, s.runStartHandler k = some o := by
      simp only [runStartHandler, hg, hp, if_true]
      split_ifs <;> exact ⟨_, rfl⟩
    obtain ⟨o, ho⟩ := hrun
    exact ⟨.startHandler k, o, .inl rfl, step_startHandler.2 ⟨hi, hio, ho⟩⟩
  · have hserver : ¬ g.server.Idle := fun h => hlive ⟨by simpa using hp, h⟩
    rw [Server.idle_iff (E := E)] at hserver
    push Not at hserver
    obtain ⟨e, he, hne⟩ := hserver
    obtain ⟨o', ho'⟩ := Option.ne_none_iff_exists'.1 hne
    have hrun : ∃ o, s.runHandler E i k e = some o := by
      simp only [runHandler, hg, he, ho', if_true]
      split_ifs
      · exact ⟨_, rfl⟩
      · split
        · exact ⟨_, rfl⟩
        · split_ifs <;> exact ⟨_, rfl⟩
        · exact ⟨_, rfl⟩
    obtain ⟨o, ho⟩ := hrun
    exact ⟨.handler k e, o, .inr ⟨e, rfl⟩, step_handler.2 ⟨hi, hio, ho⟩⟩

/-- When a server has handlers left that another replaces, the thread of the other goes on to run
one of them, if nothing stops it before. -/
theorem leftover_runs {i : ℕ} (hr : (serviceMachine E settings).Run r (.ok s))
    (hi : s.threads[i]? = some .restarted) (hio : s.ioStopped = false)
    (hd : ¬ Drained s (.thread i .construct)) :
    ∃ r' o, r ++ [(s, .thread i .construct)] <+: r' ∧ (serviceMachine E settings).Run r' o
      ∧ ¬ Machine.Steps Own r' := by
  simp only [Drained, not_forall] at hd
  obtain ⟨g, hg, hlive⟩ := hd
  obtain ⟨k, hk, rfl⟩ := List.getElem_of_mem hg
  obtain ⟨g', hg', hidle⟩ := callServer_stop_idle (E := E) (List.getElem?_eq_getElem hk)
  have hlt := (List.getElem?_eq_some_iff.1 hi).1
  let s₁ := (s.newServer E i).setThread i .constructed
  let s₂ := { s₁ with running := true }.setThread i .announced
  let s₃ := (s₂.configure E).setThread i .serving
  have hr₁ : (serviceMachine E settings).Run _ (.ok s₁) :=
    hr.snoc (e := .thread i .construct) (by simp [serviceMachine, step, hi, threadStep, s₁])
  have hr₂ : (serviceMachine E settings).Run _ (.ok s₂) :=
    hr₁.snoc (e := .thread i .setRunning) (by
      simp [serviceMachine, step, threadStep, s₂, s₁, setThread, newServer, hlt])
  have hr₃ : (serviceMachine E settings).Run _ (.ok s₃) :=
    hr₂.snoc (e := .thread i (.onRunning .returns)) (by
      simp [serviceMachine, step, threadStep, s₃, s₂, s₁, setThread, newServer, hlt])
  have hkept : Kept s₁ s₃ :=
    ((Kept.of_eq rfl : Kept s₁ s₂).trans kept_configure).trans (.of_eq rfl)
  have hrep : s₁.replaced k = true := by
    simp [s₁, Service.replaced, setThread, newServer, (kept_callServer (E := E) .stop).length, hk]
  have hg₁ : s₁.generations[k]? = some g' := by
    have hlt' := (List.getElem?_eq_some_iff.1 hg').1
    simp only [s₁, setThread, newServer]
    rw [List.getElem?_append_left hlt', hg']
  have hg₃ := (hkept.replaced k hrep).trans hg₁
  have hi₃ : s₃.threads[i]? = some .serving := by
    simp [s₃, s₂, s₁, setThread, newServer, configure, hlt]
  have hio₃ : s₃.ioStopped = false := by
    simp [s₃, s₂, s₁, setThread, newServer, configure, hio]
  obtain ⟨t, o, ht, hs⟩ := live_handler (E := E) hi₃ hio₃ hg₃ (fun h => hlive (hidle.1 h))
  have hs₃ : (serviceMachine E settings).step s₃ (.thread i t) = some o := hs
  refine ⟨_, o, ?_, hr₃.snoc hs₃, fun hown => ?_⟩
  · simp only [List.append_assoc]
    exact (List.prefix_append_right_inj r).2 (List.prefix_append _ _)
  · have hlast := (Machine.steps_snoc.1 hown).2
    have hrep₃ := (hkept.replaced_eq k).trans hrep
    rcases ht with rfl | ⟨e, rfl⟩ <;>
    · obtain ⟨hk, -⟩ := hlast
      simp [hrep₃] at hk

/-- Where every server has run out of handlers when another replaces it, a thread runs the handlers
of its own server alone and none finds its room gone; and where one has not, the thread that
replaces it can go on to run what is left. -/
theorem restart_isolates {o : Outcome ServiceFault Service}
    (hr : (serviceMachine E settings).Run r o) :
    (Machine.Steps Drained r → Machine.Steps Own r ∧ ¬ ∃ s, o = .fault .dangling s)
    ∧ ∀ (s : Service) (i : ℕ), o = .ok s → s.threads[i]? = some .restarted →
      s.ioStopped = false → ¬ Drained s (.thread i .construct) →
        ∃ r' o', r ++ [(s, .thread i .construct)] <+: r'
          ∧ (serviceMachine E settings).Run r' o' ∧ ¬ Machine.Steps Own r' := by
  constructor
  · intro hd
    have hown : Machine.Steps Own r := by
      induction hr with
      | nil => simp [Machine.Steps]
      | snoc hr hs ih =>
        obtain ⟨hd, -⟩ := Machine.steps_snoc.1 hd
        exact Machine.steps_snoc.2 ⟨ih hd, (run_apart hr hd).own hs⟩
    refine ⟨hown, ?_⟩
    rintro ⟨s, rfl⟩
    exact run_dangling hr hown
  · rintro s i rfl hi hio hd
    exact leftover_runs hr hi hio hd

/-- The generations a thread is about to add its own to. -/
def addsTo : Service × ServiceEvent → Option (List Generation)
  | (s, .thread _ .construct) => some s.generations
  | _ => none

theorem steps_drained_iff : Machine.Steps Drained r ↔
    ∀ l ∈ r.filterMap addsTo, ∀ g ∈ l, g.Idle := by
  simp only [Machine.Steps, List.mem_filterMap]
  constructor
  · rintro h l ⟨⟨s, e⟩, hx, hl⟩
    unfold addsTo at hl
    split at hl
    · rename_i hxe
      cases hl
      cases hxe
      exact h _ hx
    · cases hl
  · rintro h ⟨s, e⟩ hx
    show Drained s e
    unfold Drained
    split
    · exact h s.generations ⟨_, hx, rfl⟩
    · trivial

/-- A stop that leaves the loop the time to run what it has closed, and another start. -/
def restartsDrained : List ServiceEvent :=
  starts 0 ++ [.thread 0 (.startHandler 0), .stop, .stopServer 0 .returns,
    .thread 0 (.handler 0 .acceptFailed), .stopContext 0, .thread 0 .runReturns, .thread 0 .clear,
    .thread 0 .finish, .join 0] ++ starts 1 ++ [.thread 1 (.startHandler 1)]

theorem restart_isolates_drained :
    (∃ r s, (serviceMachine .counting defaultSettings).Run r (.ok s)
      ∧ r.map Prod.snd = restartsDrained ∧ Machine.Steps Own r)
    ∧ ∃ r o, (serviceMachine .counting defaultSettings).Run r o
      ∧ starts 0 ++ [.stop] ++ stops 0 ++ [.start, .create 0, .thread 1 .restart,
        .thread 1 .construct] <+: r.map Prod.snd
      ∧ ¬ Machine.Steps Own r := by
  constructor
  · have hrun : ((serviceMachine .counting defaultSettings).exec (Service.init defaultSettings)
        restartsDrained).any (Outcome.okAnd fun _ => true) = true := by
      decide +kernel
    let w : Server := { Server.init with
      accepts := 0
      acceptorOpen := false
      maxParticipants := 5
      keepAlive := true
      clock := 5 }
    have hadds : ((serviceMachine .counting defaultSettings).trail
        (serviceMachine .counting defaultSettings).init restartsDrained).filterMap addsTo
          = [[], [⟨w, 0, false⟩]] := rfl
    obtain ⟨s, hr, hes, -⟩ := Machine.exec_trail hrun
    refine ⟨_, s, hr, hes, ((restart_isolates hr).1 (steps_drained_iff.2 ?_)).1⟩
    intro l hl g hg
    rw [hadds] at hl
    obtain rfl | rfl : l = [] ∨ l = [⟨w, 0, false⟩] := by simpa using hl
    · cases hg
    · obtain rfl := List.mem_singleton.1 hg
      exact ⟨rfl, rfl, fun _ => rfl, fun _ => rfl, fun _ => rfl⟩
  · have hrun : ((serviceMachine .counting defaultSettings).exec (Service.init defaultSettings)
        (starts 0 ++ [.stop] ++ stops 0 ++ [.start, .create 0, .thread 1 .restart])).any
          (Outcome.okAnd fun s => s.threads[1]? = some .restarted && !s.ioStopped
            && s.generations.any (·.startPosted)) = true := by
      decide +kernel
    obtain ⟨s, hr, hes, hp⟩ := Machine.exec_trail hrun
    simp only [Bool.and_eq_true, decide_eq_true_eq, Bool.not_eq_true', List.any_eq_true] at hp
    obtain ⟨⟨hi, hio⟩, g, hg, hposted⟩ := hp
    obtain ⟨r', o, hpre, hr', hown⟩ := (restart_isolates hr).2 s 1 rfl hi hio
      fun hd => by simp [(hd g hg).start] at hposted
    refine ⟨r', o, hr', ?_, hown⟩
    have hmap := hpre.map Prod.snd
    rw [List.map_append, hes] at hmap
    simpa using hmap

/-- A client is a member when the service is stopped. -/
def restartsWithMember : List ServiceEvent :=
  starts 0 ++ [.thread 0 (.startHandler 0), .thread 0 (.handler 0 (.accept (some []) 0)),
    .thread 0 (.handler 0 (.read 0 0 ChatClient.credentialsAck.frame .plain)), .stop] ++ stops 0
    ++ starts 1 ++ [.thread 1 (.handler 0 (.readFailed 0 0 .plain))]

/-- Its read, which the stop has aborted, ends in the next thread, and calls the room that is
gone. -/
theorem restart_runs_leftover : ∃ r s,
    (serviceMachine .counting defaultSettings).Run r (.fault .dangling s)
      ∧ r.map Prod.snd = restartsWithMember ∧ ¬ Machine.Steps Own r := by
  have hrun : ((serviceMachine .counting defaultSettings).exec (Service.init defaultSettings)
      restartsWithMember).any (Outcome.faultIs .dangling) = true := by
    decide +kernel
  obtain ⟨r, s, hr, hes⟩ := Machine.exec_faultIs hrun
  exact ⟨r, s, hr, hes, run_dangling hr⟩

end Service

end XRNetwork
