import XRNetwork.Server

/-!
# The lobby service

`XRNetworkLobbyService`: the calls made on it, from any number of other threads and each in progress
for as long as it takes, and the threads `start()` creates, each going through `thread_function`.
All of them take their steps in any order.

Every start makes a new `nr_server`; `generations` has all that were made, the last of which `server`
points to. What an earlier one has left in the `io_context` stays there: `stop()` does not run it and
`restart()` does not drop it. The room of an earlier one is gone.
-/

namespace XRNetwork

/-- How far a thread has come in `thread_function`. -/
inductive ThreadPhase
  | created
  /-- `io_context_.restart()` is done. -/
  | restarted
  /-- `server` is set. -/
  | constructed
  /-- `b_thread_running_` is set. -/
  | announced
  /-- In `io_context_.run()`. -/
  | serving
  /-- Behind the `try` block. -/
  | leaving
  /-- `b_thread_running_` is cleared. -/
  | cleared
  | finished
  /-- Finished, and joined. -/
  | joined
deriving DecidableEq, Repr

/-- The thread is in `thread_function`. -/
def ThreadPhase.executing : ThreadPhase → Bool
  | finished | joined => false
  | _ => true

/-- It has made its server, and may yet run it. -/
def ThreadPhase.hasServer : ThreadPhase → Bool
  | constructed | announced | serving => true
  | _ => false

/-- A call of `start()` that has found the flag clear, or of `stop()` that has found it set, and what
it does next. -/
inductive PendingCall
  | create
  | stopServer
  | stopContext
  | join
deriving DecidableEq, Repr

/-- An `nr_server`, the thread that made it, and whether the handler its constructor posts is yet to
run. -/
structure Generation where
  server : Server
  madeBy : ℕ
  startPosted : Bool

/-- What the service keeps for the servers it makes. -/
structure ServiceSettings where
  keepAlive : Bool
  maxParticipants : UInt16
  serviceName : Bytes

structure Service where
  /-- `b_thread_running_`. -/
  running : Bool
  /-- The thread in `service_thread_ptr_`. -/
  threadPtr : Option ℕ
  threads : List ThreadPhase
  calls : List PendingCall
  /-- The destructor has been called; it has destroyed the members. -/
  destroying : Bool
  destroyed : Bool
  ioStopped : Bool
  generations : List Generation
  settings : ServiceSettings

inductive ServiceFault
  /-- A thread that can be joined is destroyed with its `std::thread`. -/
  | terminate
  /-- An exception leaves a thread or the destructor. -/
  | uncaught
  /-- A handler refers to an `nr_server` that is gone. -/
  | dangling
  | crash (f : Fault)
  | nullDereference
deriving DecidableEq, Repr

/-- Methods of the service that do not touch the thread. -/
inductive ServiceCall
  | setMaxParticipants (n : UInt16)
  | setMaxHandshakeConnections (n : UInt16)
  | setKeepAlive (b : Bool)
  | setServiceName (name : Bytes)
  | disconnectAllParticipants
  | setParticipantDeaf (id : UInt64) (deaf : Bool)

/-- The steps of `thread_function`. -/
inductive ThreadStep
  | restart
  | construct
  /-- The port cannot be bound. -/
  | constructFailed
  | setRunning
  | onRunning (c : Callback)
  /-- `run()` runs a handler of the given generation. -/
  | handler (k : ℕ) (e : Event)
  /-- The one its constructor posted. -/
  | startHandler (k : ℕ)
  | runReturns
  | clear
  | finish

inductive ServiceEvent
  | start
  | create (k : ℕ)
  /-- The constructor of `std::thread` throws. -/
  | createFailed (k : ℕ)
  | stop
  | stopServer (k : ℕ) (c : Callback)
  | stopContext (k : ℕ)
  | join (k : ℕ)
  /-- `join()` throws, as it does when the call is made on the thread itself. -/
  | joinThrows (k : ℕ)
  | destroy
  | free
  | call (c : ServiceCall)
  | thread (i : ℕ) (t : ThreadStep)

/-- The event is the run of a handler, not a call from outside. -/
def Event.isHandler : Event → Bool
  | .accept .. | .acceptFailed | .read .. | .readFailed .. | .posted _ | .writeSome ..
  | .writeDone .. | .writeFailed .. => true
  | _ => false

namespace Server

/-- The handler refers to the room. -/
def refersToRoom (w : Server) : Event → Bool
  | .accept .. | .writeFailed .. => true
  | .read s i buf _ =>
    match ((w.sessions s).reads[i]?).map PendingRead.loop, (receivedMessage buf).kind with
    | some .handshake, some .handshakeCredentialsAck | some .room, some .participantJoinAck
    | some .room, some .participantUpdateAck | some .room, some .participantLeaveAck => true
    | _, _ => false
  | .readFailed s i _ => ((w.sessions s).reads[i]?).map PendingRead.loop = some .room
  | _ => false

/-- The exception that a handler has ended with is not a `std::exception`: a subscriber threw it,
when it was signalled. -/
def escapes (w w' : Server) (e : Event) : Bool :=
  e.choice.any (fun c => c.callback = .throwsOther)
    && (w'.trace.drop w.trace.length).any fun x =>
      match x.2 with
      | .signalNew .. | .signalLeave .. => true
      | _ => false

/-- No handler of the server is outstanding. -/
def isIdle (w : Server) : Bool :=
  decide (w.accepts = 0) && (List.range w.made).all fun s =>
    (w.sessions s).reads.isEmpty && (w.sides s).posted.isEmpty && (w.sides s).writes.isEmpty

end Server

namespace Service

variable (E : Env)

def setThread (i : ℕ) (p : ThreadPhase) (s : Service) : Service :=
  { s with threads := s.threads.set i p }

def setGeneration (k : ℕ) (g : Generation) (s : Service) : Service :=
  { s with generations := s.generations.set k g }

/-- The call goes on, or, with `none`, ends. -/
def setCall (k : ℕ) (c : Option PendingCall) (s : Service) : Service :=
  { s with
    calls := match c with
      | some c => s.calls.set k c
      | none => s.calls.eraseIdx k }

/-- `service_thread_ptr_` holds a thread that has not been joined. -/
def holdsThread (s : Service) : Bool :=
  match s.threadPtr with
  | none => false
  | some i => s.threads[i]? ≠ some .joined

/-- A call of a method of `server`. -/
def callServer (e : Event) (s : Service) : Service :=
  match s.generations.getLast? with
  | none => s
  | some g =>
    match g.server.step E e with
    | some o => s.setGeneration (s.generations.length - 1) { g with server := o.state }
    | none => s

/-- A method that calls `server` if the service is running. -/
def callIfRunning (e : Event) (s : Service) : Service := if s.running then s.callServer E e else s

def runCall (s : Service) : ServiceCall → Service
  | .setMaxParticipants n =>
    { s with settings.maxParticipants := n }.callIfRunning E (.setMaxParticipants n)
  -- the server has one limit, for participants
  | .setMaxHandshakeConnections n => s.callIfRunning E (.setMaxParticipants n)
  | .setKeepAlive b => { s with settings.keepAlive := b }
  | .setServiceName name => { s with settings.serviceName := name }
  | .disconnectAllParticipants => s.callIfRunning E .disconnectAllParticipants
  | .setParticipantDeaf id deaf => s.callIfRunning E (.setParticipantDeaf id deaf)

/-- `server` is set to a new `nr_server`. The one it has pointed to disconnects its participants and
closes its acceptor as it goes. -/
def newServer (i : ℕ) (s : Service) : Service :=
  let s := s.callServer E .stop
  { s with generations := s.generations ++ [⟨Server.init, i, true⟩] }

/-- What the thread tells `server` before it runs it. -/
def configure (s : Service) : Service :=
  ((s.callServer E (.setKeepAlive s.settings.keepAlive)).callServer E
    (.setMaxParticipants s.settings.maxParticipants)).callServer E
      (.setServiceName s.settings.serviceName)

/-- `server` is another one than this. -/
def replaced (k : ℕ) (s : Service) : Bool := decide (k + 1 < s.generations.length)

/-- A handler's run in thread `i`. -/
def runHandler (i k : ℕ) (e : Event) (s : Service) : Option (Outcome ServiceFault Service) :=
  match s.generations[k]? with
  | none => none
  | some g =>
    if e.isHandler then
      match g.server.step E e with
      | none => none
      | some o =>
        if s.replaced k && g.server.refersToRoom e then some (.fault .dangling s)
        else
          let s' := s.setGeneration k { g with server := o.state }
          match o with
          | .ok _ => some (.ok s')
          | .fault .exception w =>
            if g.server.escapes w e then some (.fault .uncaught s')
            else some (.ok (s'.setThread i .leaving))
          | .fault f _ => some (.fault (.crash f) s')
    else none

/-- The handler `nr_server`'s constructor posts waits for the server to have started, which it has
by the time it runs. -/
def runStartHandler (k : ℕ) (s : Service) : Option (Outcome ServiceFault Service) :=
  match s.generations[k]? with
  | none => none
  | some g =>
    if g.startPosted then
      if s.replaced k then some (.fault .dangling s)
      else some (.ok (s.setGeneration k { g with startPosted := false }))
    else none

/-- A step of `thread_function` in thread `i`, which has come to `p`. -/
def threadStep (i : ℕ) (s : Service) :
    ThreadPhase → ThreadStep → Option (Outcome ServiceFault Service)
  | .created, .restart => some (.ok ({ s with ioStopped := false }.setThread i .restarted))
  | .restarted, .construct => some (.ok ((s.newServer E i).setThread i .constructed))
  | .restarted, .constructFailed => some (.ok (s.setThread i .leaving))
  | .constructed, .setRunning => some (.ok ({ s with running := true }.setThread i .announced))
  | .announced, .onRunning .returns => some (.ok ((s.configure E).setThread i .serving))
  | .announced, .onRunning .throws => some (.ok (s.setThread i .leaving))
  | .announced, .onRunning .throwsOther => some (.fault .uncaught s)
  | .serving, .handler k e => if s.ioStopped then none else s.runHandler E i k e
  | .serving, .startHandler k => if s.ioStopped then none else s.runStartHandler k
  | .serving, .runReturns =>
    -- it is stopped, or out of work
    if s.ioStopped || s.generations.all fun g => g.server.isIdle && !g.startPosted then
      some (.ok ({ s with ioStopped := true }.setThread i .leaving))
    else none
  | .leaving, .clear => some (.ok ({ s with running := false }.setThread i .cleared))
  | .cleared, .finish => some (.ok (s.setThread i .finished))
  | _, _ => none

def step (s : Service) : ServiceEvent → Option (Outcome ServiceFault Service)
  | .start =>
    if s.destroying then none
    else some (.ok (if s.running then s else { s with calls := s.calls ++ [.create] }))
  | .create k =>
    if s.calls[k]? = some .create then
      let s' := { s.setCall k none with
        threads := s.threads ++ [.created]
        threadPtr := some s.threads.length }
      -- the new thread is there when the old one is destroyed
      some (if s.holdsThread then .fault .terminate s' else .ok s')
    else none
  | .createFailed k =>
    if s.calls[k]? = some .create then some (.ok (s.setCall k none)) else none
  | .stop =>
    if s.destroying then none
    else some (.ok (if s.running then { s with calls := s.calls ++ [.stopServer] } else s))
  | .stopServer k c =>
    if s.calls[k]? = some .stopServer then
      match c with
      | .returns => some (.ok ((s.callServer E .stop).setCall k (some .stopContext)))
      | .throws => some (.ok (s.setCall k none))
      | .throwsOther =>
        some (if s.destroying then .fault .uncaught s else .ok (s.setCall k none))
    else none
  | .stopContext k =>
    if s.calls[k]? = some .stopContext then
      some (.ok ({ s with ioStopped := true }.setCall k (some .join)))
    else none
  | .join k =>
    if s.calls[k]? = some .join then
      match s.threadPtr with
      | none => some (.fault .nullDereference s)
      | some i =>
        match s.threads[i]? with
        | some .finished => some (.ok ((s.setThread i .joined).setCall k none))
        -- a thread that has been joined cannot be joined again
        | some .joined => some (.ok (s.setCall k none))
        | _ => none
    else none
  | .joinThrows k =>
    if s.calls[k]? = some .join then some (.ok (s.setCall k none)) else none
  | .destroy =>
    if s.destroying = false ∧ s.calls = [] then
      some (.ok { s with destroying := true, calls := if s.running then [.stopServer] else [] })
    else none
  | .free =>
    if s.destroying ∧ s.destroyed = false ∧ s.calls = [] then
      some (if s.holdsThread then .fault .terminate s else .ok { s with destroyed := true })
    else none
  | .call c => if s.destroying then none else some (.ok (s.runCall E c))
  | .thread i t =>
    match s.threads[i]? with
    | none => none
    | some p => s.threadStep E i p t

/-- As its constructors leave it, whatever the settings. -/
def init (settings : ServiceSettings) : Service where
  running := false
  threadPtr := none
  threads := []
  calls := []
  destroying := false
  destroyed := false
  ioStopped := false
  generations := []
  settings

end Service

def serviceMachine (E : Env) (settings : ServiceSettings) :
    Machine ServiceFault Service ServiceEvent := ⟨Service.init settings, Service.step E⟩

end XRNetwork
