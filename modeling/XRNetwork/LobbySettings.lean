import XRNetwork.Service

/-!
# The setting that `Service` leaves out

Whether all messages are broadcast: the service has a flag for it, and so has the room of its
server, which nothing sets before `thread_function` passes the service's on with the other settings.
-/

namespace XRNetwork

structure LobbyService extends Service where
  /-- `b_auto_broadcast_all_incoming_messages`. -/
  autoBroadcast : Bool
  /-- `broadcast_participants_messages` of the room of `server`: a new room has no value for it. -/
  roomBroadcast : Option Bool

inductive LobbyEvent
  | service (e : ServiceEvent)
  | setBroadcastingAllMessages (b : Bool)

namespace LobbyService

/-- What a step of the service leaves in the room. -/
def roomBroadcastAfter (s : LobbyService) : ServiceEvent → Option Bool
  | .thread _ .construct => none
  | .thread _ (.onRunning .returns) => some s.autoBroadcast
  | _ => s.roomBroadcast

def step (E : Env) (s : LobbyService) : LobbyEvent → Option (Outcome ServiceFault LobbyService)
  | .service e => (s.toService.step E e).map fun o =>
    o.map fun s' => ⟨s', s.autoBroadcast, s.roomBroadcastAfter e⟩
  | .setBroadcastingAllMessages b =>
    -- the server is not told, whether it runs or not
    if s.destroying then none else some (.ok { s with autoBroadcast := b })

/-- Whatever the settings: one constructor gives the flag no value. -/
def init (settings : ServiceSettings) (autoBroadcast : Bool) : LobbyService :=
  ⟨Service.init settings, autoBroadcast, none⟩

end LobbyService

end XRNetwork
