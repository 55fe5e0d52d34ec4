import XRNetwork.Credentials
import XRNetwork.Proofs.Sides

/-!
# Whose credentials admit

The handshake compares with a login and a password of its own and never asks the server for those it
was given. Both checks look at C strings, and a literal of a few bytes is compared within the
buffer whatever follows it (`credentials_eq_iff`), so where the room has a place the session becomes
a member for one pair of strings, and `verify_credentials` may accept another.
-/

namespace XRNetwork

/-- Bytes behind a string that is longer than the literal do not matter. -/
theorem cString_append_eq {s t l : Bytes} (h : l.length < s.length) :
    cString (s ++ t) = l ↔ cString s = l := by
  unfold cString
  rw [List.takeWhile_append]
  split_ifs with hall
  · have hself : s.takeWhile (fun x => decide (x ≠ 0)) = s :=
      (List.takeWhile_prefix _).eq_of_length hall
    rw [hself]
    refine ⟨fun heq => ?_, fun heq => ?_⟩
    · have hlen := congrArg List.length heq
      rw [List.length_append] at hlen
      omega
    · rw [heq] at h
      omega
  · rfl

/-- What `check_handshake_credentials_ack` compares with. -/
def Credentials.builtIn : Credentials := ⟨ascii "login", ascii "password"⟩

theorem credentials_eq_iff (behind : Bytes) {m : XRMessage} :
    m.credentials behind = .builtIn ↔ Server.goodCredentials m := by
  have hlogin : (ascii "login").length < m.loginBuffer.length := by
    rw [XRMessage.loginBuffer, XRMessage.payload, List.length_drop, List.length_drop, m.size_eq]
    decide
  have hpassword : (ascii "password").length < m.passwordBuffer.length := by
    rw [XRMessage.passwordBuffer, XRMessage.payload, List.length_drop, List.length_drop, m.size_eq]
    decide
  rw [XRMessage.credentials, Credentials.builtIn, Credentials.mk.injEq, cString_append_eq hlogin,
    cString_append_eq hpassword, Server.goodCredentials]

namespace Server

variable {E : Env} {w : Server} {s i : ℕ} {c : Choice} {buf : Buffer 65536}

/-- The room would take the session: its socket is open, the room is not full, and neither the
session nor one with the id that is drawn next is a member. -/
structure HasPlace (E : Env) (w : Server) (s : ℕ) : Prop where
  isOpen : (w.sides s).isOpen = true
  room : w.participants.length < w.maxParticipants.toNat
  new : ∀ p ∈ w.participants, p ≠ s ∧ (w.sessions p).mId ≠ E.rng w.drawn

theorem mem_join (hp : w.HasPlace E s) : s ∈ (w.join E c s).state.participants := by
  have hkeys : ∀ p ∈ w.participants, ((w.drawId E s).fillInfo s).key p
      ≠ ((w.drawId E s).fillInfo s).key s := by
    intro p hmem
    obtain ⟨hne, hid⟩ := hp.new p hmem
    simpa [key, drawId, fillInfo, setSession, hne, UInt64.toNat_inj] using hid
  have hins : s ∈ KeyedSet.insert ((w.drawId E s).fillInfo s).key s w.participants :=
    (KeyedSet.insert_perm hkeys).mem_iff.2 List.mem_cons_self
  have hroom : ¬ (w.log (.joinCalled s)).maxParticipants.toNat
      ≤ (w.log (.joinCalled s)).participants.length := not_le.2 hp.room
  have hopen : (((w.log (.joinCalled s)).drawId E s).sides s).isOpen = true := hp.isOpen
  unfold join
  simp only []
  rw [if_neg hroom, if_pos hopen]
  split_ifs <;> exact hins

theorem participants_join_of_closed (hc : (w.sides s).isOpen = false) :
    (w.join E c s).state.participants = w.participants := by
  have hclosed : ¬ (((w.log (.joinCalled s)).drawId E s).sides s).isOpen = true := by
    show ¬ (w.sides s).isOpen = true
    simp [hc]
  unfold join
  simp only []
  rw [if_neg hclosed]
  split_ifs <;> rfl

/-- Where the room would take it, the session becomes a member if and only if its credentials pass
the handshake's test. -/
theorem mem_checkHandshakeCredentialsAck (hp : w.HasPlace E s) (m : XRMessage) :
    s ∈ (w.checkHandshakeCredentialsAck E c s m).state.participants ↔ goodCredentials m := by
  have hdeliver : ∀ o : Outcome Fault Server, (o.andThen fun w =>
      .ok (w.deliverByte s (participantJoin (w.sessions s).mId).toMessage)).state.participants
        = o.state.participants := by
    intro o
    cases o <;> rfl
  unfold checkHandshakeCredentialsAck
  simp only []
  rw [hdeliver]
  by_cases hgood : goodCredentials m
  · have hjoin : s ∈ ((w.doReadByte s).join E c s).state.participants := by
      refine mem_join ⟨hp.isOpen, hp.room, fun p hmem => ?_⟩
      have hne := (hp.new p hmem).1
      simpa [doReadByte, setSession, hne] using hp.new p hmem
    rw [if_pos hgood]
    exact ⟨fun _ => hgood, fun _ => hjoin⟩
  · have hclosed : (((w.disconnect s).doReadByte s).sides s).isOpen = false := by
      simp [disconnect, doReadByte, setSide, setSession, WriteSide.close]
    have hnot : s ∉ w.participants := fun hmem => (hp.new s hmem).1 rfl
    rw [if_neg hgood, participants_join_of_closed hclosed]
    exact ⟨fun hmem => absurd hmem hnot, fun h => absurd h hgood⟩

end Server

open Server

namespace NrServer

variable {E : Env} {n : NrServer}

/-- Reading the frame makes the session a member. -/
def Admits (E : Env) (n : NrServer) (s i : ℕ) (buf : Buffer 65536) (c : Choice) : Prop :=
  ∃ o, n.step E (.server (.read s i buf c)) = some o ∧ s ∈ o.state.server.participants

theorem admits_iff {s i : ℕ} {buf : Buffer 65536} {c : Choice}
    (hr : (n.server.sessions s).reads[i]? = some ⟨.handshake, true⟩)
    (hk : (receivedMessage buf).kind = some .handshakeCredentialsAck)
    (hp : n.server.HasPlace E s) :
    n.Admits E s i buf c ↔ goodCredentials (receivedMessage buf) := by
  have hstep : n.server.step E (.read s i buf c) = some
      ((((n.server.tick.dropRead s i).log (.received s .handshake (receivedMessage buf))
        ).checkHandshakeCredentialsAck E c s (receivedMessage buf))) := by
    simp only [Server.step, hr, onRead, onReadHandshake, hk]
  have hp' : ((n.server.tick.dropRead s i).log
      (.received s .handshake (receivedMessage buf))).HasPlace E s := by
    refine ⟨hp.isOpen, hp.room, fun p hmem => ?_⟩
    have hne := (hp.new p hmem).1
    simpa [log, dropRead, tick, setSession, hne] using hp.new p hmem
  rw [← mem_checkHandshakeCredentialsAck (c := c) hp' (receivedMessage buf), Admits, step, hstep]
  simp

theorem verifyCredentials_iff {credentials : Credentials} :
    n.verifyCredentials credentials = true ↔ n.credentials = credentials := by
  obtain ⟨w, login, password⟩ := n
  obtain ⟨login', password'⟩ := credentials
  simp [verifyCredentials]

/-- Whenever the server has these credentials, the frame admits a session the room would take if and
only if `verify_credentials` accepts what is in it. -/
def FollowsCredentials (cfg : Credentials) (buf : Buffer 65536) (behind : Bytes) : Prop :=
  ∀ E n s i c, (nrMachine E).Reachable (.ok n) → n.credentials = cfg →
    (n.server.sessions s).reads[i]? = some ⟨.handshake, true⟩ → n.server.HasPlace E s →
      (n.Admits E s i buf c ↔ n.verifyCredentials ((receivedMessage buf).credentials behind) = true)

/-- A server with any credentials that has accepted a connection. -/
theorem exists_place (cfg : Credentials) : ∃ n, (nrMachine .counting).Reachable (.ok n)
    ∧ n.credentials = cfg ∧ (n.server.sessions 0).reads[0]? = some ⟨.handshake, true⟩
    ∧ n.server.HasPlace .counting 0 := by
  have hstep : (Server.init.step .counting (.accept (some []) 0)).any (Outcome.okAnd fun w =>
      (w.sessions 0).reads[0]? = some ⟨.handshake, true⟩ ∧ (w.sides 0).isOpen
        ∧ w.participants = [] ∧ w.maxParticipants = 10) = true := by
    decide +kernel
  obtain ⟨o, ho, hok⟩ := (Option.any_eq_true _ _).1 hstep
  cases o with
  | fault f w => cases hok
  | ok w =>
    obtain ⟨hread, hopen, hps, hmax⟩ := of_decide_eq_true hok
    have hset : (nrMachine .counting).Reachable
        (.ok (NrServer.init.setCredentials cfg.login cfg.password)) :=
      Machine.reachable_init.step (e := .setCredentials cfg.login cfg.password) rfl
    have hacc : (nrMachine .counting).step
        (NrServer.init.setCredentials cfg.login cfg.password) (.server (.accept (some []) 0))
          = some (.ok ⟨w, cfg⟩) := by
      simp only [nrMachine, NrServer.step, setCredentials, NrServer.init, ho, Option.map_some,
        Outcome.map]
    refine ⟨⟨w, cfg⟩, hset.step hacc, rfl, hread, hopen, ?_, ?_⟩
    · simp [hps, hmax]
    · simp [hps]

end NrServer

open NrServer

/-- For every credentials and every `CREDENTIALS_ACK`: the frame admits as `verify_credentials` says
if and only if the credentials are the built-in ones, or what is in the frame is neither those nor
the server's. -/
theorem admission_iff (cfg : Credentials) (behind : Bytes) {buf : Buffer 65536}
    (hk : (receivedMessage buf).kind = some .handshakeCredentialsAck) :
    FollowsCredentials cfg buf behind ↔ cfg = .builtIn ∨
      ((receivedMessage buf).credentials behind ≠ .builtIn
        ∧ (receivedMessage buf).credentials behind ≠ cfg) := by
  constructor
  · intro h
    obtain ⟨n, hn, rfl, hr, hp⟩ := exists_place cfg
    have hfollows := h .counting n 0 0 .plain hn rfl hr hp
    rw [admits_iff hr hk hp, verifyCredentials_iff, ← credentials_eq_iff behind]
      at hfollows
    by_cases hb : (receivedMessage buf).credentials behind = .builtIn
    · exact .inl ((hfollows.1 hb).trans hb)
    · exact .inr ⟨hb, fun heq => hb (hfollows.2 heq.symm)⟩
  · rintro h E n s i c - rfl hr hp
    rw [admits_iff hr hk hp, verifyCredentials_iff, ← credentials_eq_iff behind]
    rcases h with hb | ⟨hb, hne⟩
    · rw [hb, eq_comm]
    · exact ⟨fun heq => absurd heq hb, fun heq => absurd heq.symm hne⟩

theorem admission_iff_builtIn : FollowsCredentials .builtIn ChatClient.credentialsAck.frame [] :=
  (admission_iff .builtIn [] (by decide +kernel)).2 (.inl rfl)

/-- A server that has been given other credentials admits the built-in ones. -/
theorem other_credentials_ignored :
    ¬ FollowsCredentials ⟨ascii "admin", ascii "secret"⟩ ChatClient.credentialsAck.frame [] := by
  intro h
  have hgood : goodCredentials (receivedMessage ChatClient.credentialsAck.frame) := by
    decide +kernel
  obtain ⟨n, hn, hcfg, hr, hp⟩ := exists_place ⟨ascii "admin", ascii "secret"⟩
  have hfollows := h .counting n 0 0 .plain hn hcfg hr hp
  rw [admits_iff hr (by decide +kernel) hp, verifyCredentials_iff, hcfg,
    (credentials_eq_iff []).2 hgood] at hfollows
  exact absurd (hfollows.1 hgood) (by decide)

end XRNetwork
