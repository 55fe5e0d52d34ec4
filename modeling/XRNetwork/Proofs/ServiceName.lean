import XRNetwork.Prints

/-!
# Names that fit the hello

`set_service_name` takes names of any length, and so do the session's constructor and
`build_handshake_hello`, which copies the name into 1024 bytes. A name of 1024 bytes fills them and
leaves no byte for a terminating zero, so that the print of the hello goes on behind it
(`terminated_iff`); a longer one is copied past them. The server does either for the next connection
it accepts (`accept_overruns_iff`).
-/

namespace XRNetwork

/-- The hello holds a name as its receivers expect it. -/
structure HandshakeHello.Holds (hh : HandshakeHello) (name : Bytes) : Prop where
  fits : hh.servernameBuffersize.toNat ≤ 1024
  stored : hh.servernameBuffer.toList.take hh.servernameBuffersize.toNat <+: name
  whole : name.length ≤ 1024 → hh.servernameBuffersize.toNat = name.length
  /-- A C string read from the buffer ends in it. -/
  terminated : 0 ∈ hh.servernameBuffer.toList
  read : 0 ∉ name → cString hh.servernameBuffer.toList
    = hh.servernameBuffer.toList.take hh.servernameBuffersize.toNat

section Build

variable {serviceId participantId serverTimestamp : UInt64} {name : Bytes} {hh : HandshakeHello}

/-- The name and zeros, if there is room for the name. -/
theorem buildHandshakeHello_eq_some :
    buildHandshakeHello serviceId participantId serverTimestamp name = some hh ↔
      ∃ h : name.length ≤ 1024, hh = ⟨serviceId, participantId, serverTimestamp,
        UInt32.ofNat name.length,
        ⟨name ++ List.replicate (1024 - name.length) 0, by simp [Nat.add_sub_cancel' h]⟩⟩ := by
  have hzero : (Buffer.zero 1024).toList.drop name.length = List.replicate (1024 - name.length) 0 :=
    List.drop_replicate
  unfold buildHandshakeHello Buffer.memcpy
  by_cases h : name.length ≤ 1024
  · simp only [dif_pos h, hzero]
    exact ⟨fun heq => ⟨h, (Option.some.inj heq).symm⟩, fun ⟨_, heq⟩ => congrArg some heq.symm⟩
  · simp [h]

theorem buildHandshakeHello_eq_none :
    buildHandshakeHello serviceId participantId serverTimestamp name = none ↔
      1024 < name.length := by
  unfold buildHandshakeHello Buffer.memcpy
  split_ifs with h
  · simpa using h
  · simpa using h

/-- The print of the hello ends in it. -/
theorem terminated_iff (h : buildHandshakeHello serviceId participantId serverTimestamp name
    = some hh) : Terminated hh.servernameBuffer.toList ↔ name.length ≠ 1024 ∨ 0 ∈ name := by
  obtain ⟨hle, rfl⟩ := buildHandshakeHello_eq_some.1 h
  show 0 ∈ name ++ List.replicate (1024 - name.length) 0 ↔ _
  rw [List.mem_append, List.mem_replicate, or_comm]
  refine or_congr_left ?_
  rw [and_iff_left rfl]
  omega

theorem cString_append_zero {s t : Bytes} (h : 0 ∉ s) : cString (s ++ 0 :: t) = s := by
  have hall : ∀ c ∈ s, decide (c ≠ 0) = true := fun c hc => by
    rw [decide_eq_true_iff]
    rintro rfl
    exact h hc
  rw [cString, List.takeWhile_append_of_pos hall]
  simp

end Build

/-- The hello is built and holds the name if and only if the name is shorter than the buffer, or
fills it and has a zero itself. -/
theorem service_name_iff (serviceId participantId serverTimestamp : UInt64) (name : Bytes) :
    (∃ hh, buildHandshakeHello serviceId participantId serverTimestamp name = some hh
        ∧ hh.Holds name) ↔
      name.length < 1024 ∨ (name.length = 1024 ∧ 0 ∈ name) := by
  constructor
  · rintro ⟨hh, hb, hH⟩
    obtain ⟨hle, rfl⟩ := buildHandshakeHello_eq_some.1 hb
    rcases hle.lt_or_eq with hlt | heq
    · exact .inl hlt
    · have hz : 0 ∈ name ++ List.replicate (1024 - name.length) 0 := hH.terminated
      rw [heq, Nat.sub_self, List.replicate_zero, List.append_nil] at hz
      exact .inr ⟨heq, hz⟩
  · intro h
    have hle : name.length ≤ 1024 := by omega
    have hsize : (UInt32.ofNat name.length).toNat = name.length := by
      rw [UInt32.toNat_ofNat']
      omega
    refine ⟨_, buildHandshakeHello_eq_some.2 ⟨hle, rfl⟩, ?_⟩
    refine ⟨hsize.trans_le hle, ?_, fun _ => hsize, ?_, fun hz => ?_⟩
    · show (name ++ List.replicate (1024 - name.length) 0).take (UInt32.ofNat name.length).toNat
        <+: name
      rw [hsize, List.take_left]
    · show 0 ∈ name ++ List.replicate (1024 - name.length) 0
      rcases h with hlt | ⟨-, hz⟩
      · exact List.mem_append_right _ (List.mem_replicate.2 ⟨by omega, rfl⟩)
      · exact List.mem_append_left _ hz
    · show cString (name ++ List.replicate (1024 - name.length) 0)
        = (name ++ List.replicate (1024 - name.length) 0).take (UInt32.ofNat name.length).toNat
      have hlt : name.length < 1024 := h.resolve_right fun h => hz h.2
      obtain ⟨k, hk⟩ : ∃ k, 1024 - name.length = k + 1 := ⟨1023 - name.length, by omega⟩
      rw [hsize, List.take_left, hk, List.replicate_succ, cString_append_zero hz]

/-- A name of 1024 letters is stored whole and cannot be read as a C string, and one of 1025 is
copied past the buffer. -/
theorem long_names : ¬ (∃ hh, buildHandshakeHello 0 0 0 (List.replicate 1024 97) = some hh
      ∧ hh.Holds (List.replicate 1024 97))
    ∧ buildHandshakeHello 0 0 0 (List.replicate 1025 97) = none := by
  refine ⟨?_, ?_⟩
  · rintro ⟨hh, hb, hH⟩
    obtain ⟨hle, rfl⟩ := buildHandshakeHello_eq_some.1 hb
    have hz : 0 ∈ List.replicate 1024 (97 : UInt8)
        ++ List.replicate (1024 - (List.replicate 1024 (97 : UInt8)).length) 0 := hH.terminated
    rw [List.length_replicate, Nat.sub_self, List.replicate_zero, List.append_nil,
      List.mem_replicate] at hz
    exact absurd hz.2 (by decide)
  · rw [buildHandshakeHello_eq_none, List.length_replicate]
    norm_num

namespace Server

variable {E : Env} {w w' : Server} {name ip : Bytes} {t : UInt64} {o : Outcome Fault Server}

/-- The print of the hello goes on behind it. -/
theorem overreads_accept : w.Overreads E (.accept (some ip) t) ↔
    w.serviceName.length = 1024 ∧ 0 ∉ w.serviceName := by
  unfold Overreads prints
  dsimp only
  rcases hb : buildHandshakeHello E.serviceId (Session.fresh ip).mId t w.serviceName with _ | hh
  · have hlong := buildHandshakeHello_eq_none.1 hb
    exact iff_of_false (by simp) fun h => by omega
  · simp [terminated_iff hb]

/-- The name is copied past the hello. -/
theorem accept_fault (hs : w.step E (.accept (some ip) t) = some o) :
    (∃ w'', o = .fault .outOfBounds w'') ↔ 1024 < w.serviceName.length := by
  simp only [step] at hs
  split_ifs at hs
  cases hs
  unfold onAccept doStartHandshake
  dsimp only
  rcases hb : buildHandshakeHello E.serviceId _ t _ with _ | hh
  · have hlong := buildHandshakeHello_eq_none.1 hb
    exact iff_of_true ⟨_, rfl⟩ hlong
  · obtain ⟨hle, -⟩ := buildHandshakeHello_eq_some.1 hb
    refine iff_of_false ?_ (not_lt.2 hle)
    rintro ⟨w'', hw''⟩
    cases hw''

/-- With a name set, the handler of the next connection leaves the hello if and only if the name is
longer than its buffer, which it is copied past, or fills it without a zero, so that the print goes
on behind it. -/
theorem accept_overruns_iff (hset : w.step E (.setServiceName name) = some (.ok w'))
    (hacc : w'.loggedStep E (.accept (some ip) t) = some o) :
    (∃ w'', o = .fault .outOfBounds w'') ↔
      1024 < name.length ∨ (name.length = 1024 ∧ 0 ∉ name) := by
  have hname : w'.serviceName = name := by
    cases hset
    rfl
  obtain ⟨o', ho', rfl⟩ := Option.map_eq_some_iff.1 hacc
  rw [← hname, ← @overreads_accept E w' ip t, ← accept_fault ho']
  split_ifs with hover
  · exact iff_of_true ⟨_, rfl⟩ (.inr hover)
  · exact (or_iff_left hover).symm

end Server

end XRNetwork
