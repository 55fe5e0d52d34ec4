import XRNetwork.Proofs.Delivery

/-!
# What else a frame about a participant tells

The constructor of `ST_PARTICIPANT_NEW` clears a twentieth of its buffer and the descriptor is
copied over the start of it, so that the rest is what the stack held or, in the list, what the
descriptors before it left there. The frame is the participant's alone exactly when its descriptor
fills the buffer (`frame_reveals_only_iff`).
-/

namespace XRNetwork

open LittleEndian

theorem describe_eq {newp x : ParticipantNew} {id : UInt64} {d : Bytes}
    (h : newp.describe id d = some x) : x.participantId = id
      ∧ x.descriptorBuffersize = UInt32.ofNat d.length
      ∧ x.descriptorBuffer.toList = d.take (d.length % 2 ^ 32)
        ++ newp.descriptorBuffer.toList.drop (d.length % 2 ^ 32) := by
  have hlen := length_take_size d
  have hsize : (UInt32.ofNat d.length).toNat = d.length % 2 ^ 32 := UInt32.toNat_ofNat'
  obtain ⟨buffer, hbuffer, rfl⟩ := Option.map_eq_some_iff.1 h
  rw [Buffer.memcpy] at hbuffer
  split_ifs at hbuffer with hle
  obtain rfl := Option.some.inj hbuffer
  refine ⟨rfl, rfl, ?_⟩
  rw [List.Vector.toList_mk, hlen, hsize]

/-- A descriptor that fills the buffer leaves nothing of what it held. -/
theorem describe_full {newp newp' x x' : ParticipantNew} {id : UInt64} {d : Bytes}
    (hd : 20480 ≤ d.length % 2 ^ 32) (h : newp.describe id d = some x)
    (h' : newp'.describe id d = some x') : x = x' := by
  obtain ⟨hid, hsize, hbuffer⟩ := describe_eq h
  obtain ⟨hid', hsize', hbuffer'⟩ := describe_eq h'
  have hnone : ∀ b : Buffer 20480, b.toList.drop (d.length % 2 ^ 32) = [] := fun b =>
    List.drop_eq_nil_of_le (by rwa [List.Vector.toList_length])
  rw [hnone] at hbuffer hbuffer'
  cases x
  cases x'
  simp only [ParticipantNew.mk.injEq] at hid hsize hbuffer hid' hsize' hbuffer' ⊢
  exact ⟨hid.trans hid'.symm, hsize.trans hsize'.symm,
    List.Vector.toList_injective (hbuffer.trans hbuffer'.symm)⟩

theorem ParticipantNew.buffer_of_toMessage {x y : ParticipantNew}
    (h : x.toMessage = y.toMessage) : x.descriptorBuffer.toList = y.descriptorBuffer.toList := by
  have hpay := congrArg XRMessage.payload h
  simp only [toMessage, XRMessage.payload_ofPayload, length_toBytes] at hpay
  have hbytes := (List.append_inj hpay (by simp)).1
  simp only [toBytes] at hbytes
  exact (List.append_inj (List.append_inj hbytes (by simp)).2 (by simp)).2

namespace Server

variable {w : Server} {c : Choice} {id : UInt64} {l : List (ℕ × XRMessage)} {p a : ℕ}

/-- What a frame handed out in the room about the participant can be, whoever is named in the
`PARTICIPANT_JOIN_ACK`, whoever it is handed to, and whatever the stack holds. -/
def FrameAbout (w : Server) (p : ℕ) (x : XRMessage) : Prop :=
  ∃ c id l a, w.Hand c id l ∧ (a, x) ∈ l ∧ x.participantId = (w.sessions p).mId

/-- A frame about the participant is the same in every room in which a participant has its id and
its descriptor. -/
def RevealsOnly (w : Server) (p : ℕ) : Prop :=
  ∀ (w' : Server) (p' : ℕ) (x x' : XRMessage), KeyedSet.Sorted w'.key w'.participants → p' ∈ w'.participants →
    (w'.sessions p').mId = (w.sessions p).mId →
    (w'.sessions p').mDescriptor = (w.sessions p).mDescriptor →
    w.FrameAbout p x → w'.FrameAbout p' x' → x = x'

theorem mem_playerList {self : UInt64} {x : ParticipantNew} : ∀ {ps : List ℕ}
    {newp : ParticipantNew} {list : List ParticipantNew},
    w.playerList self newp ps = some list → x ∈ list →
    ∃ q ∈ ps, ∃ old : ParticipantNew,
      old.describe (w.sessions q).mId (w.sessions q).mDescriptor = some x
  | [], _, list, h, hx => by
    obtain rfl : [] = list := by simpa [playerList] using h
    cases hx
  | q :: ps, newp, list, h, hx => by
    have hrest : (∃ q ∈ ps, ∃ old : ParticipantNew,
        old.describe (w.sessions q).mId (w.sessions q).mDescriptor = some x) →
        ∃ q' ∈ q :: ps, ∃ old : ParticipantNew,
          old.describe (w.sessions q').mId (w.sessions q').mDescriptor = some x := by
      rintro ⟨q', hq', h⟩
      exact ⟨q', List.mem_cons_of_mem _ hq', h⟩
    rw [playerList] at h
    split_ifs at h with hself
    · exact hrest (mem_playerList h hx)
    · rcases hd : newp.describe (w.sessions q).mId (w.sessions q).mDescriptor with _ | y <;>
        rw [hd] at h
      · cases h
      obtain ⟨list', hl, rfl⟩ := Option.map_eq_some_iff.1 h
      rcases List.mem_cons.1 hx with rfl | hx
      · exact ⟨q, List.mem_cons_self, newp, hd⟩
      · exact hrest (mem_playerList hl hx)

/-- On both paths a frame is made by describing a member over what the struct held. -/
theorem Hand.describes (h : w.Hand c id l) {x : XRMessage} (hx : (a, x) ∈ l) :
    ∃ q ∈ w.participants, ∃ old newp : ParticipantNew,
      old.describe (w.sessions q).mId (w.sessions q).mDescriptor = some newp
        ∧ x = newp.toMessage := by
  rcases h with ⟨p, newp, list, hp, hd, hl, rfl⟩ | ⟨-, rfl⟩
  · obtain ⟨hmem, rfl⟩ := mem_of_getParticipantPtr hp
    rcases List.mem_append.1 hx with hx | hx
    · obtain ⟨q, -, hq⟩ := List.mem_map.1 hx
      cases hq
      exact ⟨p, hmem, _, newp, hd, rfl⟩
    · obtain ⟨y, hy, hxy⟩ := List.mem_map.1 hx
      cases hxy
      obtain ⟨q, hq, old, hold⟩ := mem_playerList hl hy
      exact ⟨q, hq, old, y, hold, rfl⟩
  · unfold announcements at hx
    rcases hp : w.getParticipantPtr id with _ | p
    · simp [hp] at hx
    obtain ⟨hmem, rfl⟩ := mem_of_getParticipantPtr hp
    rcases hd : (ParticipantNew.default 0 c.stackNew).describe (w.sessions p).mId
        (w.sessions p).mDescriptor with _ | newp
    · simp [hp, hd] at hx
    simp only [hp, hd] at hx
    obtain ⟨q, -, hq⟩ := List.mem_map.1 hx
    cases hq
    exact ⟨p, hmem, _, newp, hd, rfl⟩

theorem FrameAbout.describes {x : XRMessage} (h : w.FrameAbout p x)
    (hw : KeyedSet.Sorted w.key w.participants) (hp : p ∈ w.participants) :
    ∃ old newp : ParticipantNew,
      old.describe (w.sessions p).mId (w.sessions p).mDescriptor = some newp
        ∧ x = newp.toMessage := by
  obtain ⟨c, id, l, a, hl, hx, hid⟩ := h
  obtain ⟨q, hq, old, newp, hnew, rfl⟩ := hl.describes hx
  rw [ParticipantNew.participantId_toMessage, (describe_eq hnew).1] at hid
  obtain rfl : q = p := hw.eq_of_key_eq hq hp (congrArg UInt64.toNat hid)
  exact ⟨old, newp, hnew, rfl⟩

theorem exists_hand (w : Server) (c : Choice) (id : UInt64) :
    ∃ l, w.Hand c id l ∧ ∀ x ∈ w.announcements c id, x ∈ l := by
  by_cases h : ∃ l, w.Introduces c id l
  · obtain ⟨l, hl⟩ := h
    refine ⟨l, .inl hl, fun x hx => ?_⟩
    obtain ⟨p, newp, list, hp, hd, -, rfl⟩ := hl
    simp only [announcements, hp, hd] at hx
    exact List.mem_append_left _ hx
  · exact ⟨_, .inr ⟨not_exists.1 h, rfl⟩, fun x hx => hx⟩

/-- The last byte of a buffer that is not filled is the stack's. -/
theorem getLast_describe {stack : Buffer 20480} {newp : ParticipantNew} {d : Bytes}
    (h : (ParticipantNew.default 0 stack).describe id d = some newp)
    (hd : d.length % 2 ^ 32 < 20480) :
    newp.descriptorBuffer.toList.getLast? = stack.toList.getLast? := by
  have hstack := stack.toList_length
  have hclear : (stack.clear 1024 (by norm_num)).toList
      = List.replicate 1024 0 ++ stack.toList.drop 1024 := rfl
  obtain ⟨-, -, hbuffer⟩ := describe_eq h
  have hlen : (List.replicate 1024 0 ++ stack.toList.drop 1024).length = 20480 := by
    rw [List.length_append, List.length_replicate, List.length_drop]
    omega
  rw [hbuffer, ParticipantNew.default, hclear, List.getLast?_append, List.getLast?_drop,
    if_neg (by omega), List.getLast?_append, List.getLast?_drop, if_neg (by omega),
    List.getLast?_eq_some_getLast (List.ne_nil_of_length_pos (by omega : 0 < stack.toList.length))]
  rfl

/-- Naming the participant hands a frame about it to any other member, described over what the
stack held. -/
theorem exists_frame (hw : KeyedSet.Sorted w.key w.participants) (hp : p ∈ w.participants)
    (ha : a ∈ w.participants) (hne : a ≠ p) (stack : Buffer 20480)
    (hd : (w.sessions p).mDescriptor.length % 2 ^ 32 ≤ 20480) : ∃ newp : ParticipantNew,
      w.FrameAbout p newp.toMessage ∧ (ParticipantNew.default 0 stack).describe (w.sessions p).mId
        (w.sessions p).mDescriptor = some newp := by
  obtain ⟨l, hl, hmem⟩ := w.exists_hand ⟨.returns, stack, stack⟩ (w.sessions p).mId
  have hptr : w.getParticipantPtr (w.sessions p).mId = some p := hw.find_key hp
  rcases hn : (ParticipantNew.default 0 stack).describe (w.sessions p).mId
      (w.sessions p).mDescriptor with _ | newp
  · have hlong := describe_eq_none.1 hn
    omega
  · refine ⟨newp, ⟨_, _, l, a, hl, hmem _ ?_, ?_⟩, rfl⟩
    · simp only [announcements, hptr, hn]
      refine List.mem_map.2 ⟨a, mem_others.2 ⟨ha, fun hid => hne ?_⟩, rfl⟩
      exact hw.eq_of_key_eq ha hp (congrArg UInt64.toNat hid)
    · rw [ParticipantNew.participantId_toMessage, (describe_eq hn).1]

end Server

open Server

/-- In every room, for every member with somebody to be told of it: all frames about it are the
same, in this room and in any other in which a member has its id and its descriptor, if and only if
the descriptor fills the buffer. -/
theorem frame_reveals_only_iff {w : Server} (hw : KeyedSet.Sorted w.key w.participants) {p a : ℕ}
    (hp : p ∈ w.participants) (ha : a ∈ w.participants) (hne : a ≠ p) :
    RevealsOnly w p ↔ 20480 ≤ (w.sessions p).mDescriptor.length % 2 ^ 32 := by
  constructor
  · intro h
    by_contra hd
    have hd := not_le.1 hd
    obtain ⟨x, hx, hdesc⟩ := exists_frame hw hp ha hne (.replicate 20480 0) hd.le
    obtain ⟨x', hx', hdesc'⟩ := exists_frame hw hp ha hne (.replicate 20480 1) hd.le
    have heq := h w p _ _ hw hp rfl rfl hx hx'
    have hlast := getLast_describe hdesc hd
    have hstack : ∀ v : UInt8,
        (List.Vector.replicate 20480 v : Buffer 20480).toList = List.replicate 20480 v :=
      fun _ => rfl
    rw [ParticipantNew.buffer_of_toMessage heq, getLast_describe hdesc' hd, hstack, hstack,
      List.getLast?_replicate, List.getLast?_replicate, if_neg (by norm_num),
      if_neg (by norm_num)] at hlast
    cases hlast
  · intro hd w' p' x x' hw' hp' hid hdesc hx hx'
    obtain ⟨old, newp, hnew, rfl⟩ := hx.describes hw hp
    obtain ⟨old', newp', hnew', rfl⟩ := hx'.describes hw' hp'
    rw [hid, hdesc] at hnew'
    rw [describe_full hd hnew hnew']

/-- The descriptor of the first of two members fills the buffer. -/
theorem frame_reveals_only_iff_full : ∃ w, (serverMachine .counting).Reachable (.ok w)
    ∧ w.participants = [0, 1] ∧ RevealsOnly w 0 := by
  have hrun : ((serverMachine .counting).exec Server.init [.accept (some []) 0,
      .accept (some []) 0, .read 0 0 fullHelloAck.frame .plain,
      .read 0 0 ChatClient.credentialsAck.frame .plain,
      .read 1 0 ChatClient.credentialsAck.frame .plain]).any
      (Outcome.okAnd fun w => w.participants = [0, 1]
        ∧ (w.sessions 0).mDescriptor.length = 20480) = true := by
    decide +kernel
  obtain ⟨r, w, hr, -, hw⟩ := Machine.exec_okAnd hrun
  obtain ⟨hps, hlen⟩ := of_decide_eq_true hw
  refine ⟨w, ⟨r, hr⟩, hps, (frame_reveals_only_iff (a := 1) (members ⟨r, hr⟩).sorted (by simp [hps])
    (by simp [hps]) (by decide)).2 ?_⟩
  show 20480 ≤ (w.sessions 0).mDescriptor.length % 2 ^ 32
  omega

/-- The first of three members has sent a configuration that starts with an `A`, the second none.
The third asks who is there, and the buffer of the frame about the second that it is handed starts
with the `A`; the one the second itself would be announced with does not. -/
theorem frame_reveals_another : ∃ w x x', (serverMachine .counting).Reachable (.ok w)
    ∧ w.participants = [0, 1, 2] ∧ (w.sessions 1).mDescriptor = []
    ∧ w.FrameAbout 1 (ParticipantNew.toMessage x) ∧ w.FrameAbout 1 (ParticipantNew.toMessage x')
    ∧ x.descriptorBuffer.toList.head? = some 65 ∧ x'.descriptorBuffer.toList.head? = some 0
    ∧ ¬ RevealsOnly w 1 := by
  have hrun : ((serverMachine .counting).exec Server.init [.accept (some []) 0,
      .accept (some []) 0, .accept (some []) 0, .read 0 0 (ChatClient.helloAck 0 0).frame .plain,
      .read 0 0 ChatClient.credentialsAck.frame .plain,
      .read 1 0 ChatClient.credentialsAck.frame .plain,
      .read 2 0 ChatClient.credentialsAck.frame .plain]).any
      (Outcome.okAnd fun w => w.participants = [0, 1, 2] ∧ (w.sessions 1).mDescriptor = []
        ∧ (w.sessions 1).mId = 2 ∧ (w.sessions 2).mId = 3 ∧ (w.sessions 2).mDescriptor = []
        ∧ (w.playerList 3 (.default 0 (.zero 20480)) w.participants).any fun list =>
          list.any fun x => x.participantId = 2 ∧ x.descriptorBuffer.toList.head? = some 65)
      = true := by
    decide +kernel
  obtain ⟨r, w, hr, -, hw⟩ := Machine.exec_okAnd hrun
  obtain ⟨hps, hd, hid, hid', hd', hlist⟩ := of_decide_eq_true hw
  have hsorted : KeyedSet.Sorted w.key w.participants := (members ⟨r, hr⟩).sorted
  obtain ⟨list, hl, hx⟩ := (Option.any_eq_true _ _).1 hlist
  obtain ⟨x, hx, hxid⟩ := List.any_eq_true.1 hx
  obtain ⟨hxid, hhead⟩ := of_decide_eq_true hxid
  have hframe : w.FrameAbout 1 x.toMessage := by
    have hptr : w.getParticipantPtr (w.sessions 2).mId = some 2 :=
      hsorted.find_key (by simp [hps])
    rcases hn : (ParticipantNew.default 0 (.zero 20480)).describe (w.sessions 2).mId
        (w.sessions 2).mDescriptor with _ | newp
    · have hlong := describe_eq_none.1 hn
      simp [hd'] at hlong
    · refine ⟨⟨.returns, .zero 20480, .zero 20480⟩, _, _, 2,
        .inl ⟨2, newp, list, hptr, hn, hid' ▸ hl, rfl⟩,
        List.mem_append_right _ (List.mem_map_of_mem hx), ?_⟩
      rw [ParticipantNew.participantId_toMessage, hxid, hid]
  obtain ⟨x', hframe', hdesc⟩ := exists_frame hsorted (p := 1) (a := 0) (by simp [hps])
    (by simp [hps]) (by decide) (.zero 20480) (by simp [hd])
  have hhead' : x'.descriptorBuffer.toList.head? = some 0 := by
    rw [(describe_eq hdesc).2.2, hd]
    rfl
  refine ⟨w, x, x', ⟨r, hr⟩, hps, hd, hframe, hframe', hhead, hhead', fun h => ?_⟩
  have heq := h w 1 _ _ hsorted (by simp [hps]) rfl rfl hframe hframe'
  rw [ParticipantNew.buffer_of_toMessage heq, hhead'] at hhead
  cases hhead

end XRNetwork
