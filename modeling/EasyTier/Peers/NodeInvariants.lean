import EasyTier.Peers.NodeMoves

/-! # What every run of a node keeps

`Consistent` says that the session table is sound, that a connection with a session has one with
its own peer, and that packets are flushed with a session with their destination. It holds in every
run in which the algorithms of both sides are AEADs.
-/

namespace EasyTier.Peers

open Data Packet Tunnel Semantics NodeConfig NodeState

open SessionTable

/-! ## The invariant -/

theorem arrive_table (config : NodeConfig) (state : NodeState) (conn : Conn) (packet : ZCPacket)
    (liveness : Bool) (nowMs : Nat) :
    (state.arrive config conn packet liveness nowMs).table =
      (conn.filter.afterReceived config.primitives state.table
        (LivenessStamp.strip liveness packet) nowMs).2 := by
  unfold arrive
  split
  · rename_i received table passes
    rw [passes]
    split <;> rfl
  all_goals
    rename_i passes
    rw [passes]

/-- The algorithm of the other side of a handshake is an AEAD. -/
def NodeEvent.AeadOnly : NodeEvent → Prop
  | .respond _ _ recvAlgorithm _ _ _ => IsAead recvAlgorithm
  | .initiated _ _ _ _ _ recvAlgorithm _ _ => IsAead recvAlgorithm
  | _ => True

instance (event : NodeEvent) : Decidable event.AeadOnly := by
  unfold NodeEvent.AeadOnly
  cases_type NodeEvent <;> infer_instance

variable {config : NodeConfig} {before after state : NodeState} {event : NodeEvent}

/-- The filter of a connection belongs to this node. -/
structure Conn.Own (config : NodeConfig) (conn : Conn) : Prop where
  enabled : conn.filter.enabled = config.secureModeEnabled
  myPeerId : conn.filter.myPeerId = config.myPeerId

/-- A connection with a session has one with its peer. -/
structure Conn.Bound (table : SessionTable) (conn : Conn) : Prop where
  peerId : ∀ ref, conn.filter.session = some ref → conn.filter.peerId = some conn.peerId
  session : ∀ ref, conn.filter.session = some ref → table.IsWith ref conn.peerId

theorem Conn.Bound.evolves {before after : SessionTable} {conn : Conn} (bound : conn.Bound before)
    (evolves : Evolves before after) : conn.Bound after :=
  ⟨bound.peerId, fun ref holds => evolves.isWith (bound.session ref holds)⟩

/-- What a step can do: calls stay made, a connection was there or is a new one of this node, a
packet was there, came in or is one that moved, and with AEAD algorithms on both sides the session
table advances. -/
structure StepEffect (config : NodeConfig) (before after : NodeState) (event : NodeEvent) :
    Prop where
  calls : before.calls ⊆ after.calls
  conns : ∀ conn ∈ after.conns, conn ∈ before.conns ∨ conn.Own config ∧ conn.Bound before.table
  items : ∀ item ∈ after.items, ItemOrigin config before event item
  table : IsAead config.encryptionAlgorithm → event.AeadOnly →
    Advances config.primitives before.table after.table

theorem step_effect (transition : before.step? config event = some after) :
    StepEffect config before after event := by
  have calls : before.calls ⊆ before.calls := fun _ => id
  have conns : ∀ conn ∈ before.conns, conn ∈ before.conns ∨
      conn.Own config ∧ conn.Bound before.table := fun _ => .inl
  have items : ∀ item ∈ before.items, ItemOrigin config before event item := fun _ => .kept
  have table := Advances.refl config.primitives before.table
  cases event with
  | respond =>
    cases transition
    exact ⟨calls, conns, items, fun aead aeadOnly =>
      advances_commit (leaves_upsertResponderSession _ _ _ _ aead aeadOnly _ _ _)⟩
  | initiated =>
    cases transition
    exact ⟨calls, conns, items, fun aead aeadOnly =>
      advances_commit (leaves_applyInitiatorAction _ _ _ _ _ _ _ aead aeadOnly _ _)⟩
  | invalidate ref =>
    obtain ⟨stored, found, rfl⟩ := Option.map_eq_some_iff.mp transition
    exact ⟨calls, conns, items, fun _ _ =>
      advances_update found (replaces_invalidate _ _)⟩
  | lookUp key =>
    cases transition
    exact ⟨calls, conns, items, fun _ _ => advances_get _ _ _⟩
  | removeEntry key =>
    cases transition
    exact ⟨calls, conns, items,
      fun _ _ sound => ⟨sound.forget key, forget_evolves _ key⟩⟩
  | connect realm peerId session =>
    obtain ⟨filter, enabled, myPeerId, isWith, rfl⟩ := connect_cases transition
    refine ⟨calls, fun conn member => ?_, items, fun _ _ => table⟩
    rcases List.mem_append.mp member with old | new
    · exact .inl old
    · rw [List.mem_singleton.mp new]
      exact .inr ⟨⟨enabled, myPeerId⟩, fun ref holds => (isWith ref holds).1,
        fun ref holds => (isWith ref holds).2⟩
  | disconnect index =>
    cases transition
    exact ⟨calls, fun _ member => .inl (List.eraseIdx_subset member), items,
      fun _ _ => table⟩
  | flush dstPeerId ref =>
    have origin : ∀ item ∈ after.items, ItemOrigin config before (.flush dstPeerId ref) item :=
      fun _ => flush_origin transition
    obtain ⟨_, rfl⟩ := flush_cases transition
    exact ⟨calls, conns, origin, fun _ _ => table⟩
  | dropPending =>
    cases transition
    exact ⟨calls, conns, fun _ member => .kept (List.mem_filter.mp member).1,
      fun _ _ => table⟩
  | originate packet env =>
    simp only [step?, Option.some.injEq] at transition
    subst transition
    split
    · exact ⟨calls, conns, items, fun _ _ => table⟩
    · rename_i place leaves
      refine ⟨calls, conns, fun item member => ?_, fun _ _ => table⟩
      rcases List.mem_append.mp member with old | new
      · exact .kept old
      · rw [List.mem_singleton.mp new]
        exact .originated leaves
  | arrive index packet liveness nowMs =>
    obtain ⟨conn, found, rfl⟩ := Option.map_eq_some_iff.mp transition
    have advances := advances_afterReceived config.primitives conn.filter before.table
      (LivenessStamp.strip liveness packet) nowMs
    rw [← arrive_table] at advances
    refine ⟨?_, ?_, fun _ => arrive_origin found, fun _ _ => advances⟩
    all_goals
      unfold arrive
      split
    · split <;> exact calls
    · exact calls
    · exact calls
    · split <;> exact conns
    · exact conns
    · exact fun _ member => .inl (List.mem_of_mem_erase member)
  | step index env =>
    obtain ⟨earlier, found, rfl⟩ := Option.map_eq_some_iff.mp transition
    have handled := handles_moveItem config before env earlier
    refine ⟨calls, conns, fun item member => ?_, fun _ _ => handled.advances⟩
    rcases List.mem_append.mp member with old | new
    · exact .kept (List.eraseIdx_subset old)
    · exact .moved found (handled.moves item new)
  | encrypted call =>
    cases transition
    exact ⟨List.subset_append_left _ _, conns, items, fun _ _ => table⟩

/-- Every connection of a run is one of this node. -/
theorem conns_own
    (reached : (nodeSystem config).Reachable state) : ∀ conn ∈ state.conns, conn.Own config := by
  refine reached.invariant (motive := fun state => ∀ conn ∈ state.conns, conn.Own config) ?_ ?_
  · rintro state rfl conn ⟨⟩
  · intro before event after own _ transition conn member
    rcases (step_effect transition).conns conn member with old | ⟨new, _⟩
    · exact own conn old
    · exact new

/-- What a node with AEAD algorithms keeps. -/
structure Consistent (config : NodeConfig) (state : NodeState) : Prop where
  table : state.table.Sound config.primitives
  bound : ∀ conn ∈ state.conns, conn.Bound state.table
  flushing : ∀ item ∈ state.items, ∀ policy ref, item.place = .flushing policy ref →
    state.table.IsWith ref item.packet.header.toPeerId

theorem SessionTable.sound_empty (primitives : Primitives) :
    empty.Sound primitives where
  derived _ member := absurd member List.not_mem_nil
  aead _ member := absurd member List.not_mem_nil
  agreed _ member := absurd member List.not_mem_nil
  entries _ _ entry := absurd entry (by simp [empty])

theorem Consistent.initial (config : NodeConfig) : Consistent config .initial where
  table := sound_empty config.primitives
  bound _ member := absurd member List.not_mem_nil
  flushing _ member := absurd member List.not_mem_nil

/-- A packet is encrypted with a session with its destination. -/
theorem EncryptsWith.isWith {item : Item} {policy : NextHopPolicy} {ref : SessionRef}
    (uses : EncryptsWith config state.table item policy ref) (consistent : Consistent config state)
    (member : item ∈ state.items) : state.table.IsWith ref item.packet.header.toPeerId := by
  rcases uses with ⟨_, _, got⟩ | flushing
  · exact consistent.table.entries _ ref ((state.table.get_cases _).2 ref got)
  · exact consistent.flushing item member policy ref flushing

/-- Only a flush hands a packet to a flush. -/
theorem Moves.not_flushing {env : StepEnv}
    {item next : Item} (moves : Moves config state env item next) {policy : NextHopPolicy}
    {ref : SessionRef} (flushing : next.place = .flushing policy ref) : next = item := by
  cases moves with
  | stays => rfl
  | forwarded _ _ _ leaves =>
    rcases sendMsgInternal_cases leaves with ⟨_, rfl⟩ | ⟨_, rfl⟩ | ⟨rfl, _⟩ <;> cases flushing
  | hopped _ after => rcases after with rfl | ⟨_, _, rfl⟩ <;> cases flushing
  | delivered | readdressed | passed | buffered | encrypted | written => cases flushing

theorem Consistent.step (aead : IsAead config.encryptionAlgorithm)
    (consistent : Consistent config before)
    (aeadOnly : event.AeadOnly) (transition : before.step? config event = some after) :
    Consistent config after ∧ Evolves before.table after.table := by
  have effect := step_effect transition
  obtain ⟨sound, evolves⟩ := effect.table aead aeadOnly consistent.table
  refine ⟨⟨sound, ?_, ?_⟩, evolves⟩
  · intro conn member
    rcases effect.conns conn member with old | ⟨_, new⟩
    · exact (consistent.bound conn old).evolves evolves
    · exact new.evolves evolves
  · intro item member policy ref flushing
    refine evolves.isWith ?_
    cases effect.items item member with
    | kept old => exact consistent.flushing item old policy ref flushing
    | flushed _ _ toDst isWith =>
      cases flushing
      rw [toDst]
      exact isWith
    | originated leaves =>
      rcases sendMsgInternal_cases leaves with ⟨_, rfl⟩ | ⟨_, rfl⟩ | ⟨rfl, _⟩ <;> cases flushing
    | arrived => cases flushing
    | moved found moves =>
      obtain rfl := moves.not_flushing flushing
      exact consistent.flushing _ (List.mem_of_getElem? found) policy ref flushing

end EasyTier.Peers
