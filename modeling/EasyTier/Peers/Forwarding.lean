import EasyTier.Peers.NodeInvariants

/-! # What forwarding changes

A packet between two other peers takes the same way out as the packets of this node. The relay map
encrypts whatever it finds a session for, so a forwarded packet stays as it is only if its encrypted
flag protects it there.
-/

namespace EasyTier.Peers

open Data Packet Tunnel Semantics PeerSessionTunnelFilter

/-- The next move of the packet encrypts it with a session with its destination. -/
def Item.isEncryptedNext (config : NodeConfig) (table : SessionTable) (item : Item) : Bool :=
  match item.place with
  | .relay _ =>
    config.secureModeEnabled && (table.get { networkName := config.networkName,
                                             peerId := item.packet.header.toPeerId }).1.isSome
  | .flushing _ _ => true
  | _ => false

/-- What is encrypted in this step is a packet of this node or has its encrypted flag set. -/
def RelaysSealed (config : NodeConfig) (state : NodeState) : NodeEvent → Prop
  | .step index _ => ∀ item ∈ (state.items[index]?).toList,
      item.isEncryptedNext config state.table = true →
        item.packet.header.fromPeerId = config.myPeerId ∨ item.packet.header.isEncrypted = true
  | _ => True

instance (config : NodeConfig) (state : NodeState) (event : NodeEvent) :
    Decidable (RelaysSealed config state event) := by
  unfold RelaysSealed
  cases_type NodeEvent <;> infer_instance

/-- The ids this node has in foreign networks are among the given ones. -/
def NodeEvent.ForeignIdsIn (ownIds : List PeerId) : NodeEvent → Prop
  | .step _ env => env.foreignMyPeerId.all (ownIds.contains ·) = true
  | _ => True

instance (ownIds : List PeerId) (event : NodeEvent) : Decidable (event.ForeignIdsIn ownIds) := by
  unfold NodeEvent.ForeignIdsIn
  cases_type NodeEvent <;> infer_instance

/-- The packet came from another peer and is for another peer. -/
structure Passing (config : NodeConfig) (ownIds : List PeerId) (item : Item) : Prop where
  arrived : ∃ noise, item.entered = .arrived noise
  notMine : item.source.header.fromPeerId ≠ config.myPeerId
  notForeign : item.source.header.fromPeerId ∉ ownIds
  notForMe : item.source.header.toPeerId ≠ config.myPeerId

variable {config : NodeConfig} {ownIds : List PeerId} {item : Item}

theorem Passing.of_history {next : Item} (passing : Passing config ownIds next)
    (history : next.entered = item.entered ∧ next.source = item.source) :
    Passing config ownIds item := by
  obtain ⟨⟨noise, arrived⟩, notMine, notForeign, notForMe⟩ := passing
  rw [history.2] at notMine notForeign notForMe
  exact ⟨⟨noise, history.1.symm.trans arrived⟩, notMine, notForeign, notForMe⟩

section

variable {primitives : Primitives} {filter : PeerSessionTunnelFilter} {table : SessionTable}

/-- The filter of a connection lets a packet of another peer leave as it is. -/
theorem beforeSend_of_passing {packet sent : ZCPacket} {nowMs : Nat}
    (notMine : packet.header.fromPeerId ≠ filter.myPeerId)
    (passes : (filter.beforeSend primitives table packet nowMs).1 = some sent) : sent = packet := by
  unfold beforeSend at passes
  split at passes
  · exact (Option.some.inj passes).symm
  · rename_i encrypts
    exact absurd (encryptsWith_cases encrypts).1 notMine

/-- The filter of a connection lets a packet for another peer in as it is. -/
theorem afterReceived_of_passing {packet received : ZCPacket} {nowMs : Nat}
    (notForMe : packet.header.toPeerId ≠ filter.myPeerId)
    (passes : (filter.afterReceived primitives table packet nowMs).1 = .packet received) :
    received = packet := by
  unfold afterReceived at passes
  split at passes
  · exact (Received.packet.inj passes).symm
  · rename_i decrypts
    exact absurd (decryptsWith_cases decrypts).2.1 notForMe

end

/-- A move changes nothing of a passing packet, unless the relay map encrypts it. -/
theorem Preserves.moves {state : NodeState}
    (own : ∀ conn ∈ state.conns, conn.Own config) {index : Nat} {env : StepEnv}
    (foreign : (NodeEvent.step index env).ForeignIdsIn ownIds)
    (relays : RelaysSealed config state (.step index env)) {next : Item}
    (found : state.items[index]? = some item) (passing : Passing config ownIds item)
    (preserves : Preserves item.source item.packet) (moves : Moves config state env item next) :
    Preserves next.source next.packet := by
  have notMine : item.packet.header.fromPeerId ≠ config.myPeerId := by
    rw [preserves.fromPeerId]
    exact passing.notMine
  cases moves with
  | stays | passed | buffered | hopped => exact preserves
  | forwarded _ _ forwards =>
    obtain ⟨counted, same, shape⟩ := forwardPacket_cases forwards
    rcases shape with rfl | ⟨mine, _⟩
    · exact preserves.trans same
    · exact absurd mine notMine
  | delivered _ here =>
    rw [preserves.toPeerId] at here
    exact absurd here passing.notForMe
  | readdressed _ _ isForeign =>
    rw [NodeEvent.ForeignIdsIn, isForeign, preserves.fromPeerId] at foreign
    exact absurd (by simpa using foreign) passing.notForeign
  | encrypted uses _ seals =>
    have next : item.isEncryptedNext config state.table = true := by
      unfold Item.isEncryptedNext
      rcases uses with ⟨at_relay, secure, got⟩ | flushing
      · simp [at_relay, secure, got]
      · simp [flushing]
    have flagged := (relays item (by simp [found]) next).resolve_left notMine
    rw [PeerSession.encryptPayload_of_flagged flagged seals]
    exact preserves
  | written _ present _ passes =>
    rw [beforeSend_of_passing ((own _ present).myPeerId ▸ notMine) passes]
    exact preserves.trans (preserves_apply env.stamp item.packet)

theorem preserves_step {before after : NodeState}
    {event : NodeEvent} (own : ∀ conn ∈ before.conns, conn.Own config)
    (foreign : event.ForeignIdsIn ownIds) (relays : RelaysSealed config before event)
    (preserves : ∀ item ∈ before.items, Passing config ownIds item →
      Preserves item.source item.packet)
    (transition : before.step? config event = some after)
    (member : item ∈ after.items) (passing : Passing config ownIds item) :
    Preserves item.source item.packet := by
  cases (step_effect transition).items item member with
  | kept old => exact preserves item old passing
  | @flushed _ _ earlier _ old => exact preserves earlier old (passing.of_history ⟨rfl, rfl⟩)
  | originated =>
    obtain ⟨_, arrived⟩ := passing.arrived
    cases arrived
  | @arrived index nowMs conn packet received liveness found passes =>
    have strips := preserves_strip liveness packet
    have notForMe : (LivenessStamp.strip liveness packet).header.toPeerId ≠
        conn.filter.myPeerId := by
      rw [strips.toPeerId, (own conn (List.mem_of_getElem? found)).myPeerId]
      exact passing.notForMe
    rw [afterReceived_of_passing notForMe passes]
    exact strips
  | moved found moves =>
    have earlier := passing.of_history moves.history
    exact (preserves _ (List.mem_of_getElem? found) earlier).moves own foreign relays found earlier
      moves

/-- The steps under which forwarded packets stay as they are. -/
def Harmless (config : NodeConfig) (ownIds : List PeerId) (state : NodeState) (event : NodeEvent) :
    Prop :=
  event.ForeignIdsIn ownIds ∧ RelaysSealed config state event

instance (config : NodeConfig) (ownIds : List PeerId) (state : NodeState) (event : NodeEvent) :
    Decidable (Harmless config ownIds state event) :=
  inferInstanceAs (Decidable (_ ∧ _))

/-- Passing packets keep everything but the counter, the latency-first flag and the marker. -/
theorem passing_preserved {state : NodeState}
    (reached : (nodeSystem config).ReachableUnder (Harmless config ownIds) state) :
    ∀ item ∈ state.items, Passing config ownIds item → Preserves item.source item.packet := by
  refine reached.invariant_reachable (motive := fun state => ∀ item ∈ state.items,
    Passing config ownIds item → Preserves item.source item.packet) ?_ ?_
  · rintro state rfl item none
    exact absurd none List.not_mem_nil
  · rintro before event after earlier preserves ⟨foreign, relays⟩ transition item member
    exact preserves_step (conns_own earlier) foreign relays preserves transition member

/-- The packet as it was sent and a copy that a number of nodes forwarded one after the other. -/
inductive Crosses (first : ZCPacket) : ZCPacket → Prop
  | sent : Crosses first first
  | hop {config : NodeConfig} {ownIds : List PeerId} {state : NodeState} {item : Item} {conn : Conn}
      (earlier : Crosses first item.source)
      (reached : (nodeSystem config).ReachableUnder (Harmless config ownIds) state)
      (member : item ∈ state.items) (written : item.place = .wire conn)
      (passing : Passing config ownIds item) : Crosses first item.packet

theorem Crosses.preserves {first last : ZCPacket} (crosses : Crosses first last) :
    Preserves first last := by
  induction crosses with
  | sent => exact Preserves.refl first
  | hop _ reached member _ passing ih => exact ih.trans (passing_preserved reached _ member passing)

/-- The copy of a passing packet that a node writes to a tunnel differs from what it received in the
forward counter, the latency-first flag and the liveness marker only, and from what was sent as
well, however many nodes the packet has crossed. -/
theorem forwarded_unchanged_when_harmless {config : NodeConfig} {ownIds : List PeerId}
    {state : NodeState}
    (reached : (nodeSystem config).ReachableUnder (Harmless config ownIds) state)
    {item : Item} (member : item ∈ state.items) {conn : Conn} (written : item.place = .wire conn)
    {noise : Bool} (arrived : item.entered = .arrived noise)
    (notMine : item.source.header.fromPeerId ≠ config.myPeerId)
    (notForeign : item.source.header.fromPeerId ∉ ownIds)
    (notForMe : item.source.header.toPeerId ≠ config.myPeerId) :
    Preserves item.source item.packet ∧
      ∀ first, Crosses first item.source → Preserves first item.packet := by
  have passing : Passing config ownIds item := ⟨⟨noise, arrived⟩, notMine, notForeign, notForMe⟩
  refine ⟨passing_preserved reached item member passing, fun first crosses => ?_⟩
  exact (crosses.hop reached member written passing).preserves

/-- A packet from peer 1 to peer 4. -/
private def relayed (type : PacketType) (flags : Byte) (forwardCounter : Nat) : ZCPacket where
  header :=
    { fromPeerId := 1
      toPeerId := 4
      packetType := type.code
      flags := flags
      forwardCounter := forwardCounter
      reserved := 0
      len := 1 }
  payload := [42]

/-- Node 2 has connections with peers 3 and 1 and an old session with peer 4. -/
private def forwardRun (packet : ZCPacket) : List NodeEvent :=
  [.respond ⟨"net", 4⟩ none "aes-gcm" none 7 0, .connect .own 3 none, .connect .own 1 none,
    .arrive 1 packet false 0, .step 0 (.reading (.through 3)), .step 0 (.reading (.through 3)),
    .step 0 (.reading (.through 3)), .step 0 (.reading (.through 3))]

private def toPeerThree : Conn where
  realm := .own
  peerId := 3
  filter := { enabled := true, myPeerId := 2, peerId := none, session := none }

theorem sealed_data_crosses_unchanged :
    ∃ state, (nodeSystem (.secureNode 2)).ReachableUnder (Harmless (.secureNode 2) []) state ∧
      ∃ item ∈ state.items, item.place = .wire toPeerThree ∧ item.packet = relayed .data 1 1 ∧
        Preserves (relayed .data 1 0) item.packet := by
  refine System.exists_reachableUnder .initial (forwardRun (relayed .data 1 0))
    (⟨.wire toPeerThree, relayed .data 1 1, .arrived false, relayed .data 1 0⟩ ∈ ·.items) rfl
    (by decide +kernel) fun state reached member => ⟨_, member, rfl, rfl, ?_⟩
  exact (forwarded_unchanged_when_harmless reached member rfl rfl (by decide) List.not_mem_nil
    (by decide)).2 _ .sent

/-- A relay handshake that crosses node 2 leaves it encrypted under a session peers 1 and 4 know
nothing of. -/
theorem relay_handshake_altered_on_the_way :
    ∃ state, (nodeSystem (.secureNode 2)).Reachable state ∧
      ∃ item ∈ state.items, item.place = .wire toPeerThree ∧ item.entered = .arrived false ∧
        item.source = relayed .relayHandshake 0 0 ∧
        item.packet.header.isEncrypted = true ∧ ¬ Preserves item.source item.packet := by
  refine System.exists_reachable .initial (forwardRun (relayed .relayHandshake 0 0))
    (fun state => ∃ item ∈ state.items, item.place = .wire toPeerThree ∧
      item.entered = .arrived false ∧ item.source = relayed .relayHandshake 0 0 ∧
      item.packet.header.isEncrypted = true) rfl (by decide +kernel) ?_
  rintro state _ _ ⟨item, member, written, arrived, source, flagged⟩
  refine ⟨item, member, written, arrived, source, flagged, fun preserves => ?_⟩
  have same := preserves.isEncrypted
  rw [flagged, source] at same
  exact absurd same (by decide)

end EasyTier.Peers
