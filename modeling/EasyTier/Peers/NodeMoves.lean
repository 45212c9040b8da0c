import EasyTier.Peers.Node

/-! # What one step does to the packets of a node

`Moves` lists the ways a packet can move, `ItemOrigin` where a packet of the next state comes from.
The results about a node are proved from these, without unfolding its functions.
-/

namespace EasyTier.Peers

open Data Packet Tunnel Semantics NodeConfig NodeState

namespace SessionTable

/-- A sound table stays sound and keeps its sessions and its history. -/
def Advances (primitives : Primitives) (before after : SessionTable) : Prop :=
  before.Sound primitives → after.Sound primitives ∧ Evolves before after

theorem Advances.refl (primitives : Primitives) (table : SessionTable) :
    Advances primitives table table :=
  fun sound => ⟨sound, Evolves.refl table⟩

variable {primitives : Primitives}

theorem Advances.trans {first second third : SessionTable}
    (before : Advances primitives first second) (after : Advances primitives second third) :
    Advances primitives first third := by
  intro sound
  obtain ⟨middle, evolves⟩ := before sound
  exact ⟨(after middle).1, evolves.trans (after middle).2⟩

theorem advances_get (primitives : Primitives) (table : SessionTable) (key : SessionKey) :
    Advances primitives table (table.get key).2 :=
  fun sound => sound.get key

theorem advances_update {table : SessionTable} {ref : SessionRef}
    {before after : PeerSession} (found : table.sessions[ref]? = some before)
    (replaces : Replaces primitives before after) :
    Advances primitives table (table.update ref after) :=
  fun sound => ⟨sound.update found replaces, update_evolves found replaces⟩

theorem advances_commit {table : SessionTable} {key : SessionKey}
    {after : Option PeerSession} (leaves : Leaves primitives table key after) :
    Advances primitives table (table.commit key after) :=
  fun sound => sound.commit leaves

end SessionTable

open SessionTable

/-- The session a packet is encrypted with before it is sent to a next hop. -/
def EncryptsWith (config : NodeConfig) (table : SessionTable) (item : Item)
    (policy : NextHopPolicy) (ref : SessionRef) : Prop :=
  (item.place = .relay policy ∧ config.secureModeEnabled = true ∧
    (table.get { networkName := config.networkName,
                 peerId := item.packet.header.toPeerId }).1 = some ref) ∨
  item.place = .flushing policy ref

/-- The ways a packet can move. -/
inductive Moves (config : NodeConfig) (state : NodeState) (env : StepEnv) (item : Item) :
    Item → Prop
  | stays : Moves config state env item item
  | forwarded {packet : ZCPacket} {place : Place} (at_inbox : item.place = .inbox)
      (elsewhere : item.packet.header.toPeerId ≠ config.myPeerId)
      (forwards : config.forwardPacket env item.packet = some packet)
      (leaves : config.sendMsgInternal env packet.header = some place) :
      Moves config state env item (item.move place packet)
  | delivered {opened packet : ZCPacket} (at_inbox : item.place = .inbox)
      (here : item.packet.header.toPeerId = config.myPeerId)
      (opens : (config.openLocal state.table item.packet env.nowMs).1 = some opened)
      (decompresses : decompress config.codec opened = some packet) :
      Moves config state env item (item.move .delivered packet)
  | readdressed {origin : PeerId} (at_inbox : item.place = .inbox)
      (elsewhere : item.packet.header.toPeerId ≠ config.myPeerId)
      (own : env.foreignMyPeerId = some item.packet.header.fromPeerId) :
      Moves config state env item (item.move .gateway
        { item.packet with header := { item.packet.header with toPeerId := origin } })
  | passed {policy : NextHopPolicy} (at_relay : item.place = .relay policy)
      (insecure : config.secureModeEnabled = false) :
      Moves config state env item (item.move (.nextHop policy) item.packet)
  | buffered {policy : NextHopPolicy} (at_relay : item.place = .relay policy)
      (secure : config.secureModeEnabled = true) :
      Moves config state env item (item.move (.pending policy) item.packet)
  | encrypted {policy : NextHopPolicy} {ref : SessionRef} {session : PeerSession}
      {sealed : ZCPacket} (uses : EncryptsWith config state.table item policy ref)
      (found : state.table.sessions[ref]? = some session)
      (seals : (session.encryptPayload config.primitives config.myPeerId
        item.packet.header.toPeerId item.packet env.nowMs).1 = .ok sealed) :
      Moves config state env item (item.move (.nextHop policy) sealed)
  | hopped {place : Place}
      (before : (∃ policy, item.place = .nextHop policy) ∨ item.place = .gateway)
      (after : place = .inbox ∨ ∃ realm hop, place = .peer realm hop) :
      Moves config state env item (item.move place item.packet)
  | written {realm : Realm} {peerId : PeerId} {conn : Conn} {packet : ZCPacket}
      (at_peer : item.place = .peer realm peerId) (member : conn ∈ state.conns)
      (toPeer : conn.peerId = peerId)
      (passes : (conn.filter.beforeSend config.primitives state.table item.packet
        env.nowMs).1 = some packet) :
      Moves config state env item (item.move (.wire conn) (env.stamp.apply packet))

variable {config : NodeConfig} {state after : NodeState} {env : StepEnv} {item moved : Item}
  {packet : ZCPacket}

/-- A packet that moves keeps its history. -/
theorem Moves.history {next : Item} (moves : Moves config state env item next) :
    next.entered = item.entered ∧ next.source = item.source := by
  cases moves <;> exact ⟨rfl, rfl⟩

/-! ## The functions of a node -/

section

variable (primitives : Primitives) (filter : PeerSessionTunnelFilter) (table : SessionTable)
    (packet : ZCPacket) (nowMs : Nat)

theorem advances_beforeSend :
    Advances primitives table (filter.beforeSend primitives table packet nowMs).2 := by
  unfold PeerSessionTunnelFilter.beforeSend
  split
  · exact Advances.refl _ _
  · split
    · exact Advances.refl _ _
    · rename_i session found
      exact advances_update found (replaces_encryptPayload _ _ _ _ _ _)

theorem advances_afterReceived :
    Advances primitives table (filter.afterReceived primitives table packet nowMs).2 := by
  unfold PeerSessionTunnelFilter.afterReceived
  split
  · exact Advances.refl _ _
  · split
    · exact Advances.refl _ _
    · rename_i session found
      exact advances_update found (replaces_decryptPayload _ _ _ _ _ _)

end

theorem advances_decryptIfNeeded (config : NodeConfig) (table : SessionTable) (packet : ZCPacket)
    (nowMs : Nat) :
    Advances config.primitives table (config.decryptIfNeeded table packet nowMs).2 := by
  have looked := advances_get config.primitives table
    { networkName := config.networkName, peerId := packet.header.fromPeerId }
  unfold decryptIfNeeded
  dsimp only
  split
  · exact looked
  · rename_i ref session found
    obtain ⟨other, _, stored⟩ := Option.bind_eq_some_iff.mp found
    obtain ⟨same, present, paired⟩ := Option.map_eq_some_iff.mp stored
    cases paired
    exact looked.trans (advances_update present (replaces_decryptPayload _ _ _ _ _ _))

/-- What becomes of a packet: it moves or is dropped, and the session table advances. -/
structure Handles (config : NodeConfig) (state : NodeState) (env : StepEnv) (item : Item)
    (result : List Item × SessionTable) : Prop where
  moves : ∀ moved ∈ result.1, Moves config state env item moved
  advances : Advances config.primitives state.table result.2

section

variable {table : SessionTable} (advances : Advances config.primitives state.table table)
include advances

theorem Handles.drops : Handles config state env item ([], table) :=
  ⟨fun _ member => absurd member List.not_mem_nil, advances⟩

theorem Handles.becomes (moves : Moves config state env item moved) :
    Handles config state env item ([moved], table) := by
  refine ⟨fun _ member => ?_, advances⟩
  rw [List.mem_singleton.mp member]
  exact moves

theorem handles_encryptAndSend {ref : SessionRef} {policy : NextHopPolicy}
    (sessions : table.sessions = state.table.sessions)
    (uses : EncryptsWith config state.table item policy ref) :
    Handles config state env item (config.encryptAndSend table env item ref policy) := by
  unfold encryptAndSend
  split
  · exact .drops advances
  rename_i session found
  have advanced := advances.trans (advances_update found (replaces_encryptPayload config.primitives
    session config.myPeerId item.packet.header.toPeerId item.packet env.nowMs))
  dsimp only
  split
  · rename_i sealed seals
    exact .becomes advanced (.encrypted uses (sessions ▸ found) seals)
  · exact .drops advanced

end

theorem handles_handlePacket (at_inbox : item.place = .inbox) :
    Handles config state env item (config.handlePacket state.table env item) := by
  have kept := Advances.refl config.primitives state.table
  have advanced : Advances config.primitives state.table
      (config.openLocal state.table item.packet env.nowMs).2 := by
    unfold openLocal
    split
    · exact kept
    · split
      · exact advances_decryptIfNeeded _ _ _ _
      · exact kept
  unfold handlePacket
  split
  · rename_i elsewhere
    split
    · exact .drops kept
    rename_i packet forwards
    split
    · exact .drops kept
    rename_i place leaves
    exact .becomes kept (.forwarded at_inbox elsewhere forwards leaves)
  · rename_i here
    split
    · exact .drops kept
    split
    · rename_i opens
      rw [opens] at advanced
      exact .drops advanced
    rename_i opened table opens
    rw [opens] at advanced
    split
    · exact .drops advanced
    rename_i packet decompresses
    split
    · exact .becomes advanced
        (.delivered at_inbox (not_not.mp here) (by rw [opens]) decompresses)
    · exact .drops advanced

theorem handles_handle (at_inbox : item.place = .inbox) :
    Handles config state env item (config.handle state.table env item) := by
  have kept := Advances.refl config.primitives state.table
  unfold handle
  dsimp only
  split
  · exact .drops kept
  split
  · exact .drops kept
  rename_i notForMe
  split
  · rename_i ownForeign
    simp only [Bool.and_eq_true, beq_iff_eq] at notForMe ownForeign
    split
    · exact handles_handlePacket at_inbox
    · exact .becomes kept
        (.readdressed at_inbox (fun forMe => notForMe ⟨ownForeign.1, forMe⟩) ownForeign.2)
  · exact handles_handlePacket at_inbox

/-- Looking a session up finds the entry and leaves the sessions as they are. -/
theorem SessionTable.get_cases (table : SessionTable) (key : SessionKey) :
    (table.get key).2.sessions = table.sessions ∧
      ∀ ref, (table.get key).1 = some ref → table.entries key = some ref := by
  unfold get
  split
  · exact ⟨rfl, nofun⟩
  · split
    · exact ⟨rfl, fun _ => id⟩
    · exact ⟨rfl, nofun⟩

/-- The receive loop decrypts with the session stored for the sender. -/
theorem decryptIfNeeded_cases {table : SessionTable} {opened : ZCPacket} {nowMs : Nat}
    (opens : (config.decryptIfNeeded table packet nowMs).1 = some opened) :
    ∃ ref session, table.entries { networkName := config.networkName,
                                   peerId := packet.header.fromPeerId } = some ref ∧
      table.sessions[ref]? = some session ∧
      (session.decryptPayload config.primitives packet.header.fromPeerId config.myPeerId packet
        nowMs).1 = .ok opened := by
  obtain ⟨sessions, entry⟩ := table.get_cases
    { networkName := config.networkName, peerId := packet.header.fromPeerId }
  unfold decryptIfNeeded at opens
  dsimp only at opens
  split at opens
  · cases opens
  rename_i ref session found
  obtain ⟨other, got, stored⟩ := Option.bind_eq_some_iff.mp found
  obtain ⟨same, present, paired⟩ := Option.map_eq_some_iff.mp stored
  cases paired
  rw [sessions] at present
  refine ⟨ref, session, entry ref got, present, ?_⟩
  generalize (session.decryptPayload config.primitives packet.header.fromPeerId config.myPeerId
    packet nowMs).1 = result at opens ⊢
  cases result with
  | ok plain => exact congrArg Except.ok (Option.some.inj opens)
  | error => cases opens

theorem handles_moveItem (config : NodeConfig) (state : NodeState) (env : StepEnv) (item : Item) :
    Handles config state env item (state.moveItem config env item) := by
  have kept := Advances.refl config.primitives state.table
  unfold moveItem
  split
  · rename_i at_inbox
    exact handles_handle at_inbox
  · rename_i policy at_relay
    unfold relaySendMsg
    split
    · rename_i insecure
      exact .becomes kept (.passed at_relay (by simpa using insecure))
    rename_i secure
    have isSecure : config.secureModeEnabled = true := by simpa using secure
    have looked := advances_get config.primitives state.table
      { networkName := config.networkName, peerId := item.packet.header.toPeerId }
    have sessions := (state.table.get_cases
      { networkName := config.networkName, peerId := item.packet.header.toPeerId }).1
    split
    · rename_i got
      rw [got] at looked
      split
      · exact .drops looked
      · exact .becomes looked (.buffered at_relay isSecure)
    · rename_i ref table got
      rw [got] at looked sessions
      exact handles_encryptAndSend looked sessions (.inl ⟨at_relay, isSecure, by rw [got]⟩)
  · rename_i flushing
    exact handles_encryptAndSend kept rfl (.inr flushing)
  · rename_i policy at_nextHop
    unfold sendMsgToNextHop
    split
    · exact .drops kept
    split
    · exact .becomes kept (.hopped (.inl ⟨policy, at_nextHop⟩) (.inr ⟨_, _, rfl⟩))
    · split
      · exact .becomes kept (.hopped (.inl ⟨policy, at_nextHop⟩) (.inl rfl))
      · exact .becomes kept (.hopped (.inl ⟨policy, at_nextHop⟩) (.inr ⟨_, _, rfl⟩))
  · rename_i at_gateway
    unfold peerMapSendMsg
    split
    · exact .drops kept
    split
    · exact .becomes kept (.hopped (.inr at_gateway) (.inl rfl))
    · exact .becomes kept (.hopped (.inr at_gateway) (.inr ⟨_, _, rfl⟩))
  · rename_i realm peerId at_peer
    unfold peerSendMsg
    split
    · exact .drops kept
    rename_i conn found
    have sent := advances_beforeSend config.primitives conn.filter state.table item.packet env.nowMs
    split
    · exact .drops kept
    rename_i matching
    split
    · rename_i passes
      rw [passes] at sent
      exact .drops sent
    rename_i packet table passes
    rw [passes] at sent
    refine .becomes sent (.written at_peer (List.mem_of_getElem? found) ?_ (by rw [passes]))
    simp only [not_or, not_not] at matching
    exact matching.2
  all_goals exact .becomes kept .stays

theorem preserves_forwarded (packet : ZCPacket) :
    Preserves packet { packet with header := forwardedHeader packet.header } := by
  unfold forwardedHeader
  split
  · refine ⟨rfl, rfl, rfl, rfl, fun flag notLatency _ _ => ?_, rfl⟩
    exact (packet.header.contains_setFlag .latencyFirst false flag).trans (if_neg notLatency)
  · exact ⟨rfl, rfl, rfl, rfl, fun _ _ _ _ => rfl, rfl⟩

/-- A forwarded packet is counted; one of this node's own may also be compressed and encrypted. -/
theorem forwardPacket_cases {forwarded : ZCPacket}
    (forwards : config.forwardPacket env packet = some forwarded) :
    ∃ counted, Preserves packet counted ∧ (forwarded = counted ∨
      packet.header.fromPeerId = config.myPeerId ∧
        forwarded = config.tryCompressAndEncrypt counted env.nonce) := by
  unfold forwardPacket at forwards
  dsimp only at forwards
  split at forwards
  · cases forwards
  split at forwards
  · cases forwards
  refine ⟨_, preserves_forwarded packet, ?_⟩
  split at forwards
  · rename_i own
    simp only [Bool.and_eq_true, decide_eq_true_eq] at own
    exact .inr ⟨own.1, (Option.some.inj forwards).symm⟩
  · exact .inl (Option.some.inj forwards).symm

/-- A packet leaves through the relay map or for its destination, unless it is for this node. -/
theorem sendMsgInternal_cases {header : PeerManagerHeader}
    {place : Place} (leaves : config.sendMsgInternal env header = some place) :
    (∃ policy, place = .relay policy) ∨ (∃ realm, place = .peer realm header.toPeerId) ∨
      (place = .inbox ∧ header.toPeerId = config.myPeerId) := by
  unfold sendMsgInternal at leaves
  dsimp only at leaves
  generalize (if header.isLatencyFirst then Option.filter _ _ else none) = latencyFirst at leaves
  split at leaves
  · exact .inl ⟨_, (Option.some.inj leaves).symm⟩
  split at leaves
  · exact .inr (.inl ⟨_, (Option.some.inj leaves).symm⟩)
  split at leaves
  · rename_i forMe
    exact .inr (.inr ⟨(Option.some.inj leaves).symm, forMe⟩)
  split at leaves
  · exact .inr (.inl ⟨_, (Option.some.inj leaves).symm⟩)
  split at leaves
  · split at leaves
    · exact .inl ⟨_, (Option.some.inj leaves).symm⟩
    · cases leaves
  · split at leaves
    · exact .inr (.inl ⟨_, (Option.some.inj leaves).symm⟩)
    · cases leaves

/-- Where a packet of the next state comes from. -/
inductive ItemOrigin (config : NodeConfig) (state : NodeState) : NodeEvent → Item → Prop
  | kept {event : NodeEvent} {item : Item} (member : item ∈ state.items) :
      ItemOrigin config state event item
  | flushed {dstPeerId : PeerId} {ref : SessionRef} {item : Item} {policy : NextHopPolicy}
      (member : item ∈ state.items) (waits : item.place = .pending policy)
      (toDst : item.packet.header.toPeerId = dstPeerId)
      (isWith : state.table.IsWith ref dstPeerId) :
      ItemOrigin config state (.flush dstPeerId ref) { item with place := .flushing policy ref }
  | originated {packet : ZCPacket} {env : StepEnv} {place : Place}
      (leaves : config.sendMsgInternal env packet.header = some place) :
      ItemOrigin config state (.originate packet env) ⟨place, packet, .originated, packet⟩
  | arrived {index nowMs : Nat} {conn : Conn} {packet received : ZCPacket} {liveness : Bool}
      (found : state.conns[index]? = some conn)
      (passes : (conn.filter.afterReceived config.primitives state.table
        (LivenessStamp.strip liveness packet) nowMs).1 = .packet received) :
      ItemOrigin config state (.arrive index packet liveness nowMs)
        ⟨.inbox, received, .arrived conn.noise, packet⟩
  | moved {index : Nat} {env : StepEnv} {item next : Item}
      (found : state.items[index]? = some item) (moves : Moves config state env item next) :
      ItemOrigin config state (.step index env) next

theorem arrive_origin {index nowMs : Nat} {conn : Conn}
    {liveness : Bool} (found : state.conns[index]? = some conn)
    (member : item ∈ (state.arrive config conn packet liveness nowMs).items) :
    ItemOrigin config state (.arrive index packet liveness nowMs) item := by
  unfold arrive at member
  split at member
  · rename_i received table passes
    split at member
    · exact .kept member
    · rcases List.mem_append.mp member with old | new
      · exact .kept old
      · rw [List.mem_singleton.mp new]
        exact .arrived found (by rw [passes])
  · exact .kept member
  · exact .kept member

section

variable {dstPeerId : PeerId} {ref : SessionRef} (flushes : state.flush dstPeerId ref = some after)
include flushes

/-- A flush hands the packets that wait for a peer over to a session with it. -/
theorem flush_cases :
    state.table.IsWith ref dstPeerId ∧
      after = { state with
        items := state.items.map fun item =>
          match item.place with
          | .pending policy =>
            if item.packet.header.toPeerId = dstPeerId then
              { item with place := .flushing policy ref }
            else item
          | _ => item } := by
  unfold flush at flushes
  split at flushes
  · cases flushes
  rename_i session found
  split at flushes
  · rename_i peerId
    cases flushes
    exact ⟨⟨session, found, peerId⟩, rfl⟩
  · cases flushes

theorem flush_origin
    (member : item ∈ after.items) : ItemOrigin config state (.flush dstPeerId ref) item := by
  obtain ⟨isWith, rfl⟩ := flush_cases flushes
  obtain ⟨earlier, before, rfl⟩ := List.mem_map.mp member
  split
  · rename_i policy waits
    split
    · rename_i toDst
      exact .flushed before waits toDst isWith
    · exact .kept before
  · exact .kept before

end

/-- A new connection has a filter of this node; its session, if any, is one with its peer. -/
theorem connect_cases {realm : Realm} {peerId : PeerId} {session : Option SessionRef}
    (connects : state.connect config realm peerId session = some after) :
    ∃ filter : PeerSessionTunnelFilter, filter.enabled = config.secureModeEnabled ∧
      filter.myPeerId = config.myPeerId ∧
      (∀ ref, filter.session = some ref →
        filter.peerId = some peerId ∧ state.table.IsWith ref peerId) ∧
      after = { state with conns := state.conns ++ [⟨realm, peerId, filter⟩] } := by
  unfold connect at connects
  split at connects
  · cases connects
    refine ⟨_, rfl, rfl, ?_, rfl⟩
    rintro _ ⟨⟩
  split at connects
  · cases connects
  rename_i stored found
  split at connects
  · rename_i ofPeer
    cases connects
    refine ⟨_, rfl, rfl, ?_, rfl⟩
    rintro _ ⟨rfl⟩
    exact ⟨rfl, stored, found, ofPeer⟩
  · cases connects

end EasyTier.Peers
